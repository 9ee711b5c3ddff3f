/-
Compression on the way to the client. A response says in `Content-Encoding` how its
body is to be decoded, and a request in `Accept-Encoding` which codings it takes.

The proxy does not look at what the origin has done: a body that is encoded already is
encoded again, and the header then names the outer coding only. And it looks for `br` and
`gzip` anywhere in the text of `Accept-Encoding`, also in an element that refuses them
(`compression_garbles`). When the content is the same, says `compression_transparent`.
-/
import EdgeFabric.CdnServer.Proxy

namespace EdgeFabric.CdnServer
open Text (bytes)

/-! ## Codings -/

inductive Coding where
  | identity
  | gzip
  | br
  deriving DecidableEq

structure Codecs (lib : ProxyLib) where
  gunzip : Bytes → Option Bytes
  gunzip_gzip : ∀ body, gunzip (lib.gzip body) = some body
  unbrotli : Bytes → Option Bytes
  unbrotli_brotli : ∀ body, unbrotli (lib.brotli body) = some body

def Coding.decode {lib : ProxyLib} (codecs : Codecs lib) : Coding → Bytes → Option Bytes
  | .identity => some
  | .gzip => codecs.gunzip
  | .br => codecs.unbrotli

def Compression.coding : Compression → Coding
  | .gzip => .gzip
  | .brotli => .br

def codingOf (name : Bytes) : Option Coding :=
  if name = [] ∨ name = bytes "identity" then some .identity
  else if name = bytes "gzip" ∨ name = bytes "x-gzip" then some .gzip
  else if name = bytes "br" then some .br
  else none

/-- The coding that a header announces; nothing if it is another one or there are several. -/
def announced (h : Header) : Option Coding :=
  match h.values contentEncoding with
  | [] => some .identity
  | [line] => codingOf (token line)
  | _ => none

/-- An element of `Accept-Encoding`: a name, and whether it has a weight of zero. -/
structure Element where
  name : Bytes
  refused : Bool

def element (text : Bytes) : Element :=
  match text.splitOn 59 with
  | [] => { name := [], refused := false }
  | name :: parameters =>
    { name := token name
      refused := parameters.any fun p =>
        match token p with
        | 113 :: 61 :: weight => !weight.isEmpty && weight.all fun b => b = 48 || b = 46  -- `q=` and zeros
        | _ => false }

def elements (r : Request) : List Element :=
    (r.headers.values acceptEncoding).flatMap fun line => (line.splitOn 44).map element

/-- The client takes the coding: it names it, or all others, without refusing it. -/
def Allows (r : Request) (c : Coding) : Bool :=
  if r.headers.values acceptEncoding = [] then true
  else
    match (elements r).find? fun e => e.name ≠ [] && codingOf e.name = some c with
    | some e => !e.refused
    | none =>
      match (elements r).find? fun e => e.name = bytes "*" with
      | some e => !e.refused
      | none => c = .identity

/-- The reply has the content of the answer, in a coding that the client takes or the origin
chose. -/
def Transparent {lib : ProxyLib} (codecs : Codecs lib) (r : Request) (answer reply : Response) : Prop :=
  ∃ c c', announced answer.headers = some c ∧ announced reply.headers = some c' ∧
    c'.decode codecs reply.body = c.decode codecs answer.body ∧ (c' = c ∨ Allows r c' = true)

/-- The coding that the site puts the answer under, once its header rules are applied. -/
def compresses (lib : ProxyLib) (sr : SiteRuntime) (r : Request) (answer : Response) : Option Compression :=
  if shouldCompress lib ((applyHeaderRules lib sr.headerRules answer.headers).get contentType) = true ∧
    answer.body ≠ [] then
    compression sr.site r
  else none

/-- What the site compresses has come without a coding, announced by the origin as `c`, and the
client takes the coding used; what it does not compress is announced by the header rules in a
coding that gives the same content, which is that of the origin or one that the client takes. -/
def Compressible {lib : ProxyLib} (codecs : Codecs lib) (sr : SiteRuntime) (r : Request) (answer : Response)
    (c : Coding) : Prop :=
  match compresses lib sr r answer with
  | some comp => c.decode codecs answer.body = some answer.body ∧ (comp.coding = c ∨ Allows r comp.coding = true)
  | none => ∃ c', announced (applyHeaderRules lib sr.headerRules answer.headers) = some c' ∧
      c'.decode codecs answer.body = c.decode codecs answer.body ∧ (c' = c ∨ Allows r c' = true)

section
variable {lib : ProxyLib} {codecs : Codecs lib} {sr : SiteRuntime} {r : Request} {answer : Response} {h h' : Header}

theorem announced_congr (hvalues : h'.values contentEncoding = h.values contentEncoding) :
    announced h' = announced h := by
  rw [announced, announced, hvalues]

theorem values_addAll_miss {name : Bytes} (hname : name ≠ xCache) :
    (h.addAll (Header.set xCache (bytes "MISS") ∅)).values name = h.values name := by
  rw [Header.values_addAll, Header.values_set_of_ne hname, Header.values_empty, List.nil_append]

theorem announced_flushed (c : Compression) :
    announced ((h.set contentEncoding c.name).del contentLength) = some c.coding := by
  unfold announced
  rw [Header.values_del_of_ne (by decide), Header.values_set_self]
  cases c <;> decide

theorem decode_encode (c : Compression) (body : Bytes) : c.coding.decode codecs (c.encode lib body) = some body := by
  cases c with
  | gzip => exact codecs.gunzip_gzip body
  | brotli => exact codecs.unbrotli_brotli body

theorem transparent_iff {reply : Response} {c c' : Coding} (hc : announced answer.headers = some c)
    (hc' : announced reply.headers = some c') : Transparent codecs r answer reply ↔
      c'.decode codecs reply.body = c.decode codecs answer.body ∧ (c' = c ∨ Allows r c' = true) := by
  constructor
  · rintro ⟨c₁, c₂, h₁, h₂, h⟩
    cases hc.symm.trans h₁
    cases hc'.symm.trans h₂
    exact h
  · exact fun h => ⟨c, c', hc, hc', h⟩

theorem deliver_transparent {c : Coding} (hc : announced answer.headers = some c) :
    Transparent codecs r answer (deliver lib sr.site r
      { answer with headers := applyHeaderRules lib sr.headerRules answer.headers }) ↔
        Compressible codecs sr r answer c := by
  generalize hhs : applyHeaderRules lib sr.headerRules answer.headers = hs
  have hmiss : announced (hs.addAll (Header.set xCache (bytes "MISS") ∅)) = announced hs :=
    announced_congr (values_addAll_miss (by decide))
  have htype : (hs.addAll (Header.set xCache (bytes "MISS") ∅)).get contentType = hs.get contentType := by
    rw [Header.get, Header.get, values_addAll_miss (by decide)]
  have hpass : Transparent codecs r answer { answer with headers := hs.addAll (Header.set xCache (bytes "MISS") ∅) } ↔
      ∃ c', announced hs = some c' ∧ c'.decode codecs answer.body = c.decode codecs answer.body ∧
        (c' = c ∨ Allows r c' = true) := by
    constructor
    · rintro ⟨c₁, c', h₁, hc', h⟩
      cases hc.symm.trans h₁
      exact ⟨c', hmiss.symm.trans hc', h⟩
    · rintro ⟨c', hc', h⟩
      exact ⟨c, c', hc, hmiss.trans hc', h⟩
  unfold Compressible compresses deliver
  rw [hhs]
  cases hcomp : compression sr.site r with
  | none =>
    simp only [ite_self]
    exact hpass
  | some comp =>
    dsimp only
    unfold Compression.flush
    by_cases hskip : shouldCompress lib (hs.get contentType) = true ∧ answer.body ≠ []
    · have hflush : (!shouldCompress lib (hs.get contentType) || answer.body.isEmpty) = false := by
        simp [hskip.1, hskip.2]
      simp only [htype, hflush, Bool.false_eq_true, if_false, if_pos hskip]
      rw [transparent_iff hc (announced_flushed comp), decode_encode, eq_comm]
    · have hflush : (!shouldCompress lib (hs.get contentType) || answer.body.isEmpty) = true := by
        by_cases htext : shouldCompress lib (hs.get contentType) = true
        · have hempty : answer.body = [] := by
            by_contra hbody
            exact hskip ⟨htext, hbody⟩
          simp [hempty]
        · simp [htext]
      simp only [htype, hflush, if_true, if_neg hskip]
      exact hpass

end

/-- For every site, request and answer of an origin in a known coding, the client gets the same
content in a coding that it takes or that the origin chose, precisely if the site compresses
only what comes without a coding, for a client that takes the one used, and announces the rest
as it is. -/
theorem compression_transparent (lib : ProxyLib) (codecs : Codecs lib) (n n' : Node) (r : Request) (x : Exchange)
    (i : Nat) (siteID : ID) (s : SiteState) (origin : CDNOrigin) (answer reply : Response) (stored : Option Response)
    (hsite : n.site i = some s)
    (hserve : n.serveHTTP lib r x = some (some (i, siteID), .proxied origin answer reply stored, n')) {c : Coding}
    (hknown : announced answer.headers = some c) :
    Transparent codecs r answer reply ↔ Compressible codecs s.runtime r answer c := by
  rcases Node.serveHTTP_inv hserve with ⟨hnone, -⟩ | ⟨i', s₀, s', hi, hs₀, hserves, -⟩
  · cases hnone
  · obtain ⟨rfl, -⟩ : i = i' ∧ siteID = s₀.runtime.site.id := by simpa using hi
    cases hsite.symm.trans hs₀
    cases hserves with
    | answered hlimit hanswer =>
      obtain ⟨hcached, -⟩ := (SiteState.Serves.answered hlimit hanswer).recached
      have hsame : s'.runtime.site = s.runtime.site := by
        rw [SiteState.allow_runtime] at hcached
        rw [hcached]
      cases hanswer with
      | proxied hlookup hfetch hresp hcache =>
        have hrules := SiteState.lookup_recached hlookup
        rw [SiteState.allow_runtime] at hrules
        rw [hrules] at hresp
        rw [hresp, hsame]
        exact deliver_transparent hknown

def Codecs.plain : Codecs .plain where
  gunzip
    | 31 :: body => some body
    | _ => none
  gunzip_gzip _ := rfl
  unbrotli
    | 206 :: body => some body
    | _ => none
  unbrotli_brotli _ := rfl

namespace Sample

def compressing : Node :=
  configured "" (fun _ => ∅) [{ site := { site with compressionEnabled := true }, origins := [origin] }]

def accepting (codings : String) : Request :=
  { request "/" "" with headers := Header.set acceptEncoding (bytes codings) ∅ }

def html (body : Bytes) : Response :=
  { body, statusCode := 200, headers := Header.set contentType (bytes "text/html") ∅ }

def zipped (body : Bytes) : Response :=
  { html (ProxyLib.plain.gzip body) with headers := (html body).headers.set contentEncoding (bytes "gzip") }

def reply (codings : String) (answer : Response) : Option (Option (Nat × ID) × Response × Bytes × Option Coding) :=
  (compressing.serveHTTP .plain (accepting codings) (answering answer)).bind fun (place, outcome, _) =>
    match outcome with
    | .proxied _ answer reply _ => some (place, answer, reply.body, announced reply.headers)
    | _ => none

theorem serve_of_reply {codings : String} {answer : Response} {body : Bytes} {c : Option Coding}
    (h : reply codings answer = some (some (0, 60), answer, body, c)) :
    ∃ origin reply stored n', compressing.serveHTTP .plain (accepting codings) (answering answer) =
        some (some (0, 60), .proxied origin answer reply stored, n') ∧ reply.body = body ∧
          announced reply.headers = c := by
  obtain ⟨⟨place, outcome, n'⟩, hserve, hreply⟩ := Option.bind_eq_some_iff.mp h
  cases outcome with
  | proxied origin answer' reply stored =>
    simp only [Option.some.injEq, Prod.mk.injEq] at hreply
    obtain ⟨rfl, rfl, hbody, hcoding⟩ := hreply
    exact ⟨origin, reply, stored, n', hserve, hbody, hcoding⟩
  | _ => cases hreply

theorem site_compressing :
    ∃ s, compressing.site 0 = some s ∧ s.runtime.site = { site with compressionEnabled := true } ∧
      s.runtime.headerRules = [] := ⟨_, rfl, rfl, rfl⟩

end Sample

/-- What comes without a coding is sent under gzip. -/
theorem compression_transparent_html :
    ∃ origin reply stored n', Sample.compressing.serveHTTP .plain (Sample.accepting "gzip")
        (Sample.answering (Sample.html [1])) = some (some (0, 60), .proxied origin (Sample.html [1]) reply stored, n') ∧
      announced reply.headers = some .gzip ∧ Transparent .plain (Sample.accepting "gzip") (Sample.html [1]) reply := by
  have hrun : Sample.reply "gzip" (Sample.html [1]) = some (some (0, 60), Sample.html [1], [31, 1], some .gzip) := by
    decide
  have hannounced : announced (Sample.html [1]).headers = some .identity := by decide
  obtain ⟨origin, reply, stored, n', hserve, -, hcoding⟩ := Sample.serve_of_reply hrun
  obtain ⟨s, hsite, hs, hrules⟩ := Sample.site_compressing
  refine ⟨origin, reply, stored, n', hserve, hcoding, (compression_transparent .plain .plain Sample.compressing n'
    (Sample.accepting "gzip") (Sample.answering (Sample.html [1])) 0 60 s origin
      (Sample.html [1]) reply stored hsite hserve
    hannounced).mpr ?_⟩
  have hgzip : compresses .plain s.runtime (Sample.accepting "gzip") (Sample.html [1]) = some .gzip := by
    rw [compresses, hs, hrules]
    decide
  rw [Compressible, hgzip]
  exact ⟨rfl, .inr (by decide)⟩

/-- A body under gzip is put under gzip once more, and a client that refuses brotli gets it. -/
theorem compression_garbles :
    (∃ origin reply stored n', Sample.compressing.serveHTTP .plain (Sample.accepting "gzip")
        (Sample.answering (Sample.zipped [1])) = some (some (0, 60),
          .proxied origin (Sample.zipped [1]) reply stored, n') ∧
      announced (Sample.zipped [1]).headers = some .gzip ∧
      ¬ Transparent .plain (Sample.accepting "gzip") (Sample.zipped [1]) reply) ∧
    ∃ origin reply stored n', Sample.compressing.serveHTTP .plain (Sample.accepting "gzip, br;q=0")
        (Sample.answering (Sample.html [1])) = some (some (0, 60), .proxied origin (Sample.html [1]) reply stored, n') ∧
      announced (Sample.html [1]).headers = some .identity ∧
      ¬ Transparent .plain (Sample.accepting "gzip, br;q=0") (Sample.html [1]) reply := by
  constructor
  · have hrun : Sample.reply "gzip" (Sample.zipped [1]) =
        some (some (0, 60), Sample.zipped [1], [31, 31, 1], some .gzip) := by
      decide
    have hannounced : announced (Sample.zipped [1]).headers = some .gzip := by decide
    obtain ⟨origin, reply, stored, n', hserve, hbody, hcoding⟩ := Sample.serve_of_reply hrun
    refine ⟨origin, reply, stored, n', hserve, hannounced, fun h => ?_⟩
    obtain ⟨c, c', hc, hc', hdecode, -⟩ := h
    cases hannounced.symm.trans hc
    cases hcoding.symm.trans hc'
    rw [hbody] at hdecode
    exact absurd hdecode (by decide)
  · have hrun : Sample.reply "gzip, br;q=0" (Sample.html [1]) =
        some (some (0, 60), Sample.html [1], [206, 1], some .br) := by
      decide
    have hannounced : announced (Sample.html [1]).headers = some .identity := by decide
    obtain ⟨origin, reply, stored, n', hserve, hbody, hcoding⟩ := Sample.serve_of_reply hrun
    refine ⟨origin, reply, stored, n', hserve, hannounced, fun h => ?_⟩
    obtain ⟨c, c', hc, hc', -, hallows⟩ := h
    cases hannounced.symm.trans hc
    cases hcoding.symm.trans hc'
    exact absurd hallows (by decide)

end EdgeFabric.CdnServer
