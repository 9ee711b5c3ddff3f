/-
The key under which a site's cache keeps the response to a request: the method,
the host and the decoded path, and the parameters of the raw query in order.

The parts are joined without escaping. A host is one of the site's domains, so it
has no bar in it; but a decoded path may have a question mark (sent as `%3F`), and
then what follows it reads like a query: the keys of `/a%3Fx=1` and of `/a?x=1` are
the same (`cacheKey_collides`). Where no path continues the other one by its query
in this way (`Disguised`), keys identify requests up to the order of their
parameters (`cacheKey_identifies`).
-/
import EdgeFabric.CdnServer.Http
import EdgeFabric.Cdn
import Mathlib.Data.List.Sort

namespace EdgeFabric.CdnServer
open Text (bytes)

def methodGet : Bytes := bytes "GET"

def splitHostPort (hostport : Bytes) : Option (Bytes × Bytes) :=
  match hostport with
  | 91 :: rest =>  -- a bracketed address
    let host := rest.takeWhile (· ≠ 93)
    match rest.dropWhile (· ≠ 93) with
    | 93 :: 58 :: port => if 58 ∈ port ∨ 91 ∈ host ∨ 91 ∈ port ∨ 93 ∈ port then none else some (host, port)
    | _ => none
  | _ =>
    match hostport.dropWhile (· ≠ 58) with
    | 58 :: port =>
      if 58 ∈ port ∨ 91 ∈ hostport ∨ 93 ∈ hostport then none else some (hostport.takeWhile (· ≠ 58), port)
    | _ => none

def requestHost (v : Platform) (r : Request) : Bytes :=
  let host := v.toLower r.host
  match splitHostPort host with
  | some (h, _) => h
  | none => host

def params (rawQuery : Bytes) : List Bytes := rawQuery.splitOn 38

/-- `sort.Strings`. -/
def sortStrings (texts : List Bytes) : List Bytes := texts.insertionSort (· ≤ ·)

def cacheKey (method host path rawQuery : Bytes) : Bytes :=
  method ++ 124 :: host ++ 124 :: path ++
    if rawQuery = [] then [] else 63 :: [38].intercalate (sortStrings (params rawQuery))

/-- The key that `ServeHTTP` looks up. -/
def requestKey (v : Platform) (r : Request) : Bytes := cacheKey r.method (requestHost v r) r.path r.rawQuery

/-- The request is one that the cache of the site is asked about. -/
structure Reaches (v : Platform) (site : CDNSite) (r : Request) : Prop where
  get : r.method = methodGet
  host : ∃ d ∈ site.domains, v.toLower (bytes d) = requestHost v r

/-- The requests ask for the same, up to the order of the parameters. -/
structure SameResource (v : Platform) (r₁ r₂ : Request) : Prop where
  host : requestHost v r₁ = requestHost v r₂
  path : r₁.path = r₂.path
  query : r₁.rawQuery = [] ↔ r₂.rawQuery = []
  params : (params r₁.rawQuery).Perm (params r₂.rawQuery)

/-! ## Parts of a key -/

theorem append_cons_inj {d : UInt8} {a b c e : Bytes} (ha : d ∉ a) (hb : d ∉ b) (h : a ++ d :: c = b ++ d :: e) :
    a = b ∧ c = e := by
  induction a generalizing b with
  | nil =>
    cases b with
    | nil => exact ⟨rfl, by simpa using h⟩
    | cons y b =>
      obtain ⟨rfl, -⟩ : d = y ∧ _ := by simpa using h
      exact absurd List.mem_cons_self hb
  | cons x a ih =>
    cases b with
    | nil =>
      obtain ⟨rfl, -⟩ : x = d ∧ _ := by simpa using h
      exact absurd List.mem_cons_self ha
    | cons y b =>
      obtain ⟨rfl, htail⟩ : x = y ∧ a ++ d :: c = b ++ d :: e := by simpa using h
      obtain ⟨rfl, rfl⟩ := ih (fun hm => ha (List.mem_cons_of_mem _ hm))
        (fun hm => hb (List.mem_cons_of_mem _ hm)) htail
      exact ⟨rfl, rfl⟩

theorem sortStrings_perm (texts : List Bytes) : (sortStrings texts).Perm texts := List.perm_insertionSort _ _

theorem sortStrings_eq_iff {a b : List Bytes} : sortStrings a = sortStrings b ↔ a.Perm b := by
  constructor
  · intro h
    exact (sortStrings_perm a).symm.trans (h ▸ sortStrings_perm b)
  · intro h
    have hperm := (sortStrings_perm a).trans (h.trans (sortStrings_perm b).symm)
    exact hperm.eq_of_pairwise (fun x y _ _ hxy hyx => List.le_antisymm hxy hyx)
      (List.pairwise_insertionSort _ _) (List.pairwise_insertionSort _ _)

theorem not_mem_of_mem_params {q p : Bytes} (h : p ∈ params q) : 38 ∉ p := by
  unfold params at h
  induction q generalizing p with
  | nil =>
    obtain rfl : p = [] := by simpa using h
    exact List.not_mem_nil
  | cons b q ih =>
    rw [List.splitOn_cons_eq_if_modifyHead] at h
    by_cases hb : b = 38
    · rw [if_pos (by simpa using hb)] at h
      rcases List.mem_cons.mp h with rfl | h
      · exact List.not_mem_nil
      · exact ih h
    · rw [if_neg (by simpa using hb)] at h
      cases hq : q.splitOn 38 with
      | nil => exact absurd hq (List.splitOn_ne_nil _ _)
      | cons first rest =>
        rw [hq] at h ih
        rcases List.mem_cons.mp h with rfl | h
        · intro hmem
          rcases List.mem_cons.mp hmem with rfl | hmem
          · exact hb rfl
          · exact ih List.mem_cons_self hmem
        · exact ih (List.mem_cons_of_mem _ h)

theorem join_params_inj {q₁ q₂ : Bytes} :
    [38].intercalate (sortStrings (params q₁)) = [38].intercalate (sortStrings (params q₂)) ↔
      (params q₁).Perm (params q₂) := by
  have hsplit : ∀ q, ([38].intercalate (sortStrings (params q))).splitOn 38 = sortStrings (params q) := fun q => by
    refine List.splitOn_intercalate 38 (fun p hp => ?_) fun hnil => ?_
    · exact not_mem_of_mem_params ((sortStrings_perm _).mem_iff.mp hp)
    · have hperm := sortStrings_perm (params q)
      rw [hnil] at hperm
      exact List.splitOn_ne_nil _ _ hperm.nil_eq.symm
  rw [← sortStrings_eq_iff]
  constructor
  · intro h
    rw [← hsplit q₁, h, hsplit q₂]
  · exact congrArg _

/-! ## Hosts -/

theorem mem_trimDot {cs : List Char} {c : Char} (h : c ∈ cs) : c ∈ DNSService.trimDot cs ∨ c = '.' := by
  unfold DNSService.trimDot
  split
  · next hlast =>
    rw [← List.dropLast_append_getLast? '.' hlast, List.mem_append, List.mem_singleton] at h
    exact h
  · exact .inl h

theorem domain_chars {d : String} (h : CDNService.validateDomain d = .ok ()) {c : Char} (hc : c ∈ d.toList) :
    DNSService.isAlphanumeric c = true ∨ c = '-' ∨ c = '.' := by
  have hregex : CDNService.hostnameRegex (DNSService.trimDot d.toList) = true := by
    unfold CDNService.validateDomain at h
    by_contra hregex
    dsimp only at h
    rw [if_pos hregex] at h
    split at h
    · cases h
    · split at h <;> cases h
  rcases mem_trimDot hc with hc | hc
  · rcases mem_trimDot hc with hc | hc
    · generalize hcs : DNSService.trimDot (DNSService.trimDot d.toList) = cs at hc
      have hjoin : ['.'].intercalate (cs.splitOn '.') = cs := List.intercalate_splitOn '.'
      rw [← hjoin, ← hcs] at hc
      rcases Text.mem_intercalate hc with hc | ⟨label, hlabel, hc⟩
      · exact .inr (.inr hc)
      · have hall := List.all_eq_true.mp hregex label hlabel
        simp only [DNSService.isLabel, Bool.and_eq_true] at hall
        have := List.all_eq_true.mp hall.1.1.2 c hc
        simp only [Bool.or_eq_true, beq_iff_eq] at this
        exact this.imp_right .inl
    · exact .inr (.inr hc)
  · exact .inr (.inr hc)

theorem domain_bytes {d : String} (h : CDNService.validateDomain d = .ok ()) {b : UInt8} (hb : b ∈ bytes d) :
    48 ≤ b ∧ b ≤ 57 ∨ 65 ≤ b ∧ b ≤ 90 ∨ 97 ≤ b ∧ b ≤ 122 ∨ b = 45 ∨ b = 46 := by
  have hchars : ∀ c ∈ d.toList, 48 ≤ c.toNat ∧ c.toNat ≤ 57 ∨ 65 ≤ c.toNat ∧ c.toNat ≤ 90 ∨
      97 ≤ c.toNat ∧ c.toNat ≤ 122 ∨ c.toNat = 45 ∨ c.toNat = 46 := fun c hc => by
    rcases domain_chars h hc with hc | rfl | rfl
    · simp only [DNSService.isAlphanumeric, Bool.or_eq_true, Bool.and_eq_true, decide_eq_true_eq, Char.le_def] at hc
      rcases hc with (hc | hc) | hc
      · exact .inr (.inr (.inl hc))
      · exact .inr (.inl hc)
      · exact .inl hc
    · decide
    · decide
  rw [← String.ofList_toList (s := d), Text.bytes_ascii fun c hc => by have := hchars c hc; omega] at hb
  obtain ⟨c, hc, rfl⟩ := List.mem_map.mp hb
  have hc := hchars c hc
  simp only [UInt8.le_iff_toNat_le, ← UInt8.toNat_inj, Nat.toUInt8_eq, UInt8.toNat_ofNat']
  show 48 ≤ c.toNat % 256 ∧ c.toNat % 256 ≤ 57 ∨ 65 ≤ c.toNat % 256 ∧ c.toNat % 256 ≤ 90 ∨
    97 ≤ c.toNat % 256 ∧ c.toNat % 256 ≤ 122 ∨ c.toNat % 256 = 45 ∨ c.toNat % 256 = 46
  omega

theorem toLower_domain (v : Platform) {d : String} (h : CDNService.validateDomain d = .ok ()) :
    v.toLower (bytes d) = (bytes d).map asciiLower :=
  v.toLower_text _ fun b hb => by have := domain_bytes h hb; grind

theorem lower_domain_bytes {d : String} (h : CDNService.validateDomain d = .ok ()) {b : UInt8}
    (hb : b ∈ (bytes d).map asciiLower) : 48 ≤ b ∧ b ≤ 57 ∨ 97 ≤ b ∧ b ≤ 122 ∨ b = 45 ∨ b = 46 := by
  obtain ⟨x, hx, rfl⟩ := List.mem_map.mp hb
  have := domain_bytes h hx
  unfold asciiLower
  split <;> grind

theorem bar_not_mem_domain (v : Platform) {d : String} (h : CDNService.validateDomain d = .ok ()) :
    124 ∉ v.toLower (bytes d) := by
  rw [toLower_domain v h]
  intro hmem
  exact absurd (lower_domain_bytes h hmem) (by decide)

/-! ## Keys -/

/-- What `cacheKey` writes behind the path. -/
def queryPart (rawQuery : Bytes) : Bytes :=
  if rawQuery = [] then [] else 63 :: [38].intercalate (sortStrings (params rawQuery))

theorem queryPart_eq_iff {q₁ q₂ : Bytes} :
    queryPart q₁ = queryPart q₂ ↔ (q₁ = [] ↔ q₂ = []) ∧ (params q₁).Perm (params q₂) := by
  unfold queryPart
  by_cases hq₁ : q₁ = [] <;> by_cases hq₂ : q₂ = []
  · simp [hq₁, hq₂]
  · simp [hq₁, hq₂]
  · simp [hq₁, hq₂]
  · rw [if_neg hq₁, if_neg hq₂, List.cons.injEq, join_params_inj]
    simp [hq₁, hq₂]

/-- The path of `r'` is that of `r`, a question mark, and the sorted query of `r` up to where the
one of `r'` begins. -/
def Disguised (r r' : Request) : Prop :=
  ∃ text, r'.path = r.path ++ 63 :: text ∧ r.rawQuery ≠ [] ∧
    [38].intercalate (sortStrings (params r.rawQuery)) = text ++ queryPart r'.rawQuery

theorem disguised_iff {r r' : Request} :
    Disguised r r' ↔ ∃ c, c ≠ [] ∧ r'.path = r.path ++ c ∧ queryPart r.rawQuery = c ++ queryPart r'.rawQuery := by
  constructor
  · rintro ⟨text, hpath, hne, hquery⟩
    refine ⟨63 :: text, List.cons_ne_nil _ _, hpath, ?_⟩
    rw [queryPart, if_neg hne, hquery, List.cons_append]
  · rintro ⟨c, hne, hpath, hquery⟩
    cases c with
    | nil => exact absurd rfl hne
    | cons b text =>
      rw [queryPart] at hquery
      split at hquery
      · cases hquery
      · next hsome =>
        obtain ⟨rfl, htext⟩ := List.cons.inj hquery
        exact ⟨text, hpath, hsome, htext⟩

theorem Disguised.path_ne {r r' : Request} (h : Disguised r r') : r.path ≠ r'.path := by
  obtain ⟨text, hpath, -⟩ := h
  intro he
  rw [← he] at hpath
  simp at hpath

/-- The parts behind the host agree, or one path continues the other by its query. -/
theorem path_query_eq_iff {r₁ r₂ : Request} :
    r₁.path ++ queryPart r₁.rawQuery = r₂.path ++ queryPart r₂.rawQuery ↔
      r₁.path = r₂.path ∧ queryPart r₁.rawQuery = queryPart r₂.rawQuery ∨ Disguised r₁ r₂ ∨ Disguised r₂ r₁ := by
  rw [List.append_eq_append_iff, disguised_iff, disguised_iff]
  constructor
  · rintro (⟨c, hpath, hquery⟩ | ⟨c, hpath, hquery⟩) <;> rcases eq_or_ne c [] with rfl | hc
    · exact .inl ⟨by simpa using hpath.symm, hquery⟩
    · exact .inr (.inl ⟨c, hc, hpath, hquery⟩)
    · exact .inl ⟨by simpa using hpath, hquery.symm⟩
    · exact .inr (.inr ⟨c, hc, hpath, hquery⟩)
  · rintro (⟨hpath, hquery⟩ | ⟨c, -, h⟩ | ⟨c, -, h⟩)
    · exact .inl ⟨[], by simpa using hpath.symm, hquery⟩
    · exact .inl ⟨c, h⟩
    · exact .inr ⟨c, h⟩

theorem requestKey_eq_iff {v : Platform} {r₁ r₂ : Request} (hmethod : r₁.method = r₂.method)
    (hbar₁ : 124 ∉ requestHost v r₁) (hbar₂ : 124 ∉ requestHost v r₂) :
    requestKey v r₁ = requestKey v r₂ ↔ requestHost v r₁ = requestHost v r₂ ∧
      r₁.path ++ queryPart r₁.rawQuery = r₂.path ++ queryPart r₂.rawQuery := by
  unfold requestKey cacheKey
  rw [hmethod, ← queryPart, ← queryPart]
  simp only [List.append_assoc, List.cons_append, List.append_cancel_left_eq, List.cons.injEq, true_and]
  constructor
  · exact fun h => append_cons_inj hbar₁ hbar₂ h
  · rintro ⟨hhost, htail⟩
    rw [hhost, htail]

theorem sameResource_iff {v : Platform} {r₁ r₂ : Request} : SameResource v r₁ r₂ ↔
    requestHost v r₁ = requestHost v r₂ ∧ r₁.path = r₂.path ∧ queryPart r₁.rawQuery = queryPart r₂.rawQuery := by
  rw [queryPart_eq_iff]
  exact ⟨fun h => ⟨h.host, h.path, h.query, h.params⟩, fun h => ⟨h.1, h.2.1, h.2.2.1, h.2.2.2⟩⟩

theorem SameResource.of_requestKey_eq {v : Platform} {r₁ r₂ : Request} (hmethod : r₁.method = r₂.method)
    (hbar₁ : 124 ∉ requestHost v r₁) (hbar₂ : 124 ∉ requestHost v r₂) (hpath₁ : 63 ∉ r₁.path) (hpath₂ : 63 ∉ r₂.path)
    (h : requestKey v r₁ = requestKey v r₂) : SameResource v r₁ r₂ := by
  obtain ⟨hhost, htail⟩ := (requestKey_eq_iff hmethod hbar₁ hbar₂).mp h
  rcases path_query_eq_iff.mp htail with hsame | ⟨text, hpath, -⟩ | ⟨text, hpath, -⟩
  · exact sameResource_iff.mpr ⟨hhost, hsame⟩
  · exact absurd (by simp [hpath]) hpath₂
  · exact absurd (by simp [hpath]) hpath₁

/-- The cache of a site tells two requests apart by host, path and parameters precisely if they
have different hosts or neither path continues the other one by its query. -/
theorem cacheKey_identifies (v : Platform) (site : CDNSite)
    (hsite : ∀ d ∈ site.domains, CDNService.validateDomain d = .ok ()) (r₁ r₂ : Request) (h₁ : Reaches v site r₁)
    (h₂ : Reaches v site r₂) :
    (requestKey v r₁ = requestKey v r₂ ↔ SameResource v r₁ r₂) ↔
      (requestHost v r₁ = requestHost v r₂ → ¬ Disguised r₁ r₂ ∧ ¬ Disguised r₂ r₁) := by
  have hbar : ∀ r, Reaches v site r → 124 ∉ requestHost v r := fun r hr => by
    obtain ⟨d, hd, hhost⟩ := hr.host
    rw [← hhost]
    exact bar_not_mem_domain v (hsite d hd)
  rw [requestKey_eq_iff (h₁.get.trans h₂.get.symm) (hbar r₁ h₁) (hbar r₂ h₂), path_query_eq_iff, sameResource_iff]
  have hne : Disguised r₁ r₂ → r₁.path ≠ r₂.path := Disguised.path_ne
  have hne' : Disguised r₂ r₁ → r₁.path ≠ r₂.path := fun h he => h.path_ne he.symm
  tauto

namespace Sample

def site : CDNSite :=
  { id := 60, tenantID := 100, name := "www", domains := ["www.example.org"], tlsMode := "auto", tlsCertID := none
    cacheEnabled := true, cacheTTL := 60, compressionEnabled := false, rateLimitRPS := none, nodeGroupID := some 25
    headerRules := none, wafEnabled := false, wafMode := "", status := .active, createdAt := 0, updatedAt := 0 }

def request (path rawQuery : String) : Request :=
  { method := methodGet, host := bytes "www.example.org", path := bytes path, rawQuery := bytes rawQuery, headers := ∅ }

theorem site_valid : ∀ d ∈ site.domains, CDNService.validateDomain d = .ok () := by decide

theorem request_host (path rawQuery : String) :
    requestHost .plain (request path rawQuery) = bytes "www.example.org" := by
  show (match splitHostPort ((bytes "www.example.org").map asciiLower) with
    | some (h, _) => h
    | none => (bytes "www.example.org").map asciiLower) = bytes "www.example.org"
  decide

theorem request_reaches (path rawQuery : String) : Reaches .plain site (request path rawQuery) :=
  ⟨rfl, "www.example.org", List.mem_cons_self, (request_host path rawQuery).symm⟩

end Sample

theorem cacheKey_identifies_sample :
    requestKey .plain (Sample.request "/a" "x=1&y=2") = requestKey .plain (Sample.request "/a" "y=2&x=1") ↔
      SameResource .plain (Sample.request "/a" "x=1&y=2") (Sample.request "/a" "y=2&x=1") :=
  (cacheKey_identifies .plain Sample.site Sample.site_valid _ _ (Sample.request_reaches _ _)
    (Sample.request_reaches _ _)).mpr fun _ => ⟨fun h => h.path_ne rfl, fun h => h.path_ne rfl⟩

/-- `/a%3Fx=1` and `/a?x=1` have one key. -/
theorem cacheKey_collides :
    (∀ d ∈ Sample.site.domains, CDNService.validateDomain d = .ok ()) ∧
      Reaches .plain Sample.site (Sample.request "/a?x=1" "") ∧ Reaches .plain Sample.site (Sample.request "/a" "x=1") ∧
      requestKey .plain (Sample.request "/a?x=1" "") = requestKey .plain (Sample.request "/a" "x=1") ∧
      ¬ SameResource .plain (Sample.request "/a?x=1" "") (Sample.request "/a" "x=1") := by
  refine ⟨Sample.site_valid, Sample.request_reaches _ _, Sample.request_reaches _ _, by decide, fun h => ?_⟩
  exact absurd h.path (by decide)

end EdgeFabric.CdnServer
