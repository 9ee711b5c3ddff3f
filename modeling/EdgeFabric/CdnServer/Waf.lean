/-
The firewall of a site (`internal/cdnserver/waf.go`). `inspect` goes through the path, the values
of the query, the raw query and three header fields.

`WAF.Reads` is what it goes through. The query is read by the library, which drops a parameter
with a semicolon or a malformed escape, and of a field only the first line is read.
-/
import EdgeFabric.CdnServer.Proxy

namespace EdgeFabric.CdnServer
open Text (bytes)

structure WAFRule where
  id : String
  /-- `Pattern.MatchString` -/
  pattern : Bytes → Bool

structure WAFMatch where
  rule : WAFRule
  field : Bytes
  value : Bytes

def truncate (s : Bytes) (maxLen : Nat) : Bytes := if s.length ≤ maxLen then s else s.take maxLen ++ bytes "..."

def WAF.checkValue (rules : List WAFRule) (value field : Bytes) : Option WAFMatch :=
  (rules.find? (·.pattern value)).map fun rule => { rule, field, value := truncate value 200 }

/-! ## The query -/

def unhex (b : UInt8) : Option UInt8 :=
  if 48 ≤ b ∧ b ≤ 57 then some (b - 48)
  else if 97 ≤ b ∧ b ≤ 102 then some (b - 87)
  else if 65 ≤ b ∧ b ≤ 70 then some (b - 55)
  else none

def hexPair (a b : UInt8) : Option UInt8 := do return 16 * (← unhex a) + (← unhex b)

/-- `url.QueryUnescape`; a malformed escape is an error. -/
def queryUnescape : Bytes → Option Bytes
  | [] => some []
  | c :: rest =>
    if c = 37 then
      match rest with
      | a :: b :: rest => do return (← hexPair a b) :: (← queryUnescape rest)
      | _ => none
    else (queryUnescape rest).map ((if c = 43 then 32 else c) :: ·)

/-- The name of a parameter and its value, before they are decoded. -/
def cutParameter (p : Bytes) : Bytes × Bytes := (p.takeWhile (· ≠ 61), (p.dropWhile (· ≠ 61)).drop 1)

/-- One parameter of `url.ParseQuery`. -/
def addParameter (m : Header) (p : Bytes) : Header :=
  if p = [] ∨ 59 ∈ p then m
  else
    match queryUnescape (cutParameter p).1, queryUnescape (cutParameter p).2 with
    | some key, some value => m.add key value
    | _, _ => m

/-- `URL.Query`, which gives nothing for more parameters than the library takes. -/
def query (maxParams : Nat) (rawQuery : Bytes) : Header :=
  if (rawQuery.splitOn 38).length ≤ maxParams then (rawQuery.splitOn 38).foldl addParameter ∅ else ∅

/-! ## Inspection -/

def headersToCheck : List Bytes := [bytes "User-Agent", bytes "Referer", bytes "Cookie"]

/-- `WAF.Inspect`; the values of the query are visited in any order. -/
def WAF.inspect (maxParams : Nat) (o : RangeOrder) (rules : List WAFRule) (r : Request) : Option WAFMatch :=
  checkValue rules r.path (bytes "path")
  <|> ((o.order 0 (query maxParams r.rawQuery).rows).findSome? fun f =>
    f.2.findSome? fun v => checkValue rules v (bytes "query:" ++ f.1))
  <|> (if r.rawQuery ≠ [] then checkValue rules ((queryUnescape r.rawQuery).getD r.rawQuery) (bytes "query") else none)
  <|> headersToCheck.findSome? fun h =>
    if r.headers.get h ≠ [] then checkValue rules (r.headers.get h) (bytes "header:" ++ h) else none

def ProxyLib.withRules (maxParams : Nat) (o : Request → RangeOrder) (rules : List WAFRule)
    (lib : ProxyLib) : ProxyLib :=
  { lib with inspect := fun r => (WAF.inspect maxParams (o r) rules r).isSome }

/-! ## What is to be inspected -/

/-- A value with `+` and every well-formed escape decoded. -/
def decode : Bytes → Bytes
  | [] => []
  | c :: rest =>
    if c = 37 then
      match rest with
      | a :: b :: rest =>
        match hexPair a b with
        | some x => x :: decode rest
        | none => 37 :: decode (a :: b :: rest)
      | rest => 37 :: decode rest
    else (if c = 43 then 32 else c) :: decode rest

def parameters (rawQuery : Bytes) : List Bytes := (rawQuery.splitOn 38).filter (· ≠ [])

/-- A rule matches something that is to be inspected. -/
inductive WAF.Matches (r : Request) (rule : WAFRule) : Prop where
  | path (h : rule.pattern r.path = true)
  | header (name line : Bytes) (hname : name ∈ headersToCheck) (hline : line ∈ r.headers.values name)
      (h : rule.pattern line = true)
  | query (p : Bytes) (hp : p ∈ parameters r.rawQuery) (h : rule.pattern (decode (cutParameter p).2) = true)

/-- A parameter that the library gives to the inspection: one without a semicolon and malformed escapes. -/
structure Parsed (p key value : Bytes) : Prop where
  ne : p ≠ []
  semicolon : 59 ∉ p
  name : queryUnescape (cutParameter p).1 = some key
  value : queryUnescape (cutParameter p).2 = some value

/-- A rule matches something that the inspection reads: the path, the first line of a field if it
is not empty, the value of a parameter as the library has it, or the raw query, decoded if all
of it can be decoded. -/
inductive WAF.Reads (maxParams : Nat) (r : Request) (rule : WAFRule) : Prop where
  | path (h : rule.pattern r.path = true)
  | header (name line : Bytes) (hname : name ∈ headersToCheck) (hline : (r.headers.values name).head? = some line)
      (hne : line ≠ []) (h : rule.pattern line = true)
  | query (hlimit : (r.rawQuery.splitOn 38).length ≤ maxParams) (p key value : Bytes) (hp : p ∈ r.rawQuery.splitOn 38)
      (hparsed : Parsed p key value) (h : rule.pattern value = true)
  | rawQuery (hne : r.rawQuery ≠ []) (h : rule.pattern ((queryUnescape r.rawQuery).getD r.rawQuery) = true)

theorem mem_values_addParameter {m : Header} {key x : Bytes} (p : Bytes) :
    x ∈ (addParameter m p).values key ↔ x ∈ m.values key ∨ Parsed p key x := by
  unfold addParameter
  split
  · next hskip => exact ⟨.inl, fun h => h.resolve_right fun hp => hskip.elim hp.ne hp.semicolon⟩
  · next hskip =>
    obtain ⟨hne, hsemicolon⟩ := not_or.mp hskip
    split
    · next k v hk hv =>
      by_cases hkey : key = k
      · subst hkey
        rw [Header.values_add_self, List.mem_append, List.mem_singleton]
        refine or_congr_right ⟨fun h => ⟨hne, hsemicolon, hk, h ▸ hv⟩, fun h => ?_⟩
        exact Option.some.inj (h.value.symm.trans hv)
      · rw [Header.values_add_of_ne hkey]
        refine ⟨.inl, fun h => h.resolve_right fun hp => hkey ?_⟩
        exact Option.some.inj (hp.name.symm.trans hk)
    · next hnone => exact ⟨.inl, fun h => h.resolve_right fun hp => hnone _ _ hp.name hp.value⟩

theorem mem_values_foldl {key x : Bytes} (ps : List Bytes) {m : Header} :
    x ∈ (ps.foldl addParameter m).values key ↔ x ∈ m.values key ∨ ∃ p ∈ ps, Parsed p key x := by
  induction ps generalizing m with
  | nil => simp
  | cons p ps ih => rw [List.foldl_cons, ih, mem_values_addParameter, List.exists_mem_cons_iff, or_assoc]

theorem mem_query {maxParams : Nat} {rawQuery key value : Bytes} :
    value ∈ (query maxParams rawQuery).values key ↔
      (rawQuery.splitOn 38).length ≤ maxParams ∧ ∃ p ∈ rawQuery.splitOn 38, Parsed p key value := by
  unfold query
  split
  · next hlimit => simp [mem_values_foldl, hlimit]
  · next hlimit => simp [hlimit]

theorem Header.exists_line {m : Header} {P : Bytes → Prop} :
    (∃ f ∈ m, ∃ x ∈ f.2, P x) ↔ ∃ key, ∃ x ∈ m.values key, P x := by
  constructor
  · rintro ⟨f, hf, x, hx, hP⟩
    refine ⟨f.1, x, ?_, hP⟩
    rwa [Header.values, Table.find_eq_some.mpr ⟨hf, rfl⟩, Option.map_some, Option.getD_some]
  · rintro ⟨key, x, hx, hP⟩
    unfold Header.values at hx
    cases hfind : m.find key with
    | none => simp [hfind] at hx
    | some f =>
      rw [hfind] at hx
      exact ⟨f, (Table.find_eq_some.mp hfind).1, x, hx, hP⟩

theorem WAF.checkValue_isSome {rules : List WAFRule} {value field : Bytes} :
    (checkValue rules value field).isSome ↔ ∃ rule ∈ rules, rule.pattern value = true := by
  rw [checkValue, Option.isSome_map, List.find?_isSome]

/-- The inspection reports a match precisely if a rule matches something that it reads. -/
theorem WAF.inspect_isSome {maxParams : Nat} {o : RangeOrder} {rules : List WAFRule} {r : Request} :
    (inspect maxParams o rules r).isSome ↔ ∃ rule ∈ rules, WAF.Reads maxParams r rule := by
  have hquery : ((o.order 0 (query maxParams r.rawQuery).rows).findSome? fun f =>
      f.2.findSome? fun v => checkValue rules v (bytes "query:" ++ f.1)).isSome ↔
        ∃ key, ∃ value ∈ (query maxParams r.rawQuery).values key, ∃ rule ∈ rules, rule.pattern value = true := by
    rw [← Header.exists_line, List.findSome?_isSome_iff]
    simp only [RangeOrder.mem_order, List.findSome?_isSome_iff, checkValue_isSome, Table.mem_def]
  simp only [inspect, Option.orElse_eq_orElse, Option.orElse_eq_or, Option.isSome_or, Bool.or_eq_true]
  rw [hquery, checkValue_isSome, List.findSome?_isSome_iff]
  constructor
  · rintro (⟨rule, hrule, h⟩ | ⟨key, value, hvalue, rule, hrule, h⟩ | h | ⟨name, hname, h⟩)
    · exact ⟨rule, hrule, .path h⟩
    · obtain ⟨hlimit, p, hp, hparsed⟩ := mem_query.mp hvalue
      exact ⟨rule, hrule, .query hlimit p key value hp hparsed h⟩
    · split at h
      · next hne =>
        obtain ⟨rule, hrule, h⟩ := checkValue_isSome.mp h
        exact ⟨rule, hrule, .rawQuery hne h⟩
      · cases h
    · split at h
      · next hne =>
        obtain ⟨rule, hrule, h⟩ := checkValue_isSome.mp h
        refine ⟨rule, hrule, .header name _ hname ?_ hne h⟩
        rw [Header.get, List.headD_eq_head?_getD] at hne ⊢
        cases hhead : (r.headers.values name).head? with
        | none => simp [hhead] at hne
        | some line => rfl
      · cases h
  · rintro ⟨rule, hrule, h⟩
    cases h with
    | path h => exact .inl ⟨rule, hrule, h⟩
    | query hlimit p key value hp hparsed h =>
      exact .inr (.inl ⟨key, value, mem_query.mpr ⟨hlimit, p, hp, hparsed⟩, rule, hrule, h⟩)
    | rawQuery hne h =>
      rw [if_pos hne]
      exact .inr (.inr (.inl (checkValue_isSome.mpr ⟨rule, hrule, h⟩)))
    | header name line hname hline hne h =>
      refine .inr (.inr (.inr ⟨name, hname, ?_⟩))
      have hget : r.headers.get name = line := by rw [Header.get, List.headD_eq_head?_getD, hline, Option.getD_some]
      rw [hget, if_pos hne]
      exact checkValue_isSome.mpr ⟨rule, hrule, h⟩

theorem blocked_untouched {maxParams : Nat} {o : Request → RangeOrder} {rules : List WAFRule} {r : Request}
    (hmatch : (WAF.inspect maxParams (o r) rules r).isSome) (lib : ProxyLib) (x : Exchange) (now : ℚ) (s : SiteState)
    (hblock : s.runtime.waf = some .block) :
    ∃ outcome s', s.serve (lib.withRules maxParams o rules) r x now = some (outcome, s') ∧
      (outcome = .limited ∨ outcome = .blocked) ∧ s'.runtime.cache = s.runtime.cache ∧ s'.dir = s.dir := by
  have hkept : (s.allow now).2.runtime.waf = s.runtime.waf ∧ (s.allow now).2.runtime.cache = s.runtime.cache ∧
      (s.allow now).2.dir = s.dir := by
    unfold SiteState.allow
    split <;> exact ⟨rfl, rfl, rfl⟩
  have hblocks : (s.allow now).2.runtime.blocks (lib.withRules maxParams o rules) r = true := by
    simp [SiteRuntime.blocks, ProxyLib.withRules, hkept.1, hblock, hmatch]
  cases hallow : (s.allow now).1 with
  | false => exact ⟨.limited, _, by rw [SiteState.serve, hallow]; rfl, .inl rfl, hkept.2⟩
  | true =>
    refine ⟨.blocked, _, ?_, .inr rfl, hkept.2⟩
    rw [SiteState.serve, hallow, if_neg (by simp), if_pos hblocks]

/-- For every rule set and request: where a rule matches something that is to be inspected, the
inspection reports a match, and a site in block mode answers without its cache and an origin,
precisely if a rule matches something that the inspection reads. -/
theorem waf_reports_match (maxParams : Nat) (rules : List WAFRule) (r : Request) (o : Request → RangeOrder) :
    ((∃ rule ∈ rules, WAF.Matches r rule) → (WAF.inspect maxParams (o r) rules r).isSome ∧
      ∀ (lib : ProxyLib) (x : Exchange) (now : ℚ) (s : SiteState), s.runtime.waf = some .block →
        ∃ outcome s', s.serve (lib.withRules maxParams o rules) r x now = some (outcome, s') ∧
          (outcome = .limited ∨ outcome = .blocked) ∧ s'.runtime.cache = s.runtime.cache ∧ s'.dir = s.dir) ↔
      ((∃ rule ∈ rules, WAF.Matches r rule) → ∃ rule ∈ rules, WAF.Reads maxParams r rule) := by
  rw [← WAF.inspect_isSome (o := o r)]
  exact imp_congr_right fun _ => and_iff_left_of_imp blocked_untouched

def Sample.scriptRule : WAFRule := { id := "xss-script-tag", pattern := fun b => contains b (bytes "<script>") }

def Sample.inspected (rawQuery : String) (cookies : List String) : Request where
  method := methodGet
  host := bytes "www.example.org"
  path := bytes "/"
  rawQuery := bytes rawQuery
  headers := Table.put (bytes "Cookie", cookies.map bytes) ∅

theorem waf_reports_match_query :
    (WAF.inspect 10000 .asStored [Sample.scriptRule] (Sample.inspected "a=1&q=%3Cscript%3E" [])).isSome := by
  have hmatches : WAF.Matches (Sample.inspected "a=1&q=%3Cscript%3E" []) Sample.scriptRule :=
    .query (bytes "q=%3Cscript%3E") (by decide) (by decide)
  have hreads : WAF.Reads 10000 (Sample.inspected "a=1&q=%3Cscript%3E" []) Sample.scriptRule :=
    .query (by decide) (bytes "q=%3Cscript%3E") (bytes "q") (bytes "<script>") (by decide)
      ⟨by decide, by decide, by decide, by decide⟩ (by decide)
  exact ((waf_reports_match 10000 _ _ fun _ => .asStored).mpr (fun _ => ⟨_, List.mem_singleton_self _, hreads⟩)
    ⟨_, List.mem_singleton_self _, hmatches⟩).1

/-- The second line of a field, and a parameter with a malformed escape, are not read. -/
theorem lines_and_parameters_missed :
    (Sample.scriptRule.pattern (bytes "b=<script>") = true ∧
        bytes "b=<script>" ∈ (Sample.inspected "" ["a=1", "b=<script>"]).headers.values (bytes "Cookie") ∧
        (WAF.inspect 10000 .asStored [Sample.scriptRule] (Sample.inspected "" ["a=1", "b=<script>"])).isSome = false) ∧
      Sample.scriptRule.pattern (decode (bytes "%3Cscript%3E%zz")) = true ∧
        (WAF.inspect 10000 .asStored [Sample.scriptRule] (Sample.inspected "q=%3Cscript%3E%zz" [])).isSome = false :=
  ⟨⟨by decide, by decide, by decide⟩, by decide, by decide⟩

end EdgeFabric.CdnServer
