/-
The zone that `findZone` takes. `Reconcile` sorts the names of the zones in place, the longest
first, so that the first name that matches is the longest one that does; there is only one,
since matching names end the query name. Zones with the same name in lower case are in the list
once each and in the map once altogether, and the last of them is served (`longest_zone_chosen`).
-/
import EdgeFabric.DnsServer.Server
import EdgeFabric.Lib.InsertionSort

namespace EdgeFabric.DnsServer
open DNSService (ZoneWithRecords)

/-! ## The order of the names -/

/-- `sortByLengthDesc` as it is written, in the slice that it is given. -/
def sortSliceByLengthDesc {n : Nat} (s : Vector (List Char) n) : Vector (List Char) n := InsertionSort.sort byteLength s

/-- Names in the order of their lengths, the longest first. -/
def ByLength (names : List (List Char)) : Prop := names.Pairwise fun a b => byteLength b ≤ byteLength a

theorem insertByLength_eq (name : List Char) (ns : List (List Char)) :
    insertByLength name ns = InsertionSort.insert byteLength ns name := by
  induction ns with
  | nil => rfl
  | cons n ns ih =>
    rw [insertByLength, ih]
    rfl

theorem sortByLengthDesc_eq (names : List (List Char)) :
    sortByLengthDesc names = InsertionSort.insertAll byteLength names :=
  List.foldl_ext _ _ _ fun ns n _ => insertByLength_eq n ns

theorem toList_sortSlice {n : Nat} (s : Vector (List Char) n) :
    (sortSliceByLengthDesc s).toList = sortByLengthDesc s.toList := by
  rw [sortSliceByLengthDesc, InsertionSort.toList_sort, sortByLengthDesc_eq]

theorem sortByLengthDesc_spec (names : List (List Char)) :
    ByLength (sortByLengthDesc names) ∧ (sortByLengthDesc names).Perm names :=
  sortByLengthDesc_eq names ▸ InsertionSort.insertAll_spec byteLength names

/-! ## The longest match -/

/-- The name matches, and no longer one does. -/
structure LongestMatch (qname : List Char) (names : List (List Char)) (name : List Char) : Prop where
  mem : name ∈ names
  covers : Server.matchesZone qname name
  longest : ∀ n ∈ names, Server.matchesZone qname n → byteLength n ≤ byteLength name

section
variable {qname name : List Char} {names : List (List Char)}

theorem byteLength_append (a b : List Char) : byteLength (a ++ b) = byteLength a + byteLength b := by
  simp [byteLength]

theorem eq_nil_of_byteLength {a : List Char} (h : byteLength a = 0) : a = [] := by
  cases a with
  | nil => rfl
  | cons c cs =>
    have hpos := c.utf8Size_pos
    simp only [byteLength, List.map_cons, List.sum_cons] at h
    omega

theorem eq_of_suffix_of_byteLength {a b : List Char} (h : a <:+ b) (hle : byteLength b ≤ byteLength a) : a = b := by
  obtain ⟨w, rfl⟩ := h
  rw [byteLength_append] at hle
  have hnil : w = [] := eq_nil_of_byteLength (by omega)
  rw [hnil, List.nil_append]

theorem suffix_of_matchesZone (h : Server.matchesZone qname name) : name <:+ qname := by
  rcases h with rfl | h
  · exact List.suffix_refl _
  · exact (List.suffix_cons '.' name).trans h

theorem LongestMatch.unique {name' : List Char} (h : LongestMatch qname names name)
    (h' : LongestMatch qname names name') : name = name' := by
  have hle := h.longest name' h'.mem h'.covers
  have hle' := h'.longest name h.mem h.covers
  rcases List.suffix_or_suffix_of_suffix (suffix_of_matchesZone h.covers) (suffix_of_matchesZone h'.covers) with hs | hs
  · exact eq_of_suffix_of_byteLength hs hle
  · exact (eq_of_suffix_of_byteLength hs hle').symm

theorem find?_sorted_eq_none :
    ((sortByLengthDesc names).find? fun n => Server.matchesZone qname n) = none ↔
      ∀ n ∈ names, ¬ Server.matchesZone qname n := by
  simp [List.find?_eq_none, (sortByLengthDesc_spec names).2.mem_iff]

theorem find?_sorted_iff :
    ((sortByLengthDesc names).find? fun n => Server.matchesZone qname n) = some name ↔
      LongestMatch qname names name := by
  obtain ⟨hsorted, hperm⟩ := sortByLengthDesc_spec names
  have hlongest : ∀ n, ((sortByLengthDesc names).find? fun n => Server.matchesZone qname n) = some n →
      LongestMatch qname names n := by
    intro n hfind
    have hmatch := List.find?_some hfind
    refine ⟨hperm.mem_iff.mp (List.mem_of_find?_eq_some hfind), of_decide_eq_true hmatch, fun m hm hcovers => ?_⟩
    exact InsertionSort.Desc.le_of_find? hsorted hfind (hperm.mem_iff.mpr hm) (decide_eq_true hcovers)
  refine ⟨hlongest name, fun h => ?_⟩
  cases hfind : (sortByLengthDesc names).find? fun n => Server.matchesZone qname n with
  | none => exact absurd h.covers (find?_sorted_eq_none.mp hfind name h.mem)
  | some n => rw [h.unique (hlongest n hfind)]

end

/-! ## Zones of a configuration -/

def servedName (v : Letters) (zwr : ZoneWithRecords) : List Char := v.toLower zwr.zone.name.toList

section
variable {v : Letters}

theorem zoneNamed_isSome {config : List ZoneWithRecords} {zwr : ZoneWithRecords} (h : zwr ∈ config) :
    (zoneNamed v config (servedName v zwr)).isSome := by
  rw [zoneNamed, List.find?_isSome]
  exact ⟨zwr, List.mem_reverse.mpr h, decide_eq_true rfl⟩

theorem reconcile_ok {s s' : Server} {config : Option (List ZoneWithRecords)}
    (h : (reconcile v config).exec () s = (.ok (), s')) : s' = s.reconcile v config := by
  change (if s.running then (.ok (), s.reconcile v config) else (.error "dns server not running", s)) =
    (Except.ok (), s') at h
  split at h
  · exact (Prod.mk.inj h).2.symm
  · cases h

theorem zones_reconcile (s : Server) (config : Option (List ZoneWithRecords)) {name : List Char}
    (hname : name ∈ (config.getD []).map (servedName v)) :
    ∃ addr zwr, (s.reconcile v config).zones.find name = some (name, addr) ∧
      (s.reconcile v config).heap[addr]? = some (buildZoneData v zwr) ∧
        zoneNamed v (config.getD []) name = some zwr := by
  obtain ⟨z, hz, rfl⟩ := List.mem_map.mp hname
  obtain ⟨zwr, hzwr⟩ := Option.isSome_iff_exists.mp (zoneNamed_isSome (v := v) hz)
  have hzones := (buildZones_built v (config.getD []) s.heap).zones (servedName v z)
  rw [hzwr] at hzones
  obtain ⟨row, hrow, hheap⟩ := Option.bind_eq_some_iff.mp hzones
  obtain ⟨-, hkey⟩ := Table.find_eq_some.mp hrow
  exact ⟨row.2, zwr, hrow.trans (congrArg some (Prod.ext hkey rfl)), hheap, hzwr⟩

end

/-- The sort leaves a permutation in the order of the lengths, whatever the names. After `Reconcile` the
names of the zones are sorted so, and `findZone` gives the zone that is stored under the longest name that
matches, which is the last one configured with it, and none precisely if no name matches. -/
theorem longest_zone_chosen (v : Letters) :
    (∀ (n : Nat) (names : Vector (List Char) n), (sortSliceByLengthDesc names).toList.Perm names.toList ∧
      ByLength (sortSliceByLengthDesc names).toList) ∧
    ∀ (s s' : Server) (config : Option (List ZoneWithRecords)), (reconcile v config).exec () s = (.ok (), s') →
      s'.sortedZones = (sortSliceByLengthDesc ((config.getD []).map (servedName v)).toArray.toVector).toList ∧
      ∀ qname,
        (∀ name, LongestMatch qname ((config.getD []).map (servedName v)) name →
          ∃ addr zwr, s'.findZone qname = some addr ∧ s'.zones.find name = some (name, addr) ∧
            s'.heap[addr]? = some (buildZoneData v zwr) ∧ zoneNamed v (config.getD []) name = some zwr) ∧
        (s'.findZone qname = none ↔ ∀ name ∈ (config.getD []).map (servedName v), ¬ Server.matchesZone qname name) := by
  refine ⟨fun n names => ?_, fun s s' config hrun => ?_⟩
  · rw [toList_sortSlice]
    exact (sortByLengthDesc_spec names.toList).symm
  · obtain rfl := reconcile_ok hrun
    have hnames : (s.reconcile v config).sortedZones = sortByLengthDesc ((config.getD []).map (servedName v)) :=
      congrArg sortByLengthDesc (buildZones_built v (config.getD []) s.heap).names
    refine ⟨by rw [hnames, toList_sortSlice]; rfl, fun qname => ⟨fun name hname => ?_, ?_⟩⟩
    · obtain ⟨addr, zwr, hfind, hzone⟩ := zones_reconcile s config hname.mem
      refine ⟨addr, zwr, ?_, hfind, hzone⟩
      rw [Server.findZone, hnames, find?_sorted_iff.mpr hname, Option.bind_some, hfind]
      rfl
    · rw [← find?_sorted_eq_none, Server.findZone, hnames]
      refine ⟨fun h => Option.eq_none_iff_forall_ne_some.mpr fun name hfirst => ?_, fun h => by rw [h]; rfl⟩
      obtain ⟨addr, zwr, hfind, -⟩ := zones_reconcile s config (find?_sorted_iff.mp hfirst).mem
      rw [hfirst, Option.bind_some, hfind] at h
      cases h

def Sample.sameName : List ZoneWithRecords := [zone "b." [], zone "A.b." [], zone "a.B." []]

/-- The second of the two is found. -/
theorem longest_zone_chosen_same_name :
    LongestMatch "x.a.b.".toList (Sample.sameName.map (servedName Sample.letters)) "a.b.".toList ∧
    ∃ s' addr, (reconcile Sample.letters (some Sample.sameName)).exec () .started = (.ok (), s') ∧
      s'.findZone "x.a.b.".toList = some addr ∧
      s'.heap[addr]? = some (buildZoneData Sample.letters (Sample.zone "a.B." [])) := by
  have hmatch : LongestMatch "x.a.b.".toList (Sample.sameName.map (servedName Sample.letters)) "a.b.".toList :=
    ⟨by decide, by decide, by decide⟩
  obtain ⟨-, hall⟩ := longest_zone_chosen Sample.letters
  obtain ⟨addr, zwr, hfind, -, hzone, hnamed⟩ := ((hall .started _ (some Sample.sameName) rfl).2 _).1 _ hmatch
  obtain rfl : Sample.zone "a.B." [] = zwr := Option.some.inj hnamed
  exact ⟨hmatch, _, addr, rfl, hfind, hzone⟩

end EdgeFabric.DnsServer
