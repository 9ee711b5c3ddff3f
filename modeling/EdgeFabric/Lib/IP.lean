/-
IP addresses and their text form, as a textbook network library has them: a
dotted quad, or eight colon-separated groups of hex digits in which one run of
zero groups may be left out. Addresses are kept in the sixteen-byte form, an
IPv4 address as `::ffff:a.b.c.d`. `parse_text`: every address is read back from
the text it is written as.
-/
import EdgeFabric.Lib.Digits
import EdgeFabric.Lib.Text
import Mathlib.Data.BitVec

namespace IP

/-- An address in the sixteen-byte form. -/
abbrev Addr := BitVec 128

variable {ip : Addr} {n : Nat} {c : Char}

def of4 (a : BitVec 32) : Addr := BitVec.ofNat 128 (0xffff * 2 ^ 32 + a.toNat)

/-- The IPv4 address that the sixteen-byte form stands for, if it does. -/
def to4 (ip : Addr) : Option (BitVec 32) :=
  if ip.toNat / 2 ^ 32 = 0xffff then some (BitVec.ofNat 32 ip.toNat) else none

theorem of4_toNat (a : BitVec 32) : (of4 a).toNat = 0xffff * 2 ^ 32 + a.toNat := by
  have := a.isLt
  simp only [of4, BitVec.toNat_ofNat]
  omega

@[simp] theorem to4_of4 (a : BitVec 32) : to4 (of4 a) = some a := by
  have := a.isLt
  have hd : (of4 a).toNat / 2 ^ 32 = 0xffff := by rw [of4_toNat]; omega
  rw [to4, if_pos hd, of4_toNat]
  congr 1
  apply BitVec.eq_of_toNat_eq
  simp only [BitVec.toNat_ofNat]
  omega

theorem of4_of_to4 {a : BitVec 32} (h : to4 ip = some a) : of4 a = ip := by
  unfold to4 at h
  split at h
  · next hd =>
    cases h
    apply BitVec.eq_of_toNat_eq
    rw [of4_toNat, BitVec.toNat_ofNat]
    omega
  · cases h

/-! ## Dotted quads -/

def octets (a : BitVec 32) : List Nat :=
  [a.toNat / 2 ^ 24, a.toNat / 2 ^ 16 % 256, a.toNat / 2 ^ 8 % 256, a.toNat % 256]

def text4 (a : BitVec 32) : List Char := ['.'].intercalate ((octets a).map (Nat.toDigits 10))

/-- One field: decimal, at most 255, without a leading zero. -/
def parseOctet (cs : List Char) : Option Nat :=
  if 1 < cs.length ∧ cs.head? = some '0' then none
  else
    match Digits.parse 10 cs with
    | some n => if n ≤ 255 then some n else none
    | none => none

def parse4 (cs : List Char) : Option (BitVec 32) :=
  match (cs.splitOn '.').mapM parseOctet with
  | some [a, b, c, d] => some (BitVec.ofNat 32 (((a * 256 + b) * 256 + c) * 256 + d))
  | _ => none

theorem parseOctet_toDigits (h : n ≤ 255) : parseOctet (Nat.toDigits 10 n) = some n := by
  have hz : ¬ (1 < (Nat.toDigits 10 n).length ∧ (Nat.toDigits 10 n).head? = some '0') := by
    rintro ⟨hl, hh⟩
    rcases Nat.eq_zero_or_pos n with rfl | hn
    · simp [Nat.toDigits_of_lt_base] at hl
    · exact Digits.head_toDigits_ne_zero (by decide) (by decide) hn hh
  rw [parseOctet, if_neg hz, Digits.parse_toDigits (by decide) (by decide)]
  simp [h]

theorem dot_not_mem_toDigits (n : Nat) : '.' ∉ Nat.toDigits 10 n :=
  Digits.not_mem_toDigits (by decide) (by decide) rfl

theorem parse4_text4 (a : BitVec 32) : parse4 (text4 a) = some a := by
  have ha := a.isLt
  have hsplit : (text4 a).splitOn '.' = (octets a).map (Nat.toDigits 10) := by
    apply List.splitOn_intercalate
    · intro l hl
      obtain ⟨n, _, rfl⟩ := List.mem_map.mp hl
      exact dot_not_mem_toDigits n
    · simp [octets]
  have hall : ((octets a).map (Nat.toDigits 10)).mapM parseOctet = some (octets a) := by
    simp only [octets, List.map_cons, List.map_nil, List.mapM_cons, List.mapM_nil]
    rw [parseOctet_toDigits (by omega), parseOctet_toDigits (by omega), parseOctet_toDigits (by omega),
      parseOctet_toDigits (by omega)]
    rfl
  rw [parse4, hsplit, hall]
  simp only [octets, Option.some.injEq]
  apply BitVec.eq_of_toNat_eq
  simp only [BitVec.toNat_ofNat]
  omega

/-! ## Colon-separated groups -/

def groups (ip : Addr) : List Nat :=
  [ip.toNat / 2 ^ 112, ip.toNat / 2 ^ 96 % 65536, ip.toNat / 2 ^ 80 % 65536, ip.toNat / 2 ^ 64 % 65536,
    ip.toNat / 2 ^ 48 % 65536, ip.toNat / 2 ^ 32 % 65536, ip.toNat / 2 ^ 16 % 65536, ip.toNat % 65536]

def ofGroups (gs : List Nat) : Addr := BitVec.ofNat 128 (gs.foldl (fun n g => n * 65536 + g) 0)

theorem ofGroups_groups (ip : Addr) : ofGroups (groups ip) = ip := by
  have := ip.isLt
  apply BitVec.eq_of_toNat_eq
  simp only [ofGroups, groups, List.foldl_cons, List.foldl_nil, BitVec.toNat_ofNat]
  omega

theorem length_groups (ip : Addr) : (groups ip).length = 8 := rfl

theorem lt_of_mem_groups {g : Nat} (h : g ∈ groups ip) : g < 65536 := by
  have := ip.isLt
  simp only [groups, List.mem_cons, List.not_mem_nil, or_false] at h
  omega

/-- How many zero groups follow one another from position `i` on. -/
def zerosAt (gs : List Nat) (i : Nat) : Nat := ((gs.drop i).takeWhile (· = 0)).length

/-- Start and length of the first longest run of at least two zero groups; length
zero if there is none. -/
def longestZeros (gs : List Nat) : Nat × Nat :=
  (List.range gs.length).foldl
    (fun best i => if 2 ≤ zerosAt gs i ∧ best.2 < zerosAt gs i then (i, zerosAt gs i) else best) (0, 0)

/-- Groups in hex, separated by colons. -/
def joinGroups (gs : List Nat) : List Char := [':'].intercalate (gs.map (Nat.toDigits 16))

def text6 (ip : Addr) : List Char :=
  let gs := groups ip
  let (i, l) := longestZeros gs
  if l = 0 then joinGroups gs
  else joinGroups (gs.take i) ++ ':' :: ':' :: joinGroups (gs.drop (i + l))

/-- One group: one to four hex digits. -/
def parseGroup (cs : List Char) : Option Nat :=
  if cs.length ≤ 4 then Digits.parse 16 cs else none

/-- The fields of one side of an address; the last one may be a dotted quad if
`tail4` allows it. -/
def parseFields (tail4 : Bool) : List (List Char) → Option (List Nat)
  | [] => some []
  | [f] =>
    if tail4 && f.contains '.' then (parse4 f).map fun a => [a.toNat / 65536, a.toNat % 65536]
    else (parseGroup f).map fun g => [g]
  | f :: fs => do
    let g ← parseGroup f
    let gs ← parseFields tail4 fs
    return g :: gs

/-- The groups of one side; the empty side has none. -/
def parseSide (tail4 : Bool) (cs : List Char) : Option (List Nat) :=
  if cs = [] then some [] else parseFields tail4 (cs.splitOn ':')

/-- What stands before and after the first double colon. -/
def splitDouble : List Char → Option (List Char × List Char)
  | ':' :: ':' :: cs => some ([], cs)
  | c :: cs => (splitDouble cs).map fun (l, r) => (c :: l, r)
  | [] => none

def parse6 (cs : List Char) : Option Addr :=
  match splitDouble cs with
  | none => do
    let gs ← parseSide true cs
    if gs.length = 8 then some (ofGroups gs) else none
  | some (l, r) => do
    let ls ← parseSide false l
    let rs ← parseSide true r
    if ls.length + rs.length ≤ 7 then
      some (ofGroups (ls ++ List.replicate (8 - ls.length - rs.length) 0 ++ rs))
    else none

/-- The characters that tell the notations apart. -/
def isPunct (c : Char) : Bool := c == '.' || c == ':' || c == '%'

def parse (cs : List Char) : Option Addr :=
  match cs.find? isPunct with
  | some '.' => (parse4 cs).map of4
  | some ':' => parse6 cs
  | _ => none

def text (ip : Addr) : List Char :=
  match to4 ip with
  | some a => text4 a
  | none => text6 ip

/-! ## Reading back what was written -/

theorem colon_not_mem_toDigits (n : Nat) : ':' ∉ Nat.toDigits 16 n :=
  Digits.not_mem_toDigits (by decide) (by decide) rfl

theorem parseGroup_toDigits {g : Nat} (h : g < 65536) : parseGroup (Nat.toDigits 16 g) = some g := by
  have hl : (Nat.toDigits 16 g).length ≤ 4 := (Nat.length_toDigits_le_iff (by decide) (by decide)).mpr h
  rw [parseGroup, if_pos hl, Digits.parse_toDigits (by decide) (by decide)]

theorem parseFields_toDigits (tail4 : Bool) :
    ∀ gs : List Nat, (∀ g ∈ gs, g < 65536) → parseFields tail4 (gs.map (Nat.toDigits 16)) = some gs
  | [], _ => rfl
  | [g], h => by
    have hdot : '.' ∉ Nat.toDigits 16 g := Digits.not_mem_toDigits (by decide) (by decide) rfl
    simp [parseFields, parseGroup_toDigits (h g (by simp)), hdot]
  | g :: g' :: gs, h => by
    have ih := parseFields_toDigits tail4 (g' :: gs) fun x hx => h x (List.mem_cons_of_mem _ hx)
    simp only [List.map_cons] at ih ⊢
    simp [parseFields, parseGroup_toDigits (h g (by simp)), ih]

theorem joinGroups_eq_nil {gs : List Nat} : joinGroups gs = [] ↔ gs = [] := by
  constructor
  · intro h
    rcases gs with _ | ⟨g, _ | ⟨g', gs⟩⟩
    · rfl
    · simp [joinGroups, List.intercalate] at h
    · simp [joinGroups, List.intercalate] at h
  · rintro rfl; rfl

theorem parseSide_joinGroups (tail4 : Bool) (gs : List Nat) (h : ∀ g ∈ gs, g < 65536) :
    parseSide tail4 (joinGroups gs) = some gs := by
  unfold parseSide
  split
  · next hnil => rw [joinGroups_eq_nil.mp hnil]
  · next hnil =>
    have hsplit : (joinGroups gs).splitOn ':' = gs.map (Nat.toDigits 16) := by
      apply List.splitOn_intercalate
      · intro l hl
        obtain ⟨n, _, rfl⟩ := List.mem_map.mp hl
        exact colon_not_mem_toDigits n
      · simpa [joinGroups_eq_nil] using hnil
    rw [hsplit, parseFields_toDigits tail4 gs h]

theorem splitDouble_cons {cs : List Char} (h : c = ':' → cs.head? ≠ some ':') :
    splitDouble (c :: cs) = (splitDouble cs).map fun (l, r) => (c :: l, r) := by
  rw [splitDouble]
  rintro cs' rfl rfl
  exact h rfl rfl

theorem splitDouble_append {xs : List Char} (r : List Char) (h : splitDouble xs = none)
    (hlast : xs.getLast? ≠ some ':') : splitDouble (xs ++ ':' :: ':' :: r) = some (xs, r) := by
  induction xs with
  | nil => rfl
  | cons c xs ih =>
    have hhead : c = ':' → xs.head? ≠ some ':' := by
      rintro rfl hh
      obtain ⟨ys, rfl⟩ : ∃ ys, xs = ':' :: ys := by
        cases xs with
        | nil => simp at hh
        | cons y ys => exact ⟨ys, by simpa using hh⟩
      simp [splitDouble] at h
    have hne : c = ':' → xs ≠ [] := by
      rintro rfl rfl
      simp at hlast
    rw [splitDouble_cons hhead, Option.map_eq_none_iff] at h
    rw [List.cons_append, splitDouble_cons, ih h]
    · rfl
    · intro hl
      cases xs with
      | nil => simp at hl
      | cons x xs => exact hlast (by simpa using hl)
    · intro hc
      cases xs with
      | nil => exact absurd rfl (hne hc)
      | cons x xs => simpa using hhead hc

theorem splitDouble_of_not_mem {xs : List Char} (h : ':' ∉ xs) : splitDouble xs = none := by
  induction xs with
  | nil => rfl
  | cons c xs ih =>
    rw [splitDouble_cons (by rintro rfl; simp at h), ih (fun hx => h (List.mem_cons_of_mem _ hx))]
    rfl

theorem splitDouble_field {f rest : List Char} (hf : ':' ∉ f) (hhead : rest.head? ≠ some ':')
    (h : splitDouble rest = none) : splitDouble (f ++ ':' :: rest) = none := by
  induction f with
  | nil => rw [List.nil_append, splitDouble_cons (fun _ => hhead), h]; rfl
  | cons c f ih =>
    have hc : c ≠ ':' := by rintro rfl; simp at hf
    rw [List.cons_append, splitDouble_cons (fun hc' => absurd hc' hc), ih (fun hx => hf (List.mem_cons_of_mem _ hx))]
    rfl

theorem splitDouble_joinGroups :
    ∀ gs : List Nat, splitDouble (joinGroups gs) = none ∧ (joinGroups gs).getLast? ≠ some ':'
  | [] => ⟨rfl, by simp [joinGroups, List.intercalate]⟩
  | [g] => by
    have hj : joinGroups [g] = Nat.toDigits 16 g := by simp [joinGroups, List.intercalate]
    rw [hj]
    refine ⟨splitDouble_of_not_mem (colon_not_mem_toDigits g), fun h => ?_⟩
    exact colon_not_mem_toDigits g (List.mem_of_getLast? h)
  | g :: g' :: gs => by
    obtain ⟨ih, ihLast⟩ := splitDouble_joinGroups (g' :: gs)
    have hj : joinGroups (g :: g' :: gs) = Nat.toDigits 16 g ++ ':' :: joinGroups (g' :: gs) := by
      simp [joinGroups, List.intercalate]
    have hne : joinGroups (g' :: gs) ≠ [] := by simp [joinGroups_eq_nil]
    have hhead : (joinGroups (g' :: gs)).head? ≠ some ':' := by
      obtain ⟨c, cs, hcs⟩ := List.exists_cons_of_ne_nil (Nat.toDigits_ne_nil (n := g') (b := 16))
      have hc : ':' ∉ c :: cs := hcs ▸ colon_not_mem_toDigits g'
      cases gs <;> simp [joinGroups, List.intercalate, hcs] <;> rintro rfl <;> simp at hc
    rw [hj]
    refine ⟨splitDouble_field (colon_not_mem_toDigits g) hhead ih, ?_⟩
    obtain ⟨c, cs, hcs⟩ := List.exists_cons_of_ne_nil hne
    rw [hcs] at ihLast ⊢
    simpa using ihLast

/-- A run of at least two zero groups, or no run. -/
def IsRun (gs : List Nat) (r : Nat × Nat) : Prop := r.2 = 0 ∨ 2 ≤ r.2 ∧ zerosAt gs r.1 = r.2

theorem isRun_longestZeros (gs : List Nat) : IsRun gs (longestZeros gs) := by
  refine List.foldlRecOn (motive := IsRun gs) _ _ (.inl rfl) fun best hbest i _ => ?_
  split
  · next h => exact .inr ⟨h.1, rfl⟩
  · exact hbest

theorem drop_zerosAt (gs : List Nat) (i : Nat) :
    gs.drop i = List.replicate (zerosAt gs i) 0 ++ gs.drop (i + zerosAt gs i) := by
  have hrep : (gs.drop i).takeWhile (· = 0) = List.replicate (zerosAt gs i) 0 := by
    refine List.eq_replicate_iff.mpr ⟨rfl, fun b hb => ?_⟩
    simpa using List.all_eq_true.mp List.all_takeWhile b hb
  have hdrop : gs.drop (i + zerosAt gs i) = (gs.drop i).dropWhile (· = 0) := by
    have hsplit := List.takeWhile_append_dropWhile (p := fun x => decide (x = 0)) (l := gs.drop i)
    have := @List.drop_left _ ((gs.drop i).takeWhile (· = 0)) ((gs.drop i).dropWhile (· = 0))
    rw [hsplit, List.drop_drop] at this
    exact this
  rw [hdrop, ← hrep, List.takeWhile_append_dropWhile]

theorem parse6_text6 (ip : Addr) : parse6 (text6 ip) = some ip := by
  have hlen := length_groups ip
  have hlt : ∀ g ∈ groups ip, g < 65536 := fun g hg => lt_of_mem_groups hg
  unfold text6
  simp only
  split
  · -- no run to leave out: eight groups
    obtain ⟨hnone, _⟩ := splitDouble_joinGroups (groups ip)
    simp [parse6, hnone, parseSide_joinGroups true _ hlt, hlen, ofGroups_groups]
  · next hl =>
    -- the groups before the run, the run, the groups after it
    obtain ⟨hl2, hz⟩ := (isRun_longestZeros (groups ip)).resolve_left hl
    generalize longestZeros (groups ip) = r at hl hl2 hz ⊢
    have hdrop := drop_zerosAt (groups ip) r.1
    rw [hz] at hdrop
    have hle : r.1 + r.2 ≤ 8 := by
      have := congrArg List.length hdrop
      simp [hlen] at this
      omega
    obtain ⟨hnone, hlast⟩ := splitDouble_joinGroups ((groups ip).take r.1)
    have hls := parseSide_joinGroups false ((groups ip).take r.1) fun g hg => hlt g (List.mem_of_mem_take hg)
    have hrs := parseSide_joinGroups true ((groups ip).drop (r.1 + r.2)) fun g hg => hlt g (List.mem_of_mem_drop hg)
    have hfill : 8 - min r.1 8 - (8 - (r.1 + r.2)) = r.2 := by omega
    have hsum : min r.1 8 + (8 - (r.1 + r.2)) ≤ 7 := by omega
    have hall : (groups ip).take r.1 ++ (List.replicate r.2 0 ++ (groups ip).drop (r.1 + r.2)) = groups ip := by
      rw [← hdrop, List.take_append_drop]
    simp [parse6, splitDouble_append _ hnone hlast, hls, hrs, hlen, hfill, hsum, hall, ofGroups_groups]

theorem find_punct {p : Char → Bool} {cs : List Char} (hp : p c = true) (hc : c ∈ cs)
    (h : ∀ d ∈ cs, p d = true → d = c) : cs.find? p = some c := by
  cases hf : cs.find? p with
  | none => exact absurd hp (List.find?_eq_none.mp hf c hc)
  | some d => rw [h d (List.mem_of_find?_eq_some hf) (List.find?_some hf)]

theorem mem_fields {sep : Char} {b : Nat} {ns : List Nat} (h : c ∈ [sep].intercalate (ns.map (Nat.toDigits b)))
    (hb : 1 < b := by decide) (hb' : b ≤ 16 := by decide) : c = sep ∨ (Digits.value c).isSome := by
  rcases Text.mem_intercalate h with h | ⟨f, hf, hc⟩
  · exact .inl h
  · obtain ⟨n, _, rfl⟩ := List.mem_map.mp hf
    exact .inr (Digits.value_of_mem_toDigits hb hb' hc)

theorem mem_text6 (h : c ∈ text6 ip) : c = ':' ∨ (Digits.value c).isSome := by
  unfold text6 at h
  simp only at h
  split at h
  · exact mem_fields h
  · simp only [List.mem_append, List.mem_cons] at h
    rcases h with h | h | h | h
    · exact mem_fields h
    · exact .inl h
    · exact .inl h
    · exact mem_fields h

theorem dot_mem_text4 (a : BitVec 32) : '.' ∈ text4 a := by
  simp [text4, octets, List.intercalate]

theorem colon_mem_text6 (ip : Addr) : ':' ∈ text6 ip := by
  unfold text6
  simp only
  split
  · simp [groups, joinGroups, List.intercalate]
  · simp

theorem ofList_text4_ne_empty (a : BitVec 32) : String.ofList (text4 a) ≠ "" := Text.ofList_ne_empty (dot_mem_text4 a)

theorem ofList_text_ne_empty (ip : Addr) : String.ofList (text ip) ≠ "" := by
  unfold text
  split
  · exact ofList_text4_ne_empty _
  · exact Text.ofList_ne_empty (colon_mem_text6 ip)

theorem value_punct (h : isPunct c = true) : Digits.value c = none := by
  simp only [isPunct, Bool.or_eq_true, beq_iff_eq] at h
  rcases h with (rfl | rfl) | rfl <;> rfl

theorem find_text4 (a : BitVec 32) : (text4 a).find? isPunct = some '.' := by
  refine find_punct (by decide) (dot_mem_text4 a) fun d hd hp => ?_
  rcases mem_fields hd with h | h
  · exact h
  · simp [value_punct hp] at h

theorem find_text6 (ip : Addr) : (text6 ip).find? isPunct = some ':' := by
  refine find_punct (by decide) (colon_mem_text6 ip) fun d hd hp => ?_
  rcases mem_text6 hd with h | h
  · exact h
  · simp [value_punct hp] at h

theorem parse_text4 (a : BitVec 32) : parse (text4 a) = some (of4 a) := by
  simp [parse, find_text4, parse4_text4]

theorem parse_text6 (ip : Addr) : parse (text6 ip) = some ip := by
  simp [parse, find_text6, parse6_text6]

theorem parse_text (ip : Addr) : parse (text ip) = some ip := by
  unfold text
  split
  · next a ha => rw [parse_text4, of4_of_to4 ha]
  · exact parse_text6 ip

theorem text_injective {a b : Addr} (h : text a = text b) : a = b := by
  have ha := parse_text a
  rw [h, parse_text b] at ha
  exact (Option.some.inj ha).symm

theorem text4_injective {x y : BitVec 32} (h : text4 x = text4 y) : x = y := by
  have hx := parse4_text4 x
  rw [h, parse4_text4 y] at hx
  exact (Option.some.inj hx).symm

theorem to4_eq_some_iff {x : BitVec 32} : to4 ip = some x ↔ ip = of4 x := by
  constructor
  · exact fun h => (of4_of_to4 h).symm
  · rintro rfl
    exact to4_of4 x

theorem parse_nil : parse [] = none := rfl

/-! ## Networks -/

/-- A network: its masked address, in the form of its own family, and the length
of its mask. -/
inductive Net where
  | v4 (addr : BitVec 32) (ones : Nat)
  | v6 (addr : Addr) (ones : Nat)
  deriving DecidableEq, Repr

/-- The first `ones` of `w` bits of `n`, the others cleared. -/
def maskBits (w ones n : Nat) : Nat := n / 2 ^ (w - ones) * 2 ^ (w - ones)

/-- The decimal mask length after the slash, at most `max`. -/
def parseMask (max : Nat) (cs : List Char) : Option Nat :=
  match Digits.parse 10 cs with
  | some n => if n ≤ max then some n else none
  | none => none

/-- An address with a mask length: the address itself, and its network. -/
def parseCIDR (cs : List Char) : Option (Addr × Net) :=
  match cs.splitOn '/' with
  | [addr, mask] => do
    let ip ← parse addr
    match addr.find? isPunct, to4 ip with
    | some '.', some a =>
      let ones ← parseMask 32 mask
      return (ip, .v4 (BitVec.ofNat 32 (maskBits 32 ones a.toNat)) ones)
    | _, _ =>
      let ones ← parseMask 128 mask
      return (ip, .v6 (BitVec.ofNat 128 (maskBits 128 ones ip.toNat)) ones)
  | _ => none

/-- Whether an address lies in a network of its own family. A network in the sixteen-byte form whose
address stands for an IPv4 address is one of IPv4; its mask is the last 32 bits of what it has. -/
def Net.contains : Net → Addr → Bool
  | .v4 addr ones, ip => (to4 ip).any fun a => maskBits 32 ones a.toNat = addr.toNat
  | .v6 addr ones, ip =>
    match to4 addr with
    | some addr4 => (to4 ip).any fun a => maskBits 32 (ones - 96) a.toNat = maskBits 32 (ones - 96) addr4.toNat
    | none => (to4 ip).isNone && maskBits 128 ones ip.toNat = addr.toNat

/-! ## Networks that are read are masked -/

/-- What is known of a network address: its host bits are zero. -/
structure Masked (w ones n : Nat) : Prop where
  le : ones ≤ w
  dvd : 2 ^ (w - ones) ∣ n
  lt : n < 2 ^ w

section
variable {w ones n : Nat}

theorem Masked.pos (_ : Masked w ones n) : 0 < 2 ^ (w - ones) := Nat.two_pow_pos _

theorem Masked.add_le (h : Masked w ones n) : n + 2 ^ (w - ones) ≤ 2 ^ w := by
  obtain ⟨c, rfl⟩ := h.dvd
  have hsplit : 2 ^ w = 2 ^ (w - ones) * 2 ^ ones := by
    rw [← pow_add, Nat.sub_add_cancel h.le]
  have hlt : 2 ^ (w - ones) * c < 2 ^ (w - ones) * 2 ^ ones := hsplit ▸ h.lt
  have hc : c + 1 ≤ 2 ^ ones := Nat.lt_of_mul_lt_mul_left hlt
  calc 2 ^ (w - ones) * c + 2 ^ (w - ones) = 2 ^ (w - ones) * (c + 1) := by ring
    _ ≤ 2 ^ (w - ones) * 2 ^ ones := Nat.mul_le_mul_left _ hc
    _ = 2 ^ w := hsplit.symm

theorem masked_maskBits (h : ones ≤ w) (hn : n < 2 ^ w) : Masked w ones (maskBits w ones n) := by
  refine ⟨h, ⟨n / 2 ^ (w - ones), Nat.mul_comm _ _⟩, ?_⟩
  exact Nat.lt_of_le_of_lt (Nat.div_mul_le_self n _) hn

end

theorem parseMask_le {max n : Nat} {cs : List Char} (h : parseMask max cs = some n) : n ≤ max := by
  unfold parseMask at h
  split at h
  · split at h
    · next hle =>
      cases h
      exact hle
    · cases h
  · cases h

theorem masked_ofNat {w ones n : Nat} (h : ones ≤ w) (hn : n < 2 ^ w) :
    Masked w ones (BitVec.ofNat w (maskBits w ones n)).toNat := by
  have hm := masked_maskBits h hn
  rwa [BitVec.toNat_ofNat, Nat.mod_eq_of_lt hm.lt]

/-- The network that is read of a text. -/
def Net.IsMasked : Net → Prop
  | .v4 a ones => Masked 32 ones a.toNat
  | .v6 a ones => Masked 128 ones a.toNat

theorem parseCIDR_cases {cs : List Char} {ip : Addr} {net : Net} (h : parseCIDR cs = some (ip, net)) :
    (∃ a ones, to4 ip = some a ∧ ones ≤ 32 ∧ net = .v4 (BitVec.ofNat 32 (maskBits 32 ones a.toNat)) ones) ∨
      ∃ ones, ones ≤ 128 ∧ net = .v6 (BitVec.ofNat 128 (maskBits 128 ones ip.toNat)) ones := by
  unfold parseCIDR at h
  split at h
  · next addr mask _ =>
    obtain ⟨x, _, h⟩ := Option.bind_eq_some_iff.mp h
    split at h
    · next a _ ha =>
      obtain ⟨ones, hones, h⟩ := Option.bind_eq_some_iff.mp h
      cases h
      exact .inl ⟨a, ones, ha, parseMask_le hones, rfl⟩
    · obtain ⟨ones, hones, h⟩ := Option.bind_eq_some_iff.mp h
      cases h
      exact .inr ⟨ones, parseMask_le hones, rfl⟩
  · cases h

theorem parseCIDR_masked {cs : List Char} {ip : Addr} {net : Net} (h : parseCIDR cs = some (ip, net)) :
    net.IsMasked := by
  rcases parseCIDR_cases h with ⟨a, ones, -, hones, rfl⟩ | ⟨ones, hones, rfl⟩
  · exact masked_ofNat hones a.isLt
  · exact masked_ofNat hones ip.isLt

/-! ## Addresses in networks -/

/-- The first `len` of `w` bits are the same. -/
def SamePrefix (w len a b : Nat) : Prop := a / 2 ^ (w - len) = b / 2 ^ (w - len)

theorem maskBits_eq_iff {w ones a b : Nat} : maskBits w ones a = maskBits w ones b ↔ SamePrefix w ones a b :=
  Nat.mul_left_inj (Nat.two_pow_pos _).ne'

theorem maskBits_maskBits (w ones n : Nat) : maskBits w ones (maskBits w ones n) = maskBits w ones n := by
  rw [maskBits, maskBits, Nat.mul_div_cancel _ (Nat.two_pow_pos _)]

/-- The address lies in the network that another address and a prefix length describe, which is one of
IPv4 if it is written so or stands for IPv4 addresses only. -/
def Lies (addr : Addr) (net : Net) (ip : Addr) : Prop :=
  match net with
  | .v4 _ ones => ∃ a x, to4 addr = some a ∧ to4 ip = some x ∧ SamePrefix 32 ones x.toNat a.toNat
  | .v6 _ ones =>
    if (to4 addr).isSome ∧ 96 ≤ ones then
      ∃ a x, to4 addr = some a ∧ to4 ip = some x ∧ SamePrefix 32 (ones - 96) x.toNat a.toNat
    else to4 ip = none ∧ SamePrefix 128 ones ip.toNat addr.toNat

section
variable {ones n : Nat}

theorem maskBits_div (h : 96 ≤ ones) (hle : ones ≤ 128) : maskBits 128 ones n / 2 ^ 32 = n / 2 ^ 32 := by
  have hsplit : (2 : Nat) ^ 32 = 2 ^ (ones - 96) * 2 ^ (128 - ones) := by
    rw [← pow_add]
    congr 1
    omega
  rw [maskBits, hsplit, Nat.mul_div_mul_right _ _ (Nat.two_pow_pos _), Nat.div_div_eq_div_mul, Nat.mul_comm]

theorem maskBits_mod (h : 96 ≤ ones) (hle : ones ≤ 128) :
    maskBits 128 ones n % 2 ^ 32 = maskBits 32 (ones - 96) (n % 2 ^ 32) := by
  have hexp : 32 - (ones - 96) = 128 - ones := by omega
  have hsplit : (2 : Nat) ^ 32 = 2 ^ (128 - ones) * 2 ^ (ones - 96) := by
    rw [← pow_add]
    congr 1
    omega
  rw [maskBits, maskBits, hexp, hsplit, Nat.mod_mul_right_div_self, Nat.mul_comm (2 ^ (128 - ones)),
    Nat.mul_mod_mul_right]

theorem maskBits_unmarked (h : ones < 96) : maskBits 128 ones n / 2 ^ 32 ≠ 0xffff := by
  have hsplit : (2 : Nat) ^ (128 - ones) = 2 ^ (95 - ones) * 2 * 2 ^ 32 := by
    rw [← pow_succ, ← pow_add]
    congr 1
    omega
  rw [maskBits, hsplit, ← Nat.mul_assoc, Nat.mul_div_cancel _ (by decide), ← Nat.mul_assoc]
  generalize n / (2 ^ (95 - ones) * 2 * 2 ^ 32) * 2 ^ (95 - ones) = c
  omega

end

theorem toNat_ofNat_maskBits {w ones n : Nat} (hle : ones ≤ w) (hn : n < 2 ^ w) :
    (BitVec.ofNat w (maskBits w ones n)).toNat = maskBits w ones n := by
  rw [BitVec.toNat_ofNat, Nat.mod_eq_of_lt (masked_maskBits hle hn).lt]

theorem to4_mask {ones : Nat} {ip : Addr} (hle : ones ≤ 128) :
    to4 (BitVec.ofNat 128 (maskBits 128 ones ip.toNat)) =
      if 96 ≤ ones then (to4 ip).map fun a => BitVec.ofNat 32 (maskBits 32 (ones - 96) a.toNat) else none := by
  unfold to4
  rw [toNat_ofNat_maskBits hle ip.isLt]
  split
  · next hmarked =>
    by_cases h : 96 ≤ ones
    · rw [maskBits_div h hle] at hmarked
      rw [if_pos h, if_pos hmarked, Option.map_some]
      congr 1
      apply BitVec.eq_of_toNat_eq
      have hlt : ip.toNat % 2 ^ 32 < 2 ^ 32 := Nat.mod_lt _ (by decide)
      simp only [BitVec.toNat_ofNat]
      rw [maskBits_mod h hle, Nat.mod_eq_of_lt (masked_maskBits (by omega) hlt).lt]
    · exact absurd hmarked (maskBits_unmarked (by omega))
  · next hmarked =>
    by_cases h : 96 ≤ ones
    · rw [maskBits_div h hle] at hmarked
      rw [if_pos h, if_neg hmarked, Option.map_none]
    · rw [if_neg h]

theorem parseCIDR_contains {cs : List Char} {addr ip : Addr} {net : Net} (h : parseCIDR cs = some (addr, net)) :
    net.contains ip = true ↔ Lies addr net ip := by
  rcases parseCIDR_cases h with ⟨a, ones, ha, hones, rfl⟩ | ⟨ones, hones, rfl⟩
  · rw [Net.contains, Lies, ha, toNat_ofNat_maskBits hones a.isLt]
    cases to4 ip with
    | none => simp
    | some x => simp [maskBits_eq_iff]
  · rw [Net.contains, Lies, to4_mask hones]
    by_cases hmapped : (to4 addr).isSome ∧ 96 ≤ ones
    · obtain ⟨a, ha⟩ := Option.isSome_iff_exists.mp hmapped.1
      have hle : ones - 96 ≤ 32 := by omega
      have hmask : maskBits 32 (ones - 96) (BitVec.ofNat 32 (maskBits 32 (ones - 96) a.toNat)).toNat =
          maskBits 32 (ones - 96) a.toNat := by
        rw [toNat_ofNat_maskBits hle a.isLt, maskBits_maskBits]
      rw [if_pos hmapped, if_pos hmapped.2, ha, Option.map_some]
      dsimp only
      rw [hmask]
      cases to4 ip with
      | none => simp
      | some x => simp [maskBits_eq_iff]
    · have hnone : (if 96 ≤ ones then (to4 addr).map fun a => BitVec.ofNat 32 (maskBits 32 (ones - 96) a.toNat)
        else none) = none := by
        by_cases hones' : 96 ≤ ones
        · rw [if_pos hones', Option.not_isSome_iff_eq_none.mp fun h => hmapped ⟨h, hones'⟩, Option.map_none]
        · rw [if_neg hones']
      rw [if_neg hmapped, hnone]
      dsimp only
      rw [toNat_ofNat_maskBits hones addr.isLt, Bool.and_eq_true, Option.isNone_iff_eq_none, decide_eq_true_eq,
        maskBits_eq_iff]

end IP
