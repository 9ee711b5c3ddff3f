/-
The text form of a UUID: thirty-two hex digits in groups of 8, 4, 4, 4 and 12.
Reading accepts the digits in either case, also without dashes, in braces or
after `urn:uuid:`. `parse_text`: a UUID is read back from its text.
-/
import EdgeFabric.Lib.Digits
import EdgeFabric.Lib.Text
import Mathlib.Data.BitVec

namespace Uuid

def hex (u : BitVec 128) : List Char := (Digits.fixed 16 32 u.toNat).map Nat.digitChar

def groups (cs : List Char) : List (List Char) :=
  [cs.take 8, (cs.drop 8).take 4, (cs.drop 12).take 4, (cs.drop 16).take 4, cs.drop 20]

/-- The digits of a text in five dashed groups of the right lengths. -/
def undash (cs : List Char) : Option (List Char) :=
  if (cs.splitOn '-').map List.length = [8, 4, 4, 4, 12] then some (cs.splitOn '-').flatten else none

def text (u : BitVec 128) : List Char := ['-'].intercalate (groups (hex u))

def ofHex (cs : List Char) : Option (BitVec 128) := (Digits.parse 16 cs).map (BitVec.ofNat 128)

def parse (cs : List Char) : Option (BitVec 128) :=
  if cs.any (fun c => 128 ≤ c.toNat) then none
  else
    match cs.length with
    | 32 => ofHex cs
    | 36 => (undash cs).bind ofHex
    | 38 => (undash ((cs.drop 1).take 36)).bind ofHex
    | 45 =>
      if (cs.take 9).map Char.toLower = "urn:uuid:".toList then (undash (cs.drop 9)).bind ofHex else none
    | _ => none

@[simp] theorem length_hex (u : BitVec 128) : (hex u).length = 32 := by simp [hex]

theorem ofHex_hex (u : BitVec 128) : ofHex (hex u) = some u := by
  have hp := Digits.parse_fixed (by decide : 0 < 16) (by decide) 31 u.toNat
  have hlt : u.toNat < 16 ^ (31 + 1) := by simpa using u.isLt
  rw [ofHex, hex, hp, Nat.mod_eq_of_lt hlt]
  simp

theorem value_of_mem_hex {u : BitVec 128} {c : Char} (h : c ∈ hex u) : (Digits.value c).isSome := by
  obtain ⟨d, hd, rfl⟩ := List.mem_map.mp h
  rw [Digits.value_digitChar (Digits.lt_of_mem_fixed (by decide) hd)]
  rfl

theorem flatten_groups (cs : List Char) : (groups cs).flatten = cs := by
  have h1 := List.take_append_drop 8 cs
  have h2 := List.take_append_drop 4 (cs.drop 8)
  have h3 := List.take_append_drop 4 (cs.drop 12)
  have h4 := List.take_append_drop 4 (cs.drop 16)
  rw [List.drop_drop] at h2 h3 h4
  simp only [groups, List.flatten_cons, List.flatten_nil, List.append_nil]
  rw [h4, h3, h2, h1]

theorem mem_hex_of_mem_groups {u : BitVec 128} {g : List Char} {c : Char} (hg : g ∈ groups (hex u)) (hc : c ∈ g) :
    c ∈ hex u := by
  rw [← flatten_groups (hex u)]
  exact List.mem_flatten.mpr ⟨g, hg, hc⟩

theorem splitOn_text (u : BitVec 128) : (text u).splitOn '-' = groups (hex u) := by
  refine List.splitOn_intercalate '-' (fun g hg hd => ?_) (by simp [groups])
  have := value_of_mem_hex (mem_hex_of_mem_groups hg hd)
  revert this
  decide

theorem undash_text (u : BitVec 128) : undash (text u) = some (hex u) := by
  have hl : (groups (hex u)).map List.length = [8, 4, 4, 4, 12] := by simp [groups]
  rw [undash, splitOn_text, if_pos hl, flatten_groups]

theorem length_text (u : BitVec 128) : (text u).length = 36 := by
  simp [text, groups, List.intercalate]

theorem mem_text {u : BitVec 128} {c : Char} (h : c ∈ text u) : c = '-' ∨ (Digits.value c).isSome := by
  rcases Text.mem_intercalate h with h | ⟨g, hg, hc⟩
  · exact .inl h
  · exact .inr (value_of_mem_hex (mem_hex_of_mem_groups hg hc))

theorem parse_text (u : BitVec 128) : parse (text u) = some u := by
  have hascii : (text u).any (fun c => 128 ≤ c.toNat) = false := by
    rw [List.any_eq_false]
    intro c hc
    rcases mem_text hc with rfl | hv
    · decide
    · simpa using Digits.toNat_lt_of_value hv
  simp [parse, hascii, length_text, undash_text, ofHex_hex]

theorem text_injective {u w : BitVec 128} (h : text u = text w) : u = w := by
  have hu := parse_text u
  rw [h, parse_text w] at hu
  exact (Option.some.inj hu).symm

end Uuid
