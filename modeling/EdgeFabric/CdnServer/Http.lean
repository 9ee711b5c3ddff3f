/-
What the CDN proxy reads and writes: byte strings, header fields, requests and
responses. Go strings are bytes here, since a decoded path or a field line need
not be UTF-8. `Platform` holds the library functions the proxy calls on them,
with what is known of each.
-/
import EdgeFabric.Domain
import EdgeFabric.Lib.Dict
import EdgeFabric.Lib.Text
import Mathlib.Data.List.Infix

namespace EdgeFabric.CdnServer
open Text (bytes)

abbrev Bytes := List UInt8

abbrev Header := Table (Prod.fst : Bytes × List Bytes → Bytes)

namespace Header

instance : Inhabited Header := ⟨∅⟩

def values (name : Bytes) (h : Header) : List Bytes := ((h.find name).map Prod.snd).getD []

def get (name : Bytes) (h : Header) : Bytes := (h.values name).headD []

def set (name value : Bytes) (h : Header) : Header := h.put (name, [value])

def add (name value : Bytes) (h : Header) : Header := h.put (name, h.values name ++ [value])

def del (name : Bytes) (h : Header) : Header := h.remove name

/-- The lines of one header after those of the other, as `copyHeader` does it. -/
def addAll (src dst : Header) : Header :=
  src.rows.foldl (fun h f => f.2.foldl (fun h line => h.add f.1 line) h) dst

section
variable {name other value : Bytes} {h src dst : Header}

@[simp] theorem values_empty : Header.values name ∅ = [] := rfl

@[simp] theorem values_set_self : (h.set name value).values name = [value] := by
  rw [values, set, Table.find_put_self (a := (name, [value]))]
  rfl

theorem values_set_of_ne (hne : name ≠ other) : (h.set other value).values name = h.values name := by
  rw [values, set, Table.find_put_of_ne (by simpa using hne), values]

@[simp] theorem values_add_self : (h.add name value).values name = h.values name ++ [value] := by
  rw [values, add, Table.find_put_self (a := (name, h.values name ++ [value]))]
  rfl

theorem values_add_of_ne (hne : name ≠ other) : (h.add other value).values name = h.values name := by
  rw [values, add, Table.find_put_of_ne (by simpa using hne), values]

theorem values_del_of_ne (hne : name ≠ other) : (h.del other).values name = h.values name := by
  rw [values, del, Table.find_remove_of_ne hne, values]

theorem values_addAll : (src.addAll dst).values name = dst.values name ++ src.values name := by
  have hlines : ∀ (lines : List Bytes) (h : Header) (n : Bytes),
      (lines.foldl (fun h line => h.add n line) h).values name = h.values name ++ if n = name then lines else [] := by
    intro lines
    induction lines with
    | nil => intro h n; simp
    | cons line lines ih =>
      intro h n
      rw [List.foldl_cons, ih]
      by_cases hn : n = name
      · subst hn
        simp
      · rw [values_add_of_ne (Ne.symm hn), if_neg hn, if_neg hn]
  have hrows : ∀ (rows : List (Bytes × List Bytes)) (h : Header), (rows.map Prod.fst).Nodup →
      (rows.foldl (fun h f => f.2.foldl (fun h line => h.add f.1 line) h) h).values name =
        h.values name ++ ((rows.find? (·.1 = name)).map Prod.snd).getD [] := by
    intro rows
    induction rows with
    | nil => intro h _; simp
    | cons f rows ih =>
      intro h hnodup
      obtain ⟨hnew, hnodup⟩ := List.nodup_cons.mp hnodup
      rw [List.foldl_cons, ih _ hnodup, hlines, List.append_assoc]
      by_cases hf : f.1 = name
      · -- the name does not come again
        have hrest : rows.find? (·.1 = name) = none := List.find?_eq_none.mpr fun g hg he =>
          hnew (List.mem_map.mpr ⟨g, hg, (of_decide_eq_true he).trans hf.symm⟩)
        simp [hf, hrest]
      · simp [hf]
  exact hrows src.rows dst src.nodup

end
end Header

structure Response where
  body : Bytes
  statusCode : Int
  headers : Header
  deriving DecidableEq, Inhabited

structure Request where
  method : Bytes
  /-- the `Host` field as sent -/
  host : Bytes
  /-- the decoded path -/
  path : Bytes
  rawQuery : Bytes
  headers : Header
  deriving DecidableEq, Inhabited

def asciiLower (b : UInt8) : UInt8 := if 65 ≤ b ∧ b ≤ 90 then b + 32 else b

/-- A token without the blanks around it and in lower case. -/
def token (text : Bytes) : Bytes :=
  let blank : UInt8 → Bool := fun b => b = 32 || b = 9
  (((text.dropWhile blank).reverse.dropWhile blank).reverse).map asciiLower

/-- Library functions: `strings.ToLower`, a text after it went through JSON, and SHA-256. -/
structure Platform where
  toLower : Bytes → Bytes
  /-- a run of ASCII bytes is lowered where it stands -/
  toLower_ascii : ∀ a b c, (∀ x ∈ b, x < 128) → ∃ a' c', toLower (a ++ b ++ c) = a' ++ b.map asciiLower ++ c'
  toLower_text : ∀ b, (∀ x ∈ b, x < 128) → toLower b = b.map asciiLower
  jsonText : Bytes → Bytes
  /-- JSON alters only what is not UTF-8 -/
  jsonText_utf8 : ∀ text : String, jsonText (bytes text) = bytes text
  sha256 : Bytes → Bytes
  /-- no two keys with one hash come up -/
  sha256_injective : Function.Injective sha256

/-- A platform that lowers ASCII letters, keeps texts as they are and has keys for hashes. -/
def Platform.plain : Platform where
  toLower b := b.map asciiLower
  toLower_ascii a b c _ := ⟨a.map asciiLower, c.map asciiLower, by simp⟩
  toLower_text _ _ := rfl
  jsonText := id
  jsonText_utf8 _ := rfl
  sha256 := id
  sha256_injective := Function.injective_id

def contains (text part : Bytes) : Bool := part <:+: text

theorem contains_iff {text part : Bytes} : contains text part = true ↔ part <:+: text := decide_eq_true_iff

end EdgeFabric.CdnServer
