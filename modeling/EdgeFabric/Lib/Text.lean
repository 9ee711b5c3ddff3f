/-
Texts as lists of characters: joining, cutting and trimming, and their UTF-8
bytes.
-/
import EdgeFabric.Lib.Digits
import Mathlib.Data.List.TakeWhile

namespace Text

/-- White space, as Unicode has it. -/
def isSpace (c : Char) : Bool :=
  (9 ≤ c.toNat && c.toNat ≤ 13) || (0x2000 ≤ c.toNat && c.toNat ≤ 0x200a) ||
    [0x20, 0x85, 0xa0, 0x1680, 0x2028, 0x2029, 0x202f, 0x205f, 0x3000].contains c.toNat

def trim (cs : List Char) : List Char := ((cs.dropWhile isSpace).reverse.dropWhile isSpace).reverse

def trimSpace (text : String) : String := String.ofList (trim text.toList)

/-- The text before the first `d` and the text after it. -/
def cut (d : Char) : List Char → Option (List Char × List Char)
  | [] => none
  | c :: cs => if c = d then some ([], cs) else (cut d cs).map fun p => (c :: p.1, p.2)

theorem ofList_ne_empty {c : Char} {cs : List Char} (h : c ∈ cs) : String.ofList cs ≠ "" := by
  intro he
  have hnil : cs = [] := by simpa using congrArg String.toList he
  rw [hnil] at h
  cases h

theorem cut_append {d : Char} {a b : List Char} (h : d ∉ a) : cut d (a ++ d :: b) = some (a, b) := by
  induction a with
  | nil => simp [cut]
  | cons c a ih =>
    have hc : c ≠ d := fun he => h (he ▸ List.mem_cons_self)
    have ha : d ∉ a := fun hm => h (List.mem_cons_of_mem _ hm)
    rw [List.cons_append, cut, if_neg hc, ih ha]
    rfl

/-- What follows `start` in a text that starts with it. -/
def strip : (start text : List Char) → Option (List Char)
  | [], cs => some cs
  | a :: start, c :: cs => if a = c then strip start cs else none
  | _ :: _, [] => none

theorem strip_eq_some {start cs rest : List Char} : strip start cs = some rest ↔ cs = start ++ rest := by
  induction start generalizing cs with
  | nil => simp [strip]
  | cons a start ih =>
    cases cs with
    | nil => simp [strip]
    | cons c cs =>
      by_cases h : a = c
      · simp [strip, h, ih]
      · have h' : c ≠ a := fun he => h he.symm
        simp [strip, h, h']

/-- A signed decimal number at the start of the text, after white space on the
line; what follows the digits is ignored. -/
def scanInt (cs : List Char) : Option Int :=
  let cs := cs.dropWhile fun c => isSpace c && c ≠ '\n'
  let digits := fun cs : List Char => (Digits.parse 10 (cs.takeWhile fun c => '0' ≤ c ∧ c ≤ '9')).map Int.ofNat
  match cs with
  | '-' :: cs => (digits cs).map Int.neg
  | '+' :: cs => digits cs
  | cs => digits cs

/-- A decimal number that makes up the whole text, with an optional sign, in the range of
64 bits. -/
def atoi (cs : List Char) : Option Int :=
  let number := fun cs : List Char => (Digits.parse 10 cs).map Int.ofNat
  let n := match cs with
    | '-' :: cs => (number cs).map Int.neg
    | '+' :: cs => number cs
    | cs => number cs
  n.filter fun n => -2 ^ 63 ≤ n ∧ n < 2 ^ 63

theorem isDigit_of_mem_toDigits {n : Nat} {c : Char} (h : c ∈ Nat.toDigits 10 n) : '0' ≤ c ∧ c ≤ '9' := by
  induction n using Nat.strongRecOn with
  | ind n ih =>
    have hdigit : ∀ d < 10, '0' ≤ Nat.digitChar d ∧ Nat.digitChar d ≤ '9' := by decide
    rw [Nat.toDigits_eq_if (by decide)] at h
    split at h
    · next hn =>
      rw [List.mem_singleton.mp h]
      exact hdigit n hn
    · next hn =>
      rcases List.mem_append.mp h with h | h
      · exact ih _ (by omega) h
      · rw [List.mem_singleton.mp h]
        exact hdigit _ (by omega)

theorem isSpace_of_isDigit {c : Char} (h : '0' ≤ c ∧ c ≤ '9') : isSpace c = false := by
  have h₁ : 48 ≤ c.toNat := h.1
  have h₂ : c.toNat ≤ 57 := h.2
  have hne : ∀ n, 58 ≤ n ∨ n < 48 → c.toNat ≠ n := by omega
  have hgt : ¬ c.toNat ≤ 13 := by omega
  have hlt : ¬ 0x2000 ≤ c.toNat := by omega
  simp [isSpace, hgt, hlt, hne]

def intText : Int → List Char
  | .ofNat n => Nat.toDigits 10 n
  | .negSucc n => '-' :: Nat.toDigits 10 (n + 1)

theorem takeWhile_toDigits (n : Nat) :
    (Nat.toDigits 10 n).takeWhile (fun c => decide ('0' ≤ c ∧ c ≤ '9')) = Nat.toDigits 10 n :=
  List.takeWhile_eq_self_iff.mpr fun _ hc => decide_eq_true (isDigit_of_mem_toDigits hc)

theorem scanInt_toDigits (n : Nat) : scanInt (Nat.toDigits 10 n) = some (n : Int) := by
  have htake := takeWhile_toDigits n
  have hparse := Digits.parse_toDigits (b := 10) (by decide) (by decide) n
  cases hd : Nat.toDigits 10 n with
  | nil => exact absurd hd Nat.toDigits_ne_nil
  | cons c cs =>
    have hc : '0' ≤ c ∧ c ≤ '9' := isDigit_of_mem_toDigits (n := n) (by rw [hd]; exact List.mem_cons_self)
    have hdrop : (c :: cs).dropWhile (fun c => isSpace c && c ≠ '\n') = c :: cs := by
      rw [List.dropWhile_cons_of_neg]
      simp [isSpace_of_isDigit hc]
    rw [hd] at htake hparse
    unfold scanInt
    simp only [hdrop]
    split
    · next h => cases h; exact absurd hc (by decide)
    · next h => cases h; exact absurd hc (by decide)
    · rw [htake, hparse]
      rfl

theorem scanInt_intText (n : Int) : scanInt (intText n) = some n := by
  cases n with
  | ofNat n => exact scanInt_toDigits n
  | negSucc n =>
    have hparse := Digits.parse_toDigits (b := 10) (by decide) (by decide) (n + 1)
    have hdrop : ('-' :: Nat.toDigits 10 (n + 1)).dropWhile (fun c => isSpace c && c ≠ '\n') =
        '-' :: Nat.toDigits 10 (n + 1) := List.dropWhile_cons_of_neg (by decide)
    simp only [scanInt, intText, hdrop, takeWhile_toDigits, hparse]
    rfl

/-! ## Bytes -/

def bytes (text : String) : List UInt8 := text.toUTF8.data.toList

def ofBytes (bs : List UInt8) : Option String := String.fromUTF8? ⟨bs.toArray⟩

theorem bytes_cons {c : Char} {cs : List Char} (h : c.toNat < 128) :
    bytes (String.ofList (c :: cs)) = c.toNat.toUInt8 :: bytes (String.ofList cs) := by
  have hc : String.utf8EncodeChar c = [c.toNat.toUInt8] := if_pos (Nat.le_of_lt_succ h)
  simp [bytes, List.utf8Encode, hc]

theorem bytes_ascii {cs : List Char} (h : ∀ c ∈ cs, c.toNat < 128) :
    bytes (String.ofList cs) = cs.map fun c => c.toNat.toUInt8 := by
  induction cs with
  | nil => rfl
  | cons c cs ih =>
    rw [bytes_cons (h c List.mem_cons_self), ih fun d hd => h d (List.mem_cons_of_mem _ hd), List.map_cons]

theorem ofBytes_bytes (text : String) : ofBytes (bytes text) = some text := by
  have hdata : (⟨(text.toUTF8.data.toList).toArray⟩ : ByteArray) = text.toUTF8 := rfl
  rw [ofBytes, bytes, hdata]
  exact dif_pos text.isValidUTF8

theorem lt_of_mem_bytes {text : String} {b : UInt8} (h : b ∈ bytes text) : b.toNat < 248 := by
  have hbytes : bytes text = text.toList.flatMap String.utf8EncodeChar := by
    obtain ⟨cs, rfl⟩ : ∃ cs, text = String.ofList cs := ⟨text.toList, by simp⟩
    simp [bytes, List.utf8Encode]
  rw [hbytes] at h
  obtain ⟨c, -, hb⟩ := List.mem_flatMap.mp h
  simp only [String.utf8EncodeChar] at hb
  split_ifs at hb <;> simp only [List.mem_cons, List.not_mem_nil, or_false] at hb
  · subst hb
    rw [UInt8.toNat_ofNat']
    omega
  · rcases hb with rfl | rfl <;> rw [UInt8.toNat_ofNat'] <;> omega
  · rcases hb with rfl | rfl | rfl <;> rw [UInt8.toNat_ofNat'] <;> omega
  · rcases hb with rfl | rfl | rfl | rfl <;> rw [UInt8.toNat_ofNat'] <;> omega

/-! ## Joining -/

theorem intercalate_singleton (d : Char) (f : List Char) : [d].intercalate [f] = f := by
  simp [List.intercalate]

theorem intercalate_cons_cons (d : Char) (f g : List Char) (fs : List (List Char)) :
    [d].intercalate (f :: g :: fs) = f ++ d :: [d].intercalate (g :: fs) := by
  simp [List.intercalate]

theorem mem_intercalate {c d : Char} {fs : List (List Char)} (h : c ∈ [d].intercalate fs) :
    c = d ∨ ∃ f ∈ fs, c ∈ f := by
  induction fs with
  | nil => simp [List.intercalate] at h
  | cons f fs ih =>
    cases fs with
    | nil => exact .inr ⟨f, by simp, by simpa [List.intercalate] using h⟩
    | cons g fs =>
      simp only [List.intercalate, List.intersperse_cons_cons, List.flatten_cons, List.mem_append,
        List.mem_singleton] at h ih
      rcases h with h | h | h
      · exact .inr ⟨f, by simp, h⟩
      · exact .inl h
      · rcases ih h with h | ⟨f', hf', hc⟩
        · exact .inl h
        · exact .inr ⟨f', List.mem_cons_of_mem _ hf', hc⟩

end Text
