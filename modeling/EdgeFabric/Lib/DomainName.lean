/-
Domain names and the texts they are presented as. A name is a list of labels, which are octet
strings, the leftmost label first; its text has every label followed by a dot, with the
octets that are special in texts behind a backslash and those that cannot be printed as
three digits behind one.

Words without dots, each followed by one, can be told apart again (`dotted_inj`), so that a
text ends in another one at a dot precisely if its words do (`suffix_dotted`).
-/
import EdgeFabric.Lib.Text
import Mathlib.Data.List.Induction

namespace DomainName

/-! ## Dotted words -/

/-- The words, each followed by a dot. -/
def dotted (ws : List (List Char)) : List Char := ws.flatMap (· ++ ['.'])

variable {ws vs : List (List Char)}

@[simp] theorem dotted_nil : dotted [] = [] := rfl

@[simp] theorem dotted_cons (w : List Char) : dotted (w :: ws) = w ++ '.' :: dotted ws := by
  simp [dotted]

@[simp] theorem dotted_append : dotted (ws ++ vs) = dotted ws ++ dotted vs := by
  simp [dotted]

theorem dotted_eq (h : ws ≠ []) : dotted ws = ['.'].intercalate ws ++ ['.'] := by
  induction ws with
  | nil => exact absurd rfl h
  | cons w ws ih =>
    cases ws with
    | nil => simp [List.intercalate]
    | cons w' ws =>
      rw [dotted_cons, ih (by simp), Text.intercalate_cons_cons]
      simp

theorem dotted_splitOn (cs : List Char) : dotted (cs.splitOn '.') = cs ++ ['.'] := by
  rw [dotted_eq (List.splitOn_ne_nil '.' cs), List.intercalate_splitOn]

theorem splitOn_dotted (h : ws ≠ []) (hws : ∀ w ∈ ws, '.' ∉ w) : (dotted ws).dropLast.splitOn '.' = ws := by
  rw [dotted_eq h, List.dropLast_concat]
  exact List.splitOn_intercalate '.' hws h

theorem dotted_ne_nil (h : ws ≠ []) : dotted ws ≠ [] := by
  rw [dotted_eq h]
  simp

theorem dotted_inj (hws : ∀ w ∈ ws, '.' ∉ w) (hvs : ∀ w ∈ vs, '.' ∉ w) (h : dotted ws = dotted vs) : ws = vs := by
  by_cases hnil : ws = []
  · subst hnil
    by_contra hne
    exact dotted_ne_nil (Ne.symm hne) h.symm
  · have hnil' : vs ≠ [] := fun he => dotted_ne_nil hnil (by rw [h, he]; rfl)
    rw [← splitOn_dotted hnil hws, h, splitOn_dotted hnil' hvs]

theorem dot_not_mem_splitOn {cs w : List Char} (hw : w ∈ cs.splitOn '.') : '.' ∉ w := by
  induction cs generalizing w with
  | nil =>
    obtain rfl : w = [] := by simpa [List.splitOn_nil] using hw
    exact List.not_mem_nil
  | cons c cs ih =>
    rw [List.splitOn_cons_eq_if_modifyHead] at hw
    cases hsplit : cs.splitOn '.' with
    | nil => exact absurd hsplit (List.splitOn_ne_nil _ _)
    | cons first rest =>
      rw [hsplit] at hw ih
      split at hw
      · rcases List.mem_cons.mp hw with rfl | hw
        · exact List.not_mem_nil
        · exact ih hw
      · next hc =>
        rcases List.mem_cons.mp hw with rfl | hw
        · refine List.not_mem_cons_of_ne_of_not_mem (fun he => hc ?_) (ih List.mem_cons_self)
          simp [← he]
        · exact ih (List.mem_cons_of_mem _ hw)

theorem dotted_of_suffix (h : vs <:+ ws) : dotted ws = dotted vs ∨ '.' :: dotted vs <:+ dotted ws := by
  obtain ⟨us, rfl⟩ := h
  induction us using List.reverseRecOn with
  | nil => exact .inl rfl
  | append_singleton us u _ => exact .inr ⟨dotted us ++ u, by simp⟩

theorem suffix_dotted (hws : ∀ w ∈ ws, '.' ∉ w) (hvs : ∀ w ∈ vs, '.' ∉ w) :
    (dotted ws = dotted vs ∨ '.' :: dotted vs <:+ dotted ws) ↔ vs <:+ ws := by
  refine ⟨?_, dotted_of_suffix⟩
  rintro (h | ⟨p, h⟩)
  · exact (dotted_inj hws hvs h) ▸ List.suffix_refl _
  · have hsplit : dotted (p.splitOn '.' ++ vs) = dotted ws := by
      rw [dotted_append, dotted_splitOn, ← h]
      simp
    refine ⟨p.splitOn '.', dotted_inj (fun w hw => ?_) hws hsplit⟩
    rcases List.mem_append.mp hw with hw | hw
    · exact dot_not_mem_splitOn hw
    · exact hvs w hw

/-! ## Texts of names -/

abbrev Label := List UInt8

/-- The octets that stand behind a backslash: dot, blank, quotes, at, semicolon, parentheses and the backslash. -/
def special : List UInt8 := [46, 32, 39, 64, 59, 40, 41, 34, 92]

def octetText (b : UInt8) : List Char :=
  let n := b.toNat
  if b ∈ special then ['\\', Char.ofNat n]
  else if n < 32 ∨ 126 < n then ['\\', Nat.digitChar (n / 100), Nat.digitChar (n / 10 % 10), Nat.digitChar (n % 10)]
  else [Char.ofNat n]

def labelText (l : Label) : List Char := l.flatMap octetText

/-- The words of the text; the root's text is a dot. -/
def words : List Label → List (List Char)
  | [] => [[]]
  | ls => ls.map labelText

/-- The text of a name. -/
def text (ls : List Label) : List Char := dotted (words ls)

theorem words_of_ne {ls : List Label} (h : ls ≠ []) : words ls = ls.map labelText := by
  cases ls with
  | nil => exact absurd rfl h
  | cons l ls => rfl

theorem dot_not_mem_octetText {b : UInt8} (h : b ≠ 46) : '.' ∉ octetText b := by
  have hall : ∀ n : Fin 256, UInt8.ofNat n ≠ 46 → '.' ∉ octetText (UInt8.ofNat n) := by decide +kernel
  have hb : UInt8.ofNat b.toNat = b := by simp
  rw [← hb] at h ⊢
  exact hall ⟨b.toNat, b.toNat_lt⟩ h

theorem dot_not_mem_labelText {l : Label} (h : 46 ∉ l) : '.' ∉ labelText l := by
  intro hdot
  obtain ⟨b, hb, hmem⟩ := List.mem_flatMap.mp hdot
  exact dot_not_mem_octetText (fun he => h (he ▸ hb)) hmem

theorem dot_not_mem_words {ls : List Label} (h : ∀ l ∈ ls, 46 ∉ l) : ∀ w ∈ words ls, '.' ∉ w := by
  cases ls with
  | nil => simp [words]
  | cons l ls =>
    intro w hw
    obtain ⟨l', hl', rfl⟩ := List.mem_map.mp hw
    exact dot_not_mem_labelText (h l' hl')

/-- The labels of a text, with their backslashes: a character behind one is part of the label, a dot too. -/
def splitLabels : (text label : List Char) → List (List Char)
  | [], [] => []
  | [], label => [label]
  | '\\' :: c :: cs, label => splitLabels cs (label ++ ['\\', c])
  | '.' :: cs, label => label :: splitLabels cs []
  | c :: cs, label => splitLabels cs (label ++ [c])

end DomainName
