/-
Texts made of lines, and of fields: lines that start with a key of their own and may be left
out. Such a text determines its lines (`unlines_injective`), and the lines determine the
fields (`lines_injective`) where no key is the start of another.
-/
import EdgeFabric.Lib.Text

namespace Lines

def unlines (ls : List (List Char)) : List Char := ls.flatMap (· ++ ['\n'])

theorem unlines_append (ls ls' : List (List Char)) : unlines (ls ++ ls') = unlines ls ++ unlines ls' := by
  simp [unlines]

theorem unlines_cons (l : List Char) (ls : List (List Char)) : unlines (l :: ls) = l ++ '\n' :: unlines ls := by
  simp [unlines]

theorem unlines_injective {ls ls' : List (List Char)} (h : ∀ l ∈ ls, '\n' ∉ l) (h' : ∀ l ∈ ls', '\n' ∉ l)
    (heq : unlines ls = unlines ls') : ls = ls' := by
  induction ls generalizing ls' with
  | nil =>
    cases ls' with
    | nil => rfl
    | cons l' ls' => simp [unlines] at heq
  | cons l ls ih =>
    cases ls' with
    | nil => simp [unlines] at heq
    | cons l' ls' =>
      rw [unlines_cons, unlines_cons] at heq
      have hcut := congrArg (Text.cut '\n') heq
      rw [Text.cut_append (h l (by simp)), Text.cut_append (h' l' (by simp))] at hcut
      simp only [Option.some.injEq, Prod.mk.injEq] at hcut
      rw [hcut.1, ih (fun l hl => h l (by simp [hl])) (fun l hl => h' l (by simp [hl])) hcut.2]

/-- The key that a line starts with, and the value unless the line is left out. -/
abbrev Field := List Char × Option (List Char)

def lines (fields : List Field) : List (List Char) := fields.flatMap fun f => (f.2.map (f.1 ++ ·)).toList

def Field.text (f : Field) : List Char := f.2.elim [] fun value => f.1 ++ (value ++ ['\n'])

theorem unlines_lines_nil : unlines (lines []) = [] := rfl

theorem unlines_lines_cons (f : Field) (fields : List Field) :
    unlines (lines (f :: fields)) = f.text ++ unlines (lines fields) := by
  obtain ⟨key, v⟩ := f
  cases v <;> simp [lines, unlines, Field.text]

theorem not_mem_lines {fields : List Field} (h : ∀ f ∈ fields, '\n' ∉ f.1 ∧ ∀ value ∈ f.2, '\n' ∉ value) :
    ∀ l ∈ lines fields, '\n' ∉ l := by
  intro l hl
  obtain ⟨f, hf, hl⟩ := List.mem_flatMap.mp hl
  obtain ⟨value, hvalue, rfl⟩ := Option.map_eq_some_iff.mp (Option.mem_toList.mp hl)
  simp [(h f hf).1, (h f hf).2 value hvalue]

/-- No text starts with both. -/
def Apart (a b : List Char) : Prop := ¬ a <+: b ∧ ¬ b <+: a
  deriving Decidable

theorem Apart.not_start {a b : List Char} (h : Apart a b) (value : List Char) : ¬ a <+: b ++ value := by
  intro ha
  rcases List.prefix_or_prefix_of_prefix ha (List.prefix_append b value) with hab | hba
  · exact h.1 hab
  · exact h.2 hba

theorem mem_head_lines {fields : List Field} {rest : List (List Char)} {l : List Char}
    (h : l ∈ (lines fields ++ rest).head?) :
    (∃ key ∈ fields.map Prod.fst, ∃ value, l = key ++ value) ∨ l ∈ rest.head? := by
  rw [List.head?_append, Option.mem_def, Option.or_eq_some_iff] at h
  rcases h with h | h
  · obtain ⟨f, hf, hl⟩ := List.mem_flatMap.mp (List.mem_of_mem_head? h)
    obtain ⟨value, -, rfl⟩ := Option.map_eq_some_iff.mp (Option.mem_toList.mp hl)
    exact .inl ⟨f.1, List.mem_map_of_mem hf, value, rfl⟩
  · exact .inr h.2

theorem optional_injective {key : List Char} {v w : Option (List Char)} {rest rest' : List (List Char)}
    (hrest : ∀ l ∈ rest.head?, ¬ key <+: l) (hrest' : ∀ l ∈ rest'.head?, ¬ key <+: l)
    (h : (v.map (key ++ ·)).toList ++ rest = (w.map (key ++ ·)).toList ++ rest') : v = w ∧ rest = rest' := by
  cases v with
  | none =>
    cases w with
    | none => exact ⟨rfl, h⟩
    | some w =>
      obtain rfl : rest = (key ++ w) :: rest' := h
      exact absurd (List.prefix_append key w) (hrest _ rfl)
  | some v =>
    cases w with
    | none =>
      obtain rfl : (key ++ v) :: rest = rest' := h
      exact absurd (List.prefix_append key v) (hrest' _ rfl)
    | some w => simpa using h

theorem lines_injective {fields fields' : List Field} {rest rest' : List (List Char)}
    (hkeys : fields.map Prod.fst = fields'.map Prod.fst) (happart : (fields.map Prod.fst).Pairwise Apart)
    (hne : [] ∉ fields.map Prod.fst) (hrest : ∀ l ∈ rest.head?, l = []) (hrest' : ∀ l ∈ rest'.head?, l = [])
    (h : lines fields ++ rest = lines fields' ++ rest') : fields = fields' ∧ rest = rest' := by
  induction fields generalizing fields' with
  | nil =>
    obtain rfl : fields' = [] := by simpa using hkeys.symm
    exact ⟨rfl, h⟩
  | cons f fields ih =>
    cases fields' with
    | nil => cases hkeys
    | cons f' fields' =>
      obtain ⟨key, v⟩ := f
      obtain ⟨key', w⟩ := f'
      simp only [List.map_cons, List.cons.injEq] at hkeys
      obtain ⟨rfl, hkeys⟩ := hkeys
      simp only [List.map_cons, List.pairwise_cons, List.mem_cons, not_or] at happart hne
      -- what follows starts with another key or is blank
      have hnext (gs : List Field) (tail : List (List Char)) (hgs : gs.map Prod.fst = fields.map Prod.fst)
          (htail : ∀ l ∈ tail.head?, l = []) : ∀ l ∈ (lines gs ++ tail).head?, ¬ key <+: l := by
        intro l hl
        rcases mem_head_lines hl with ⟨other, hother, value, rfl⟩ | hl
        · exact (happart.1 other (hgs ▸ hother)).not_start value
        · rw [htail l hl, List.prefix_nil]
          exact fun h => hne.1 h.symm
      simp only [lines, List.flatMap_cons, List.append_assoc] at h
      obtain ⟨rfl, hlater⟩ := optional_injective (hnext fields rest rfl hrest) (hnext fields' rest' hkeys.symm hrest') h
      obtain ⟨rfl, rfl⟩ := ih hkeys happart.2 hne.2 hlater
      exact ⟨rfl, rfl⟩

end Lines
