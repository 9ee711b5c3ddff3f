/-
Tables with a primary key: a list of rows in insertion order, no two of them
with the same key. The key constraint is a field of the table, so an insert
that would break it has no result, and what a lookup, an update or a delete
touches is one row.
-/
import Mathlib.Data.List.Nodup

theorem List.forall_mem_concat {α : Type} {P : α → Prop} {l : List α} {a : α} (h : ∀ x ∈ l, P x) (ha : P a) :
    ∀ x ∈ l ++ [a], P x :=
  List.forall_mem_append.mpr ⟨h, List.forall_mem_singleton.mpr ha⟩

/-- Rows of type `α`, no two with the same `key`. -/
structure Table {κ α : Type} (key : α → κ) where
  rows : List α
  nodup : (rows.map key).Nodup

namespace Table
variable {κ α : Type} {key : α → κ}
variable {t : Table key} {a : α} {p : α → Bool}

instance : Membership α (Table key) := ⟨fun t a => a ∈ t.rows⟩

theorem mem_def : a ∈ t ↔ a ∈ t.rows := Iff.rfl

instance [DecidableEq α] (a : α) (t : Table key) : Decidable (a ∈ t) := inferInstanceAs (Decidable (a ∈ t.rows))

instance {t : Table key} {P : α → Prop} [DecidablePred P] : Decidable (∀ a ∈ t, P a) :=
  inferInstanceAs (Decidable (∀ a ∈ t.rows, P a))

instance {t : Table key} {P : α → Prop} [DecidablePred P] : Decidable (∃ a ∈ t, P a) :=
  inferInstanceAs (Decidable (∃ a ∈ t.rows, P a))

@[ext] theorem ext {u : Table key} (h : t.rows = u.rows) : t = u := by
  cases t; cases u; cases h; rfl

instance [DecidableEq α] : DecidableEq (Table key) := fun _ _ =>
  decidable_of_iff _ ⟨Table.ext, congrArg Table.rows⟩

theorem key_inj {b : α} (ha : a ∈ t) (hb : b ∈ t) (h : key a = key b) : a = b :=
  List.inj_on_of_nodup_map t.nodup ha hb h

theorem length_filter_le_one :
    (t.rows.filter p).length ≤ 1 ↔ ∀ a ∈ t, ∀ b ∈ t, p a = true → p b = true → a = b := by
  have hnodup : (t.rows.filter p).Nodup := (List.Nodup.of_map _ t.nodup).filter _
  have hmem : ∀ a, a ∈ t.rows.filter p ↔ a ∈ t ∧ p a = true := fun a => List.mem_filter
  constructor
  · intro hlen a ha b hb hpa hpb
    have ha := (hmem a).mpr ⟨ha, hpa⟩
    have hb := (hmem b).mpr ⟨hb, hpb⟩
    rcases h : t.rows.filter p with _ | ⟨x, _ | ⟨y, l⟩⟩
    · rw [h] at ha
      cases ha
    · rw [h, List.mem_singleton] at ha hb
      rw [ha, hb]
    · simp [h] at hlen
  · intro hone
    rcases h : t.rows.filter p with _ | ⟨x, _ | ⟨y, l⟩⟩
    · simp
    · simp
    · have hx := (hmem x).mp (by simp [h])
      have hy := (hmem y).mp (by simp [h])
      rw [h, hone x hx.1 y hy.1 hx.2 hy.2] at hnodup
      simp at hnodup

def empty : Table key := ⟨[], List.nodup_nil⟩

instance : EmptyCollection (Table key) := ⟨empty⟩
instance : Inhabited (Table key) := ⟨∅⟩

@[simp] theorem not_mem_empty : ¬ a ∈ (∅ : Table key) := List.not_mem_nil

/-- The rows that satisfy `p`. -/
def filter (p : α → Bool) (t : Table key) : Table key :=
  ⟨t.rows.filter p, t.nodup.sublist (List.filter_sublist.map key)⟩

@[simp] theorem mem_filter : a ∈ t.filter p ↔ a ∈ t ∧ p a = true :=
  List.mem_filter

@[simp] theorem rows_filter : (t.filter p).rows = t.rows.filter p := rfl

/-- Every row changed by `f`, which keeps the key. -/
def map (f : α → α) (hf : ∀ a, key (f a) = key a) (t : Table key) : Table key :=
  ⟨t.rows.map f, by simpa [Function.comp_def, hf] using t.nodup⟩

@[simp] theorem mem_map {f : α → α} {hf : ∀ a, key (f a) = key a} {b : α} :
    b ∈ t.map f hf ↔ ∃ a, a ∈ t ∧ f a = b :=
  List.mem_map

@[simp] theorem rows_map {f : α → α} {hf : ∀ a, key (f a) = key a} :
    (t.map f hf).rows = t.rows.map f := rfl

section Keyed
variable [DecidableEq κ]
variable {t' : Table key} {k : κ}

/-- The row with key `k`. -/
def find (k : κ) (t : Table key) : Option α := t.rows.find? (fun a => key a = k)

theorem find_eq_some : t.find k = some a ↔ a ∈ t ∧ key a = k := by
  constructor
  · intro h
    exact ⟨List.mem_of_find?_eq_some h, by simpa using List.find?_some h⟩
  · rintro ⟨hm, rfl⟩
    cases h : t.find (key a) with
    | none => simpa using List.find?_eq_none.mp h a hm
    | some b =>
      have hb : key b = key a := by simpa using List.find?_some h
      rw [key_inj (List.mem_of_find?_eq_some h) hm hb]

theorem find_eq_none : t.find k = none ↔ ∀ a ∈ t, key a ≠ k := by
  simp [find, mem_def]

/-- The table with a new last row, unless its key is taken. -/
def insert (a : α) (t : Table key) : Option (Table key) :=
  if h : key a ∈ t.rows.map key then none
  else some ⟨t.rows ++ [a], by simpa [List.nodup_append, t.nodup] using h⟩

theorem insert_eq_some (h : t.insert a = some t') :
    t.find (key a) = none ∧ t'.rows = t.rows ++ [a] := by
  unfold insert at h
  split at h
  · cases h
  · next hk =>
    cases h
    refine ⟨find_eq_none.mpr fun b hb he => hk ?_, rfl⟩
    exact he ▸ List.mem_map_of_mem hb

theorem mem_insert {b : α} (h : t.insert a = some t') : b ∈ t' ↔ b ∈ t ∨ b = a := by
  rw [mem_def, (insert_eq_some h).2, List.mem_append, List.mem_singleton, mem_def]

/-- The table with the row of `a`'s key replaced by `a`, if there is one. -/
def set (a : α) (t : Table key) : Option (Table key) :=
  if key a ∈ t.rows.map key then
    some (t.map (fun b => if key b = key a then a else b) (by intro b; split <;> simp_all))
  else none

theorem set_eq_some (h : t.set a = some t') :
    (∃ b ∈ t, key b = key a) ∧ t'.rows = t.rows.map (fun b => if key b = key a then a else b) := by
  unfold set at h
  split at h
  · next hk =>
    cases h
    exact ⟨by simpa [mem_def] using hk, rfl⟩
  · cases h

theorem exists_set {b : α} (hb : b ∈ t) (hk : key a = key b) : ∃ t', t.set a = some t' :=
  ⟨_, if_pos (hk ▸ List.mem_map_of_mem hb)⟩

theorem mem_set {b : α} (h : t.set a = some t') :
    b ∈ t' ↔ (b ∈ t ∧ key b ≠ key a) ∨ b = a := by
  obtain ⟨⟨c, hc, hca⟩, hr⟩ := set_eq_some h
  rw [mem_def, hr, List.mem_map]
  constructor
  · rintro ⟨d, hd, rfl⟩
    by_cases hk : key d = key a
    · exact .inr (if_pos hk)
    · rw [if_neg hk]
      exact .inl ⟨hd, hk⟩
  · rintro (⟨hb, hne⟩ | rfl)
    · exact ⟨b, hb, if_neg hne⟩
    · exact ⟨c, hc, if_pos hca⟩

theorem find_set_self (h : t.set a = some t') : t'.find (key a) = some a :=
  find_eq_some.mpr ⟨(mem_set h).mpr (.inr rfl), rfl⟩

theorem find_set_of_ne (h : t.set a = some t') (hk : k ≠ key a) :
    t'.find k = t.find k := by
  ext b
  simp only [find_eq_some, mem_set h]
  constructor
  · rintro ⟨⟨hb, -⟩ | rfl, hkey⟩
    · exact ⟨hb, hkey⟩
    · exact absurd hkey.symm hk
  · rintro ⟨hb, rfl⟩
    exact ⟨.inl ⟨hb, hk⟩, rfl⟩

/-- The table without the row of key `k`, if there is one. -/
def erase (k : κ) (t : Table key) : Option (Table key) :=
  if k ∈ t.rows.map key then some (t.filter (fun a => key a ≠ k)) else none

theorem erase_eq_some (h : t.erase k = some t') :
    (∃ a ∈ t, key a = k) ∧ t' = t.filter (fun a => key a ≠ k) := by
  unfold erase at h
  split at h
  · next hk => exact ⟨by simpa [mem_def] using hk, (Option.some.inj h).symm⟩
  · cases h

theorem mem_erase (h : t.erase k = some t') : a ∈ t' ↔ a ∈ t ∧ key a ≠ k := by
  rw [(erase_eq_some h).2]
  simp

/-! ### What a query for other rows finds -/

theorem filter_insert (h : t.insert a = some t') (ha : p a = false) :
    t'.rows.filter p = t.rows.filter p := by
  rw [(insert_eq_some h).2, List.filter_append, List.filter_singleton, ha]
  exact List.append_nil _

theorem filter_set (h : t.set a = some t')
    (hold : ∀ b ∈ t, key b = key a → p b = false) (ha : p a = false) : t'.rows.filter p = t.rows.filter p := by
  rw [(set_eq_some h).2]
  have hrows : ∀ rows : List α, (∀ b ∈ rows, key b = key a → p b = false) →
      (rows.map fun b => if key b = key a then a else b).filter p = rows.filter p := by
    intro rows hrows
    induction rows with
    | nil => rfl
    | cons b rows ih =>
      have ih := ih fun b hb => hrows b (List.mem_cons_of_mem _ hb)
      rw [List.map_cons, List.filter_cons, List.filter_cons, ih]
      by_cases hk : key b = key a
      · rw [if_pos hk, ha, hrows b List.mem_cons_self hk]
        rfl
      · rw [if_neg hk]
  exact hrows t.rows hold

theorem filter_erase (h : t.erase k = some t')
    (hold : ∀ b ∈ t, key b = k → p b = false) : t'.rows.filter p = t.rows.filter p := by
  rw [(erase_eq_some h).2, rows_filter, List.filter_filter]
  refine List.filter_congr fun b hb => ?_
  by_cases hk : key b = k
  · rw [hold b hb hk]
    rfl
  · simp [hk]

end Keyed

/-! ## Further unique columns -/

/-- No two rows agree on the column `f`. -/
def Unique {β : Type} (f : α → β) (t : Table key) : Prop := (t.rows.map f).Nodup

instance {β : Type} [DecidableEq β] (f : α → β) (t : Table key) : Decidable (t.Unique f) :=
  inferInstanceAs (Decidable (t.rows.map f).Nodup)

namespace Unique
variable {β : Type} {f : α → β} {t t' : Table key}

theorem inj (h : t.Unique f) {a b : α} (ha : a ∈ t) (hb : b ∈ t) (hf : f a = f b) : a = b :=
  List.inj_on_of_nodup_map h ha hb hf

theorem empty : (∅ : Table key).Unique f := List.nodup_nil

theorem filter (p : α → Bool) (h : t.Unique f) : (t.filter p).Unique f :=
  h.sublist (List.filter_sublist.map f)

theorem map {g : α → α} {hg : ∀ a, key (g a) = key a} (h : t.Unique f) (hf : ∀ a, f (g a) = f a) :
    (t.map g hg).Unique f := by
  simpa [Unique, Function.comp_def, hf] using h

variable [DecidableEq κ]

theorem insert {a : α} (h : t.Unique f) (ha : ∀ b ∈ t, f b ≠ f a) (hi : t.insert a = some t') : t'.Unique f := by
  rw [Unique, (insert_eq_some hi).2, List.map_append, List.map_singleton]
  refine List.nodup_append.mpr ⟨h, List.nodup_singleton _, ?_⟩
  rintro x hx y hy rfl
  obtain ⟨b, hb, rfl⟩ := List.mem_map.mp hx
  exact ha b hb (List.mem_singleton.mp hy)

theorem set {a : α} (h : t.Unique f) (ha : ∀ b ∈ t, key b ≠ key a → f b ≠ f a) (hs : t.set a = some t') :
    t'.Unique f := by
  rw [Unique, (set_eq_some hs).2, List.map_map]
  refine List.Nodup.map_on ?_ (List.Nodup.of_map key t.nodup)
  intro b hb c hc hbc
  simp only [Function.comp] at hbc
  split at hbc <;> split at hbc
  · next hk hk' => exact key_inj hb hc (hk.trans hk'.symm)
  · next hk hk' => exact absurd hbc.symm (ha c hc hk')
  · next hk hk' => exact absurd hbc (ha b hb hk)
  · exact h.inj hb hc hbc

theorem erase {k : κ} (h : t.Unique f) (he : t.erase k = some t') : t'.Unique f := by
  rw [(erase_eq_some he).2]
  exact h.filter _

end Unique

end Table
