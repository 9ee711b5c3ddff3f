/-
Single-row statements, the way every table of the store uses them: select,
insert, update and delete by primary key, with the sentinel errors of
`internal/storage`, and the foreign-key checks.
-/
import EdgeFabric.World

namespace EdgeFabric

section
variable {α κ : Type} [DecidableEq κ] {key : α → κ}
variable {k : κ} {t t' : Table key} {a : α}

/-- `SELECT … WHERE id = ?`. -/
def selectRow (k : κ) (t : Table key) : Except Err α :=
  match t.find k with
  | some a => .ok a
  | none => .error .notFound

/-- `INSERT`; `dup` is the error for a key that is taken. -/
def insertRow (dup : Err) (a : α) (t : Table key) : Except Err (Table key) :=
  match t.insert a with
  | some t' => .ok t'
  | none => .error dup

/-- `UPDATE … WHERE id = ?`: the row becomes what `f` makes of it. -/
def updateRow (k : κ) (f : α → α) (t : Table key) : Except Err (Table key) :=
  match t.find k with
  | some a =>
    match t.set (f a) with
    | some t' => .ok t'
    | none => .error .notFound
  | none => .error .notFound

/-- `DELETE … WHERE id = ?`. -/
def deleteRow (k : κ) (t : Table key) : Except Err (Table key) :=
  match t.erase k with
  | some t' => .ok t'
  | none => .error .notFound

theorem selectRow_ok : selectRow k t = .ok a ↔ t.find k = some a := by
  unfold selectRow
  split <;> simp_all

theorem selectRow_unique {b : α} (ha : selectRow k t = .ok a) (hb : t.find (key a) = some b) :
    b = a := by
  obtain ⟨hmem, -⟩ := Table.find_eq_some.mp (selectRow_ok.mp ha)
  obtain ⟨hmem', hkey⟩ := Table.find_eq_some.mp hb
  exact Table.key_inj hmem' hmem hkey

theorem insertRow_ok {dup : Err} : insertRow dup a t = .ok t' ↔ t.insert a = some t' := by
  unfold insertRow
  split <;> simp_all

theorem updateRow_found {f : α → α} {a : α} (h : t.find k = some a) (hf : key (f a) = key a) :
    ∃ t', updateRow k f t = .ok t' := by
  obtain ⟨t', hset⟩ := Table.exists_set (Table.find_eq_some.mp h).1 hf
  exact ⟨t', by simp only [updateRow, h, hset]⟩

theorem updateRow_ok {f : α → α} (h : updateRow k f t = .ok t') :
    ∃ a, t.find k = some a ∧ t.set (f a) = some t' := by
  unfold updateRow at h
  split at h
  · next a ha =>
    split at h
    · next t₁ ht =>
      cases h
      exact ⟨a, ha, ht⟩
    · cases h
  · cases h

theorem deleteRow_ok : deleteRow k t = .ok t' ↔ t.erase k = some t' := by
  unfold deleteRow
  split <;> simp_all

end

/-- A foreign key that must name an existing row. -/
def requireRow {α κ : Type} [DecidableEq κ] {key : α → κ} (context : String) (k : κ) (t : Table key) :
    Except Err Unit :=
  match t.find k with
  | some _ => .ok ()
  | none => .error (.under context (.text "FOREIGN KEY constraint failed"))

/-- A nullable foreign key. -/
def requireRow? {α κ : Type} [DecidableEq κ] {key : α → κ} (context : String) (k : Option κ) (t : Table key) :
    Except Err Unit :=
  match k with
  | some k => requireRow context k t
  | none => .ok ()

/-- Rows that still refer to the one being deleted forbid the delete. -/
def forbidRows (context : String) (referenced : Bool) : Except Err Unit :=
  if referenced then .error (.under context (.text "FOREIGN KEY constraint failed")) else .ok ()

/-- The first value that was `seen` or came before. -/
def firstRepeated {α : Type} [DecidableEq α] (seen : List α) : List α → Option α
  | [] => none
  | a :: rest => if a ∈ seen then some a else firstRepeated (a :: seen) rest

/-- The rows of a child table keyed by its parent and a value: no value twice. -/
def requireUnique {α : Type} [DecidableEq α] (context : α → String) (values : List α) : Except Err Unit :=
  match firstRepeated [] values with
  | none => .ok ()
  | some a => .error (.under (context a) (.text "UNIQUE constraint failed"))

theorem forbidRows_ok {context : String} {referenced : Bool} {u : Unit} (h : forbidRows context referenced = .ok u) :
    referenced = false := by
  cases referenced with
  | false => rfl
  | true => cases h

theorem requireRow_ok {α κ : Type} [DecidableEq κ] {key : α → κ} {context : String} {k : κ} {t : Table key} {u : Unit}
    (h : requireRow context k t = .ok u) : ∃ a, t.find k = some a := by
  unfold requireRow at h
  split at h
  · next a ha => exact ⟨a, ha⟩
  · cases h

theorem requireRow?_ok {α κ : Type} [DecidableEq κ] {key : α → κ} {context : String} {k : κ} {t : Table key} {u : Unit}
    (h : requireRow? context (some k) t = .ok u) : ∃ a, t.find k = some a :=
  requireRow_ok h

/-! ## Sequencing -/

@[simp] theorem mapError_eq_ok {ε α : Type} {x : Except ε α} {f : ε → ε} {a : α} :
    x.mapError f = .ok a ↔ x = .ok a := by
  cases x <;> simp [Except.mapError]

theorem bind_ok {ε α β : Type} {x : Except ε α} {f : α → Except ε β} {b : β} :
    (x >>= f) = .ok b ↔ ∃ a, x = .ok a ∧ f a = .ok b := by
  cases x with
  | error e => simp [bind, Except.bind]
  | ok a => simp [bind, Except.bind]

/-! ## Calls that change one table -/

section
variable {α β κ : Type} [DecidableEq κ] {key : α → κ} {s s' : Store}

/-- The row `a` is inserted into `t` if its references are in order; `put` is the
store with the new table. -/
def insertInto (t : Table key) (put : Table key → Store) (dup : Err) (a : α) (references : Except Err Unit) :
    Except Err (α × Store) := do
  let t' ← insertRow dup a t
  references
  return (a, put t')

/-- The row with key `k` becomes what `f` makes of it. -/
def updateIn (t : Table key) (put : Table key → Store) (k : κ) (f : α → α) (result : β) (references : Except Err Unit) :
    Except Err (β × Store) := do
  let t' ← updateRow k f t
  references
  return (result, put t')

/-- The row with key `k` is removed, unless rows still refer to it. -/
def deleteFrom (t : Table key) (put : Table key → Store) (k : κ) (references : Except Err Unit) :
    Except Err (Unit × Store) := do
  let t' ← deleteRow k t
  references
  return ((), put t')

variable {t : Table key} {put : Table key → Store} {references : Except Err Unit}

theorem insertInto_ok {dup : Err} {a b : α} (h : insertInto t put dup a references = .ok (b, s')) :
    b = a ∧ ∃ t', t.insert a = some t' ∧ s' = put t' := by
  simp only [insertInto, bind_ok, insertRow_ok] at h
  obtain ⟨t', hins, _, _, h⟩ := h
  cases h
  exact ⟨rfl, t', hins, rfl⟩

theorem updateIn_ok {k : κ} {f : α → α} {result b : β} (h : updateIn t put k f result references = .ok (b, s')) :
    b = result ∧ ∃ old t', t.find k = some old ∧ t.set (f old) = some t' ∧ s' = put t' := by
  simp only [updateIn, bind_ok] at h
  obtain ⟨t', hupd, _, _, h⟩ := h
  cases h
  obtain ⟨old, hold, hset⟩ := updateRow_ok hupd
  exact ⟨rfl, old, t', hold, hset, rfl⟩

theorem deleteFrom_ok {k : κ} {u : Unit} (h : deleteFrom t put k references = .ok (u, s')) :
    ∃ t', t.erase k = some t' ∧ s' = put t' ∧ ∃ u', references = .ok u' := by
  simp only [deleteFrom, bind_ok, deleteRow_ok] at h
  obtain ⟨t', herase, u', href, h⟩ := h
  cases h
  exact ⟨t', herase, rfl, u', href⟩

/-! ### The references of a row that was written -/

theorem insertInto_refs {dup : Err} {a b : α} (h : insertInto t put dup a references = .ok (b, s')) :
    references = .ok () := by
  simp only [insertInto, bind_ok] at h
  obtain ⟨_, _, _, href, _⟩ := h
  exact href

theorem updateIn_found {k : κ} {f : α → α} {a : α} {result : β} {e : Err} (h : t.find k = some a)
    (hf : key (f a) = key a) : updateIn t put k f result (.ok ()) ≠ .error e := by
  obtain ⟨t', hupd⟩ := updateRow_found h hf
  simp only [updateIn, hupd]
  exact fun he => nomatch he

theorem updateIn_refs {k : κ} {f : α → α} {result b : β} (h : updateIn t put k f result references = .ok (b, s')) :
    references = .ok () := by
  simp only [updateIn, bind_ok] at h
  obtain ⟨_, _, _, href, _⟩ := h
  exact href

/-! ### What does not depend on the table -/

section
variable {τ : Type} {view : Store → τ}

theorem insertInto_keeps {dup : Err} {a b : α} (h : insertInto t put dup a references = .ok (b, s'))
    (hput : ∀ t, view (put t) = view s) : view s' = view s := by
  obtain ⟨_, t', _, rfl⟩ := insertInto_ok h
  exact hput t'

theorem updateIn_keeps {k : κ} {f : α → α} {result b : β} (h : updateIn t put k f result references = .ok (b, s'))
    (hput : ∀ t, view (put t) = view s) : view s' = view s := by
  obtain ⟨_, _, t', _, _, rfl⟩ := updateIn_ok h
  exact hput t'

theorem deleteFrom_keeps {k : κ} {u : Unit} (h : deleteFrom t put k references = .ok (u, s'))
    (hput : ∀ t, view (put t) = view s) : view s' = view s := by
  obtain ⟨t', _, rfl, _⟩ := deleteFrom_ok h
  exact hput t'

end

end

end EdgeFabric
