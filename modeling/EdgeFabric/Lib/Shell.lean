/-
Shell commands on the files of a host, as far as they move, write and remove files. A
command has a text, and an effect on the files if everything in it succeeds
(`Command.effect`). `effect_of_not_touches`: a path that a command does not touch keeps
its file. A script is a list of commands and uploads, of which some first ones take effect
when it breaks off (`Part`).
-/
import Mathlib.Logic.Function.Basic
import Mathlib.Data.List.Basic

namespace Shell

abbrev Files := String → Option String

inductive Command where
  /-- a command that leaves the files alone -/
  | run (line : String)
  | cp (src dst : String)
  | mv (src dst : String)
  /-- `rm -f` -/
  | rm (path : String)
  /-- `rm -rf` -/
  | rmAll (dir : String)
  /-- `cat > path` with a here-document, which ends in a line break -/
  | cat (path tag content : String)
  /-- `a && b` -/
  | and (a b : Command)
  /-- `a` and `b` on lines of their own -/
  | lines (a b : Command)
  /-- `if [ -f path ]` -/
  | ifFile (path : String) (a b : Command)
  deriving DecidableEq, Repr

def under (dir path : String) : Bool := (dir ++ "/").toList.isPrefixOf path.toList

namespace Command

def text : Command → String
  | .run line => line
  | .cp src dst => "cp " ++ src ++ " " ++ dst
  | .mv src dst => "mv " ++ src ++ " " ++ dst
  | .rm path => "rm -f " ++ path
  | .rmAll dir => "rm -rf " ++ dir
  | .cat path tag content => "cat > " ++ path ++ " << '" ++ tag ++ "'\n" ++ content ++ "\n" ++ tag
  | .and a b => a.text ++ " && " ++ b.text
  | .lines a b => a.text ++ "\n" ++ b.text
  | .ifFile path a b => "if [ -f " ++ path ++ " ]; then " ++ a.text ++ "; else " ++ b.text ++ "; fi"

/-- What the command makes of the files if all of it succeeds; there must be a file to
copy or to move. -/
def effect : Command → Files → Option Files
  | .run _, f => some f
  | .cp src dst, f => (f src).map fun content => Function.update f dst (some content)
  | .mv src dst, f => (f src).map fun content => Function.update (Function.update f src none) dst (some content)
  | .rm path, f => some (Function.update f path none)
  | .rmAll dir, f => some fun path => if path = dir ∨ under dir path then none else f path
  | .cat path _ content, f => some (Function.update f path (some (content ++ "\n")))
  | .and a b, f => (a.effect f).bind b.effect
  | .lines a b, f => (a.effect f).bind b.effect
  | .ifFile path a b, f => if (f path).isSome then a.effect f else b.effect f

/-- The paths whose files the command may change. -/
def Touches : Command → String → Prop
  | .run _, _ => False
  | .cp _ dst, path => path = dst
  | .mv src dst, path => path = src ∨ path = dst
  | .rm p, path => path = p
  | .rmAll dir, path => path = dir ∨ under dir path
  | .cat p _ _, path => path = p
  | .and a b, path => a.Touches path ∨ b.Touches path
  | .lines a b, path => a.Touches path ∨ b.Touches path
  | .ifFile _ a b, path => a.Touches path ∨ b.Touches path

/-- A path that the command does not touch keeps its file; by induction on the command. -/
theorem effect_of_not_touches {c : Command} {f f' : Files} {path : String} (h : c.effect f = some f')
    (hpath : ¬ c.Touches path) : f' path = f path := by
  induction c generalizing f f' with
  | run line =>
    cases h
    rfl
  | cp src dst =>
    obtain ⟨content, _, rfl⟩ := Option.map_eq_some_iff.mp h
    exact Function.update_of_ne hpath _ _
  | mv src dst =>
    obtain ⟨content, _, rfl⟩ := Option.map_eq_some_iff.mp h
    obtain ⟨hsrc, hdst⟩ := not_or.mp hpath
    rw [Function.update_of_ne hdst, Function.update_of_ne hsrc]
  | rm p =>
    cases h
    exact Function.update_of_ne hpath _ _
  | rmAll dir =>
    cases h
    exact if_neg hpath
  | cat p tag content =>
    cases h
    exact Function.update_of_ne hpath _ _
  | and a b iha ihb =>
    obtain ⟨f₁, ha, hb⟩ := Option.bind_eq_some_iff.mp h
    obtain ⟨hna, hnb⟩ := not_or.mp hpath
    rw [ihb hb hnb, iha ha hna]
  | lines a b iha ihb =>
    obtain ⟨f₁, ha, hb⟩ := Option.bind_eq_some_iff.mp h
    obtain ⟨hna, hnb⟩ := not_or.mp hpath
    rw [ihb hb hnb, iha ha hna]
  | ifFile p a b iha ihb =>
    obtain ⟨hna, hnb⟩ := not_or.mp hpath
    rw [effect] at h
    split at h
    · exact iha h hna
    · exact ihb h hnb

end Command

variable {a : Deed} {f f' : Files} {path : String}

/-- What is done on a host: a command is run, or a file is uploaded. -/
inductive Deed where
  | command (c : Command)
  | upload (path content : String)
  deriving DecidableEq, Repr

def Deed.effect : Deed → Files → Option Files
  | .command c, f => c.effect f
  | .upload path content, f => some (Function.update f path (some content))

def Deed.Touches : Deed → String → Prop
  | .command c, path => c.Touches path
  | .upload p _, path => path = p

theorem Deed.effect_of_not_touches (h : a.effect f = some f')
    (hpath : ¬ a.Touches path) : f' path = f path := by
  cases a with
  | command c => exact Command.effect_of_not_touches h hpath
  | upload p content =>
    cases h
    exact Function.update_of_ne hpath _ _

/-- Actions one after the other. -/
def effects : List Deed → Files → Option Files
  | [], f => some f
  | a :: as, f => (a.effect f).bind (effects as)

theorem effects_append (as bs : List Deed) (f : Files) : effects (as ++ bs) f = (effects as f).bind (effects bs) := by
  induction as generalizing f with
  | nil => rfl
  | cons a as ih =>
    simp only [List.cons_append, effects, Option.bind_assoc]
    exact congrArg _ (funext fun f₁ => ih f₁)

theorem effects_of_not_touches {as : List Deed} (h : effects as f = some f')
    (hpath : ∀ a ∈ as, ¬ a.Touches path) : f' path = f path := by
  induction as generalizing f with
  | nil =>
    cases h
    rfl
  | cons a as ih =>
    obtain ⟨f₁, ha, has⟩ := Option.bind_eq_some_iff.mp h
    rw [ih has fun b hb => hpath b (List.mem_cons_of_mem _ hb), a.effect_of_not_touches ha (hpath a List.mem_cons_self)]

theorem effects_singleton (h : effects [a] f = some f') : a.effect f = some f' := by
  obtain ⟨f₁, ha, hf⟩ := Option.bind_eq_some_iff.mp h
  cases hf
  exact ha

/-- Some first actions take effect, each completely. -/
def Part (as : List Deed) (f f' : Files) : Prop := ∃ done, done <+: as ∧ effects done f = some f'

theorem Part.of_not_touches {as : List Deed} (h : Part as f f')
    (hpath : ∀ a ∈ as, ¬ a.Touches path) : f' path = f path := by
  obtain ⟨done, hdone, h⟩ := h
  exact effects_of_not_touches h fun a ha => hpath a (hdone.subset ha)

theorem part_singleton : Part [a] f f' ↔ f' = f ∨ a.effect f = some f' := by
  constructor
  · rintro ⟨done, hdone, h⟩
    rcases List.prefix_cons_iff.mp hdone with rfl | ⟨rest, rfl, hrest⟩
    · cases h
      exact .inl rfl
    · obtain rfl := List.prefix_nil.mp hrest
      obtain ⟨f₁, ha, hf⟩ := Option.bind_eq_some_iff.mp h
      cases hf
      exact .inr ha
  · rintro (rfl | h)
    · exact ⟨[], List.nil_prefix, rfl⟩
    · exact ⟨[a], List.prefix_rfl, by rw [effects, h]; rfl⟩

end Shell
