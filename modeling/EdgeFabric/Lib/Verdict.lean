/-
A verdict on something that is tried again and again, with two thresholds: so many
failures in a row condemn it, so many successes in a row clear it.

The counters are the longest runs that the results end with, and the verdict is bad
exactly if so many failures came in a row and not so many successes after them
(`Records.mark`).
-/
import Mathlib.Data.List.Infix

structure Verdict where
  healthy : Bool
  consecutiveFail : Nat
  consecutiveOK : Nat
  deriving DecidableEq, Repr

namespace Verdict

def new : Verdict := ⟨true, 0, 0⟩

def mark (maxFail minOK : Nat) (success : Bool) (s : Verdict) : Verdict :=
  if success then
    { consecutiveOK := s.consecutiveOK + 1, consecutiveFail := 0
      healthy := if minOK ≤ s.consecutiveOK + 1 then true else s.healthy }
  else
    { consecutiveFail := s.consecutiveFail + 1, consecutiveOK := 0
      healthy := if maxFail ≤ s.consecutiveFail + 1 then false else s.healthy }

/-- There are `maxFail` failures in a row that no `minOK` successes in a row follow. -/
def Condemned (maxFail minOK : Nat) (results : List Bool) : Prop :=
  ∃ before after, results = before ++ List.replicate maxFail false ++ after ∧ ¬ List.replicate minOK true <:+: after

structure Records (maxFail minOK : Nat) (s : Verdict) (results : List Bool) : Prop where
  fails : ∀ n, n ≤ s.consecutiveFail ↔ List.replicate n false <:+ results
  oks : ∀ n, n ≤ s.consecutiveOK ↔ List.replicate n true <:+ results
  verdict : s.healthy = false ↔ Condemned maxFail minOK results

variable {maxFail minOK : Nat} {results : List Bool} {s : Verdict}

theorem replicate_suffix_concat {n : Nat} {b c : Bool} :
    List.replicate (n + 1) b <:+ results ++ [c] ↔ c = b ∧ List.replicate n b <:+ results := by
  rw [List.replicate_succ', List.suffix_concat_iff]
  constructor
  · rintro (h | ⟨t, h, ht⟩)
    · simp at h
    · obtain ⟨rfl, hc⟩ := List.append_inj' h rfl
      exact ⟨(List.singleton_inj.mp hc).symm, ht⟩
  · rintro ⟨rfl, h⟩
    exact .inr ⟨_, rfl, h⟩

theorem run_concat {count : Nat} {b : Bool} (h : ∀ n, n ≤ count ↔ List.replicate n b <:+ results) (n : Nat) :
    n ≤ count + 1 ↔ List.replicate n b <:+ results ++ [b] := by
  cases n with
  | zero => simp
  | succ n => rw [replicate_suffix_concat, ← h, Nat.add_le_add_iff_right, and_iff_right rfl]

theorem no_run_concat {b c : Bool} (hbc : c ≠ b) (n : Nat) : n ≤ 0 ↔ List.replicate n b <:+ results ++ [c] := by
  cases n with
  | zero => simp
  | succ n => simp [replicate_suffix_concat, hbc]

theorem condemned_fail (hmin : 1 ≤ minOK) : Condemned maxFail minOK (results ++ [false]) ↔
    Condemned maxFail minOK results ∨ List.replicate maxFail false <:+ results ++ [false] := by
  constructor
  · rintro ⟨before, after, heq, hafter⟩
    induction after using List.reverseRecOn with
    | nil => exact .inr ⟨before, by simp [heq]⟩
    | append_singleton after b _ =>
      rw [← List.append_assoc] at heq
      exact .inl ⟨before, after, (List.append_inj' heq rfl).1,
        fun h => hafter (h.trans (List.prefix_append _ _).isInfix)⟩
  · rintro (⟨before, after, rfl, hafter⟩ | ⟨before, heq⟩)
    · refine ⟨before, after ++ [false], by simp, fun h => ?_⟩
      rcases List.infix_concat_iff.mp h with h | h
      · obtain ⟨n, rfl⟩ := Nat.exists_eq_add_of_le' hmin
        simp [replicate_suffix_concat] at h
      · exact hafter h
    · refine ⟨before, [], by rw [List.append_nil, heq], fun h => ?_⟩
      obtain rfl : minOK = 0 := by simpa using h
      omega

theorem condemned_success (hmax : 1 ≤ maxFail) : Condemned maxFail minOK (results ++ [true]) ↔
    Condemned maxFail minOK results ∧ ¬ List.replicate minOK true <:+ results ++ [true] := by
  obtain ⟨n, rfl⟩ := Nat.exists_eq_add_of_le' hmax
  constructor
  · rintro ⟨before, after, heq, hafter⟩
    constructor
    · induction after using List.reverseRecOn with
      | nil =>
        rw [List.replicate_succ', List.append_nil, ← List.append_assoc] at heq
        simpa using (List.append_inj' heq rfl).2
      | append_singleton after b _ =>
        rw [← List.append_assoc] at heq
        exact ⟨before, after, (List.append_inj' heq rfl).1, fun h => hafter (h.trans (List.prefix_append _ _).isInfix)⟩
    · -- a run of successes does not reach back over the failure before `after`
      intro hrun
      have hsuffix : false :: after <:+ results ++ [true] :=
        ⟨before ++ List.replicate n false, by simp [heq, List.replicate_succ']⟩
      rcases List.suffix_or_suffix_of_suffix hrun hsuffix with h | h
      · rcases List.suffix_cons_iff.mp h with h | h
        · have hmem : false ∈ List.replicate minOK true := h ▸ List.mem_cons_self
          simp at hmem
        · exact hafter h.isInfix
      · have hmem := h.subset List.mem_cons_self
        simp at hmem
  · rintro ⟨⟨before, after, rfl, hafter⟩, hrun⟩
    refine ⟨before, after ++ [true], by simp, fun h => ?_⟩
    rcases List.infix_concat_iff.mp h with h | h
    · rw [List.append_assoc _ after] at hrun
      exact hrun (h.trans (List.suffix_append _ _))
    · exact hafter h

theorem Records.new (hmax : 1 ≤ maxFail) : Verdict.new.Records maxFail minOK [] := by
  refine ⟨fun n => by simp [Verdict.new], fun n => by simp [Verdict.new], ?_⟩
  refine iff_of_false (by simp [Verdict.new]) ?_
  rintro ⟨before, after, heq, -⟩
  have hlen := congrArg List.length heq
  simp only [List.length_nil, List.length_append, List.length_replicate] at hlen
  omega

theorem Records.mark (h : s.Records maxFail minOK results) (hmax : 1 ≤ maxFail) (hmin : 1 ≤ minOK) (success : Bool) :
    (s.mark maxFail minOK success).Records maxFail minOK (results ++ [success]) := by
  cases success with
  | true =>
    refine ⟨no_run_concat (by simp), run_concat h.oks, ?_⟩
    rw [condemned_success hmax, ← h.verdict, ← run_concat h.oks]
    by_cases hmany : minOK ≤ s.consecutiveOK + 1
    · simp [Verdict.mark, hmany]
    · simp [Verdict.mark, hmany]
  | false =>
    refine ⟨run_concat h.fails, no_run_concat (by simp), ?_⟩
    rw [condemned_fail hmin, ← h.verdict, ← run_concat h.fails]
    by_cases hmany : maxFail ≤ s.consecutiveFail + 1
    · simp [Verdict.mark, hmany]
    · simp [Verdict.mark, hmany]

end Verdict
