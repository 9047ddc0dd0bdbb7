import SeismicIngest.Transaction.Observers
import SeismicIngest.Transaction.Crashes
import Mathlib.Algebra.Order.BigOperators.Group.Finset
import Mathlib.Data.Fintype.Card

/-! # Writers finish

A client that waits for a row waits for the one that holds it, and that one can move,
because it asks for no other row (`Linear.holder_moves`).  So nobody waits in a circle.

Every move that is made brings its client nearer to the end of its connection
(`Due.step`).  A round, in which every client has a turn, therefore makes one move at
least while a connection is open, and as many rounds as there are moves to make close
them all (`Workload.finishes`).
-/

namespace SeismicIngest.Transaction

section

variable {ι σ κ δ ε α β ν : Type}

/-! ## Bounds -/

namespace Program

theorem Within.selectForUpdate (key : κ) (view : σ → α) :
    (selectForUpdate key view : Program σ κ δ ε α).Within 1 :=
  fun _ => trivial

theorem Within.send (batch : Batch σ δ) :
    (send batch : Program σ κ δ ε (Option δ)).Within 1 :=
  fun _ => trivial

theorem Within.raise (exception : ε) (count : Nat) :
    (.raise exception : Program σ κ δ ε α).Within count := by
  cases count <;> trivial

theorem Within.pure (result : α) (count : Nat) :
    (Pure.pure result : Program σ κ δ ε α).Within count := by
  cases count <;> trivial

/-- A program with room for its continuation. -/
theorem Within.followed {program : Program σ κ δ ε α} {next : α → Program σ κ δ ε β}
    {count first : Nat} (within : program.Within first) (second : Nat)
    (nextWithin : ∀ result, (next result).Within second) (room : first + second ≤ count) :
    (program >>= next).Within count :=
  (within.bind nextWithin).mono room

theorem Within.catching {program : Program σ κ δ ε α} {handler : ε → Program σ κ δ ε α}
    {first second : Nat} (within : program.Within first)
    (handlerWithin : ∀ exception, (handler exception).Within second) :
    (program.catching handler).Within (first + second) := by
  induction program generalizing first with
  | pure result => exact Within.pure result _
  | raise exception => exact (handlerWithin exception).mono (Nat.le_add_left _ _)
  | lock _ _ inductionHypothesis | query _ inductionHypothesis | flush _ _ inductionHypothesis =>
    cases first with
    | zero => exact within.elim
    | succ first =>
      rw [Nat.add_right_comm]
      exact fun found => inductionHypothesis found (within found)
  | commit _ inductionHypothesis | rollback _ inductionHypothesis =>
    cases first with
    | zero => exact within.elim
    | succ first =>
      rw [Nat.add_right_comm]
      exact inductionHypothesis within

/-- A client that dies sends no more statements than one that lives. -/
theorem Within.mortal {lost : ε} {program : Program σ κ δ ε α} {count : Nat}
    (within : program.Within count) (life : Option Nat) :
    (program.mortal lost life).Within count := by
  cases life with
  | none => exact within
  | some span =>
    change (program.kill lost span).Within count
    induction program generalizing count span with
    | pure _ | raise _ => cases span <;> exact within
    | lock _ _ inductionHypothesis | query _ inductionHypothesis
    | flush _ _ inductionHypothesis =>
      cases span with
      | zero => exact Within.raise lost count
      | succ span =>
        cases count with
        | zero => exact within.elim
        | succ count => exact fun found => inductionHypothesis found (within found) span
    | commit _ inductionHypothesis | rollback _ inductionHypothesis =>
      cases span with
      | zero => exact Within.raise lost count
      | succ span =>
        cases count with
        | zero => exact within.elim
        | succ count => exact inductionHypothesis within span

end Program

/-! ## Open and closed connections -/

namespace System

/-- Client `i` has its answer, and its connection is closed. -/
structure Closed (sys : System ι σ κ δ ε α) (i : ι) : Prop where
  answered : ∃ answer, sys.Answered i answer
  clean : (sys.client i).staged = id
  unlocked : ∀ k, sys.owner k ≠ some i

/-- Client `i` has `left i` moves to make at most, the closing of its connection
    included. -/
def Due (left : ι → Nat) (sys : System ι σ κ δ ε α) : Prop :=
  ∀ i, sys.Closed i ∨ ∃ count, left i = count + 1 ∧ (sys.client i).program.Within count

variable [DecidableEq ι] [DecidableEq κ] {present : κ → σ → Bool}
variable {sys after : System ι σ κ δ ε α} {left : ι → Nat} {i j : ι}

/-- A closed connection does nothing. -/
theorem Closed.step (closed : sys.Closed i) : sys.step present i = some sys := by
  obtain ⟨⟨answer, answered⟩, clean, unlocked⟩ := closed
  have unchanged : ∀ program, (sys.client i).program = program → sys.finish i program = sys := by
    intro program left
    have same : (⟨program, id⟩ : Client σ κ δ ε α) = sys.client i := by rw [← left, ← clean]
    simp only [finish, unlocked, if_false, same, Function.update_eq_self]
  change (sys.client i).program = _ at answered
  cases answer with
  | ok result =>
    change _ = Program.pure result at answered
    rw [System.step, answered]
    exact congrArg some (unchanged _ answered)
  | error exception =>
    change _ = Program.raise exception at answered
    rw [System.step, answered]
    exact congrArg some (unchanged _ answered)

/-- Other clients leave a closed connection closed. -/
theorem Closed.step_other (closed : sys.Closed i) (moved : sys.step present j = some after)
    (different : i ≠ j) : after.Closed i := by
  obtain ⟨answered, clean, unlocked⟩ := closed
  have same := System.step_other moved different
  refine ⟨?_, by rw [same]; exact clean, fun k owns => unlocked k (step_owner moved different owns)⟩
  obtain ⟨answer, answered⟩ := answered
  exact ⟨answer, by rw [Answered, same]; exact answered⟩

/-- When every connection is closed nothing moves any more. -/
theorem runSchedule_closed (closed : ∀ i, sys.Closed i) (schedule : List ι) :
    sys.runSchedule present schedule = sys := by
  induction schedule with
  | nil => rfl
  | cons i schedule inductionHypothesis =>
    change ((sys.step present i).getD sys).runSchedule present schedule = sys
    rw [(closed i).step]
    exact inductionHypothesis

omit [DecidableEq κ] in
/-- A client whose connection ends with its answer is done. -/
theorem finish_closed (sys : System ι σ κ δ ε α) (i : ι) (answer : Except ε α) :
    (sys.finish i (.lift answer)).Closed i where
  answered := ⟨answer, by simp [Answered, finish]⟩
  clean := by simp [finish]
  unlocked := sys.finish_releases i _

/-- A move that is made is one less to make. -/
theorem Due.step (due : sys.Due left) (isOpen : ¬ sys.Closed i)
    (moved : sys.step present i = some after) :
    0 < left i ∧ after.Due (Function.update left i (left i - 1)) := by
  obtain ⟨count, enough, within⟩ := (due i).resolve_left isOpen
  refine ⟨by omega, fun j => ?_⟩
  by_cases own : j = i
  · subst own
    cases count with
    | zero =>
      -- there is only the connection left to close
      refine .inl ?_
      cases step_move moved with
      | close answer _ => exact sys.finish_closed j answer
      | keep program _ | lock program _ | query program | flush program | commit program
      | rollback program =>
        rw [program] at within
        exact within.elim
    | succ count =>
      refine .inr ⟨count, by rw [Function.update_self]; omega, ?_⟩
      exact (step_self moved).within within
  · rw [Function.update_of_ne own]
    obtain closed | ⟨more, dueMore, withinMore⟩ := due j
    · exact .inl (closed.step_other moved own)
    · exact .inr ⟨more, dueMore, by rw [System.step_other moved own]; exact withinMore⟩

/-- A client that cannot move waits for the holder of a row. -/
theorem step_eq_none (waits : sys.step present i = none) :
    ∃ k j, sys.owner k = some j ∧ j ≠ i := by
  cases program : (sys.client i).program with
  | lock key next =>
    cases owned : sys.owner key with
    | none => simp [System.step, program, owned] at waits
    | some holder =>
      by_cases own : holder = i
      · simp [System.step, program, owned, own] at waits
      · exact ⟨key, holder, owned, own⟩
  | _ => simp [System.step, program] at waits

variable (present) in
/-- One round of turns makes a move, or finds every client of the round closed or waiting. -/
theorem Due.round [Fintype ι] (due : sys.Due left) (round : List ι) :
    ∃ left', (sys.runSchedule present round).Due left' ∧
      (Finset.univ.sum left' < Finset.univ.sum left ∨
        Finset.univ.sum left' = Finset.univ.sum left ∧ sys.runSchedule present round = sys ∧
          ∀ i ∈ round, sys.Closed i ∨ sys.step present i = none) := by
  induction round generalizing sys left with
  | nil => exact ⟨left, due, .inr ⟨rfl, rfl, fun _ none => by cases none⟩⟩
  | cons i round inductionHypothesis =>
    -- a turn that changes nothing leaves the rest of the round as it is
    have idle : (sys.step present i).getD sys = sys →
        (sys.Closed i ∨ sys.step present i = none) →
          ∃ left', (sys.runSchedule present (i :: round)).Due left' ∧
            (Finset.univ.sum left' < Finset.univ.sum left ∨
              Finset.univ.sum left' = Finset.univ.sum left ∧
                sys.runSchedule present (i :: round) = sys ∧
                ∀ j ∈ i :: round, sys.Closed j ∨ sys.step present j = none) := by
      intro same stays
      have turn : sys.runSchedule present (i :: round) = sys.runSchedule present round := by
        change ((sys.step present i).getD sys).runSchedule present round = _
        rw [same]
      rw [turn]
      obtain ⟨left', dueLeft, fewer | ⟨equal, unchanged, all⟩⟩ := inductionHypothesis due
      · exact ⟨left', dueLeft, .inl fewer⟩
      · refine ⟨left', dueLeft, .inr ⟨equal, unchanged, fun j member => ?_⟩⟩
        obtain rfl | member := List.mem_cons.mp member
        · exact stays
        · exact all j member
    cases moved : sys.step present i with
    | none => exact idle (by rw [moved]; rfl) (.inr moved)
    | some after =>
      by_cases closed : sys.Closed i
      · exact idle (by rw [closed.step]; rfl) (.inl closed)
      · obtain ⟨positive, dueAfter⟩ := due.step closed moved
        have turn : sys.runSchedule present (i :: round) = after.runSchedule present round := by
          change ((sys.step present i).getD sys).runSchedule present round = _
          rw [moved]
          rfl
        have fewer : Finset.univ.sum (Function.update left i (left i - 1)) < Finset.univ.sum left := by
          refine Finset.sum_lt_sum (fun j _ => ?_) ⟨i, Finset.mem_univ i, ?_⟩
          · by_cases own : j = i
            · subst own
              rw [Function.update_self]
              omega
            · rw [Function.update_of_ne own]
          · rw [Function.update_self]
            omega
        rw [turn]
        obtain ⟨left', dueLeft, further | ⟨equal, -, -⟩⟩ := inductionHypothesis dueAfter
        · exact ⟨left', dueLeft, .inl (further.trans fewer)⟩
        · exact ⟨left', dueLeft, .inl (equal ▸ fewer)⟩

end System

/-! ## Every fair schedule -/

section Linear

variable {view : κ → σ → ν} {present : κ → σ → Bool} {invariant : ν → Prop} {unwanted : δ}
variable {call : ι → Program σ κ δ ε α} {key : ι → κ} {initial : σ}
variable [DecidableEq ι] [DecidableEq κ] {sys : System ι σ κ δ ε α} {left : ι → Nat}

/-- Whoever holds a row can move. -/
theorem Linear.holder_moves (linear : Linear view call key initial unwanted sys) {k : κ} {j : ι}
    (owns : sys.owner k = some j) : ∃ after, sys.step present j = some after := by
  obtain ⟨rfl, midway, -⟩ := linear.held k j owns
  cases program : (sys.client j).program with
  | lock asked next =>
    -- it can only ask for the row that it holds
    have isLocal := midway.isLocal
    rw [program] at isLocal
    have own : sys.owner asked = some j := by rw [isLocal.1]; exact owns
    simp only [System.step, program, own, if_true]
    exact ⟨_, rfl⟩
  | _ =>
    simp only [System.step, program]
    exact ⟨_, rfl⟩

/-- Nobody waits in a circle: the one that is waited for can move. -/
theorem Linear.blocked (linear : Linear view call key initial unwanted sys) {i : ι}
    (waits : sys.step present i = none) :
    ∃ k j, sys.owner k = some j ∧ j ≠ i ∧ ∃ after, sys.step present j = some after := by
  obtain ⟨k, j, owns, other⟩ := System.step_eq_none waits
  exact ⟨k, j, owns, other, linear.holder_moves owns⟩

/-- A round in which nobody moves finds every connection closed. -/
theorem Linear.closed_of_idle (linear : Linear view call key initial unwanted sys)
    (idle : ∀ i, sys.Closed i ∨ sys.step present i = none) (i : ι) : sys.Closed i := by
  obtain closed | waits := idle i
  · exact closed
  · obtain ⟨k, j, owns, -, after, moves⟩ := linear.blocked waits
    obtain closed | stays := idle j
    · exact absurd owns (closed.unlocked k)
    · rw [stays] at moves
      cases moves

/-- As many rounds as there are moves left close every connection. -/
theorem Linear.closed_after [Fintype ι] (linear : Linear view call key initial unwanted sys)
    (workload : Workload view present invariant unwanted call key initial) (due : sys.Due left)
    {rounds : List (List ι)} (fair : ∀ round ∈ rounds, ∀ i, i ∈ round)
    (enough : Finset.univ.sum left ≤ rounds.length) (i : ι) :
    (sys.runSchedule present rounds.flatten).Closed i := by
  induction rounds generalizing sys left with
  | nil =>
    have none : Finset.univ.sum left = 0 := Nat.le_zero.mp enough
    refine (due i).resolve_right ?_
    rintro ⟨count, more, -⟩
    have zero := Finset.sum_eq_zero_iff.mp none i (Finset.mem_univ i)
    omega
  | cons round rounds inductionHypothesis =>
    have turn : sys.runSchedule present (round :: rounds).flatten =
        (sys.runSchedule present round).runSchedule present rounds.flatten := by
      rw [List.flatten_cons, System.runSchedule, List.foldl_append]
      rfl
    rw [turn]
    obtain ⟨left', dueLeft, fewer | ⟨-, unchanged, idle⟩⟩ := due.round present round
    · have later : Linear view call key initial unwanted (sys.runSchedule present round) :=
        System.runSchedule_induction (fun _ _ _ linear moved => linear.step workload moved)
          linear round
      rw [List.length_cons] at enough
      exact inductionHypothesis later dueLeft
        (fun round member => fair round (List.mem_cons_of_mem _ member)) (by omega)
    · have closed := linear.closed_of_idle fun j => idle j (fair round List.mem_cons_self j)
      rw [unchanged, System.runSchedule_closed closed]
      exact closed i

/-- Whatever the schedule, a round for each statement and each closing of a connection
    gives every client its answer and frees every row. -/
theorem Workload.finishes [Fintype ι]
    (workload : Workload view present invariant unwanted call key initial) {bound : ι → Nat}
    (within : ∀ i, (call i).Within (bound i)) {rounds : List (List ι)}
    (fair : ∀ round ∈ rounds, ∀ i, i ∈ round)
    (enough : (Finset.univ.sum fun i => bound i + 1) ≤ rounds.length) (i : ι) :
    ((System.start call initial).runSchedule present rounds.flatten).Closed i :=
  Linear.closed_after Linear.start workload (fun i => .inr ⟨bound i, rfl, within i⟩) fair enough i

end Linear

end

end SeismicIngest.Transaction
