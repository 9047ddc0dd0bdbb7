import SeismicIngest.Transaction.Serializability

/-! # Clients that die

A connection can be lost, and a process killed, between any two statements.
`Program.kill` is a program that dies after so many of its statements: the database
ends its transaction as it ends that of every closed connection, and nobody
receives an answer, which the exception `lost` stands for.

A transaction that its client does not live to end leaves nothing, and one that it
does leaves everything (`settle_mortal_of_outlives`, `settle_mortal_of_dies`).  So a
writer that dies is still a writer (`Writer.mortal`), and clients that die leave the
serial execution of the calls that lived to the end of their transaction
(`Workload.serial_mortal`).
-/

namespace SeismicIngest.Transaction

section

variable {ι σ κ δ ε α ν : Type} {lost : ε}

/-! ## Programs that die -/

namespace Program

/-- The program, killed after `count` statements. -/
def kill (lost : ε) : Program σ κ δ ε α → Nat → Program σ κ δ ε α
  | .pure result, _ => .pure result
  | .raise exception, _ => .raise exception
  | .lock key next, count + 1 => .lock key fun view => (next view).kill lost count
  | .query next, count + 1 => .query fun view => (next view).kill lost count
  | .flush batch next, count + 1 => .flush batch fun answer => (next answer).kill lost count
  | .commit rest, count + 1 => .commit (rest.kill lost count)
  | .rollback rest, count + 1 => .rollback (rest.kill lost count)
  | _, 0 => .raise lost

/-- The program of a client with a span of life, in statements; `none` is long enough. -/
def mortal (lost : ε) (program : Program σ κ δ ε α) : Option Nat → Program σ κ δ ε α
  | none => program
  | some count => program.kill lost count

/-- The first transaction has ended after `count` statements. -/
def endsWithin : Program σ κ δ ε α → Nat → Connection σ → Bool
  | .pure _, _, _ | .raise _, _, _ => true
  | .lock _ next, count + 1, conn | .query next, count + 1, conn =>
    (next conn.working).endsWithin count conn
  | .flush batch next, count + 1, conn =>
    (next (batch.rejects conn.working)).endsWithin count
      (conn.staged (batch.outcome conn.working))
  | .commit _, _ + 1, _ | .rollback _, _ + 1, _ => true
  | _, 0, _ => false

/-- The client lives to the end of its first transaction. -/
def outlives (program : Program σ κ δ ε α) (conn : Connection σ) : Option Nat → Bool
  | none => true
  | some count => program.endsWithin count conn

end Program

/-- What a client with a span of life still does after its transaction. -/
def Ending.mortal (lost : ε) (life : Option Nat) :
    Ending σ κ δ ε α → Ending σ κ δ ε α
  | .returned result => .returned result
  | .raised exception => .raised exception
  | .committed rest => .committed (rest.mortal lost life)
  | .rolledBack rest => .rolledBack (rest.mortal lost life)

namespace Program

variable {program : Program σ κ δ ε α} {conn : Connection σ}

theorem settle_kill_of_ends {count : Nat} (ends : program.endsWithin count conn = true) :
    ∃ life, (program.kill lost count).settle conn =
      ((program.settle conn).1.mortal lost life, (program.settle conn).2) := by
  induction program generalizing count conn with
  | pure _ | raise _ => exact ⟨none, by cases count <;> rfl⟩
  | lock _ _ inductionHypothesis | query _ inductionHypothesis
  | flush _ _ inductionHypothesis =>
    cases count with
    | zero => cases ends
    | succ count => exact inductionHypothesis _ ends
  | commit _ _ | rollback _ _ =>
    cases count with
    | zero => cases ends
    | succ count => exact ⟨some count, rfl⟩

theorem settle_kill_of_dies {count : Nat} (dies : program.endsWithin count conn = false) :
    ((program.kill lost count).settle conn).1 = .raised lost := by
  induction program generalizing count conn with
  | pure _ | raise _ => cases count <;> cases dies
  | lock _ _ inductionHypothesis | query _ inductionHypothesis
  | flush _ _ inductionHypothesis =>
    cases count with
    | zero => rfl
    | succ count => exact inductionHypothesis _ dies
  | commit _ _ | rollback _ _ =>
    cases count with
    | zero => rfl
    | succ count => cases dies

variable {life : Option Nat}

variable (lost) in
/-- A transaction that the client lives to end ends as it would without its death. -/
theorem settle_mortal_of_outlives (outlives : program.outlives conn life = true) :
    ∃ rest, (program.mortal lost life).settle conn =
      ((program.settle conn).1.mortal lost rest, (program.settle conn).2) := by
  cases life with
  | none =>
    refine ⟨none, ?_⟩
    change program.settle conn = _
    cases settled : program.settle conn with
    | mk ending after => cases ending <;> rfl
  | some count => exact settle_kill_of_ends outlives

/-- A transaction that the client does not live to end is discarded. -/
theorem settle_mortal_of_dies (dies : program.outlives conn life = false) :
    ((program.mortal lost life).settle conn).1 = .raised lost := by
  cases life with
  | none => cases dies
  | some count => exact settle_kill_of_dies dies

theorem LocalTo.kill {view : κ → σ → ν} {key : κ} (isLocal : program.LocalTo view key) (count : Nat) :
    (program.kill lost count).LocalTo view key := by
  induction program generalizing count with
  | pure _ | raise _ => cases count <;> trivial
  | lock _ next inductionHypothesis =>
    cases count with
    | zero => trivial
    | succ count =>
      obtain ⟨own, reads, restLocal⟩ := isLocal
      refine ⟨own, ?_, fun data => inductionHypothesis data (restLocal data) count⟩
      intro left right same
      exact congrArg (fun program => Program.kill lost program count) (reads left right same)
  | query next inductionHypothesis =>
    cases count with
    | zero => trivial
    | succ count =>
      obtain ⟨reads, restLocal⟩ := isLocal
      refine ⟨?_, fun data => inductionHypothesis data (restLocal data) count⟩
      intro left right same
      exact congrArg (fun program => Program.kill lost program count) (reads left right same)
  | flush _ _ inductionHypothesis =>
    cases count with
    | zero => trivial
    | succ count =>
      exact ⟨isLocal.1, fun answer => inductionHypothesis answer (isLocal.2 answer) count⟩
  | commit _ inductionHypothesis | rollback _ inductionHypothesis =>
    cases count with
    | zero => trivial
    | succ count => exact inductionHypothesis isLocal count

theorem LocalTo.mortal {view : κ → σ → ν} {key : κ} (isLocal : program.LocalTo view key) :
    (program.mortal lost life).LocalTo view key := by
  cases life with
  | none => exact isLocal
  | some count => exact isLocal.kill count

theorem Quiet.kill (quiet : program.Quiet) (count : Nat) : (program.kill lost count).Quiet := by
  induction program generalizing count with
  | pure _ | raise _ => cases count <;> trivial
  | query _ inductionHypothesis =>
    cases count with
    | zero => trivial
    | succ count => exact fun data => inductionHypothesis data (quiet data) count
  | rollback _ inductionHypothesis =>
    cases count with
    | zero => trivial
    | succ count => exact inductionHypothesis quiet count
  | lock _ _ _ | flush _ _ _ | commit _ _ => exact quiet.elim

theorem Quiet.mortal (quiet : program.Quiet) : (program.mortal lost life).Quiet := by
  cases life with
  | none => exact quiet
  | some count => exact quiet.kill count

theorem Avoids.kill {unwanted : δ} (avoids : program.Avoids unwanted conn) (count : Nat) :
    (program.kill lost count).Avoids unwanted conn := by
  induction program generalizing count conn with
  | pure _ | raise _ | commit _ _ | rollback _ _ => cases count <;> trivial
  | lock _ _ inductionHypothesis | query _ inductionHypothesis =>
    cases count with
    | zero => trivial
    | succ count => exact inductionHypothesis _ avoids count
  | flush _ _ inductionHypothesis =>
    cases count with
    | zero => trivial
    | succ count => exact ⟨avoids.1, inductionHypothesis _ avoids.2 count⟩

theorem Avoids.mortal {unwanted : δ} (avoids : program.Avoids unwanted conn) :
    (program.mortal lost life).Avoids unwanted conn := by
  cases life with
  | none => exact avoids
  | some count => exact avoids.kill count

theorem MayAnswer.mono {seen later : σ → Prop} {answer : Except ε α}
    (answers : program.MayAnswer seen answer) (weaker : ∀ data, seen data → later data) :
    program.MayAnswer later answer := by
  induction program with
  | pure _ | raise _ => exact answers
  | query _ inductionHypothesis =>
    obtain ⟨data, found, answered⟩ := answers
    exact ⟨data, weaker data found, inductionHypothesis data answered⟩
  | commit _ inductionHypothesis | rollback _ inductionHypothesis =>
    exact inductionHypothesis answers
  | lock _ _ _ | flush _ _ _ => exact answers.elim

/-- An answer that is received is one of the whole program. -/
theorem mayAnswer_kill {seen : σ → Prop} {count : Nat} {answer : Except ε α}
    (answers : (program.kill lost count).MayAnswer seen answer) (received : answer ≠ .error lost) :
    program.MayAnswer seen answer := by
  induction program generalizing count with
  | pure _ | raise _ => cases count <;> exact answers
  | query _ inductionHypothesis =>
    cases count with
    | zero => exact absurd answers received
    | succ count =>
      obtain ⟨data, found, answered⟩ := answers
      exact ⟨data, found, inductionHypothesis data answered⟩
  | commit _ inductionHypothesis | rollback _ inductionHypothesis =>
    cases count with
    | zero => exact absurd answers received
    | succ count => exact inductionHypothesis answers
  | lock _ _ _ | flush _ _ _ =>
    cases count with
    | zero => exact absurd answers received
    | succ count => exact answers.elim

theorem mayAnswer_mortal {seen : σ → Prop} {answer : Except ε α}
    (answers : (program.mortal lost life).MayAnswer seen answer) (received : answer ≠ .error lost) :
    program.MayAnswer seen answer := by
  cases life with
  | none => exact answers
  | some count => exact mayAnswer_kill answers received

/-! ## One transaction -/

/-- The program ends at most one transaction: what it returns inside it satisfies `inside`,
    and after its end it only reads and returns what satisfies `outside`. -/
def EndsOnce (inside outside : α → Prop) : Program σ κ δ ε α → Prop
  | .pure result => inside result
  | .raise _ => True
  | .lock _ next | .query next => ∀ data, (next data).EndsOnce inside outside
  | .flush _ next => ∀ answer, (next answer).EndsOnce inside outside
  | .commit rest | .rollback rest => rest.Quiet ∧ rest.Returns outside

section EndsOnce

variable {β : Type} {inside outside : α → Prop}

theorem EndsOnce.bind {inside' outside' : β → Prop} {next : α → Program σ κ δ ε β}
    (ends : program.EndsOnce inside outside)
    (goesOn : ∀ result, inside result → (next result).EndsOnce inside' outside')
    (reads : ∀ result, outside result → (next result).Quiet ∧ (next result).Returns outside') :
    (program >>= next).EndsOnce inside' outside' := by
  have quiet : ∀ rest : Program σ κ δ ε α, rest.Quiet → rest.Returns outside →
      (rest >>= next).Quiet := by
    intro rest restQuiet returns
    change (rest.bind next).Quiet
    induction rest with
    | pure result => exact (reads result returns).1
    | raise _ => trivial
    | query _ inductionHypothesis =>
      exact fun data => inductionHypothesis data (restQuiet data) (returns data)
    | rollback _ inductionHypothesis =>
      exact inductionHypothesis restQuiet returns
    | lock _ _ _ | flush _ _ _ | commit _ _ => exact restQuiet.elim
  change (program.bind next).EndsOnce inside' outside'
  induction program with
  | pure result => exact goesOn result ends
  | raise _ => trivial
  | lock _ _ inductionHypothesis | query _ inductionHypothesis
  | flush _ _ inductionHypothesis => exact fun found => inductionHypothesis found (ends found)
  | commit rest _ | rollback rest _ =>
    exact ⟨quiet rest ends.1 ends.2, ends.2.bind fun result holds => (reads result holds).2⟩

theorem EndsOnce.quietAfter (ends : program.EndsOnce inside outside) {rest : Program σ κ δ ε α}
    (ending : (program.settle conn).1 = .committed rest ∨
      (program.settle conn).1 = .rolledBack rest) : rest.Quiet := by
  induction program generalizing conn with
  | pure _ | raise _ => obtain ending | ending := ending <;> cases ending
  | lock _ _ inductionHypothesis | query _ inductionHypothesis
  | flush _ _ inductionHypothesis => exact inductionHypothesis _ (ends _) ending
  | commit _ _ | rollback _ _ =>
    obtain ending | ending := ending <;> cases ending
    exact ends.1

end EndsOnce

/-! ## All or nothing -/

variable (lost life) in
/-- A call whose client dies leaves all that it commits, or nothing. -/
theorem run_mortal {data : σ}
    (quietAfter : ∀ rest, (program.settle (.opened data)).1 = .committed rest ∨
      (program.settle (.opened data)).1 = .rolledBack rest → rest.Quiet) :
    ((program.mortal lost life).run data).2 =
      if program.outlives (.opened data) life then (program.run data).2 else data := by
  split
  · rename_i lives
    obtain ⟨left, settled⟩ := settle_mortal_of_outlives lost lives
    rw [run_eq_settle, settled, run_eq_settle]
    cases ends : program.settle (.opened data) with
    | mk ending after =>
      rw [ends] at quietAfter
      cases ending with
      | returned _ | raised _ => rfl
      | committed rest =>
        have quiet := quietAfter rest (.inl rfl)
        exact (quiet.mortal.run_data _).trans (quiet.run_data _).symm
      | rolledBack rest =>
        have quiet := quietAfter rest (.inr rfl)
        exact (quiet.mortal.run_data _).trans (quiet.run_data _).symm
  · rename_i dies
    exact congrArg Prod.snd (run_of_raised (settle_mortal_of_dies (Bool.not_eq_true _ ▸ dies)))

end Program

/-! ## Workloads that die -/

section Workload

variable {view : κ → σ → ν} {present : κ → σ → Bool} {invariant : ν → Prop} {unwanted : δ}

/-- A writer that dies is a writer, or dies before its first statement. -/
theorem Writer.mortal {key : κ} {program : Program σ κ δ ε α}
    (writer : Writer view present invariant unwanted key program) (life : Option Nat) :
    Writer view present invariant unwanted key (program.mortal lost life) ∨
      (program.mortal lost life).Quiet := by
  obtain ⟨next, starts, absent⟩ := writer.locksFirst
  have isWriter : (∃ rest, program.mortal lost life = .lock key rest ∧
      ∀ data, present key data = false → ∃ exception, rest data = .raise exception) →
        Writer view present invariant unwanted key (program.mortal lost life) := by
    intro locksFirst
    refine ⟨writer.isLocal.mortal, locksFirst, ?_, fun data holds => (writer.avoids data holds).mortal,
      ?_⟩
    · intro data holds rest ending
      cases lives : program.outlives (.opened data) life with
      | false =>
        rw [Program.settle_mortal_of_dies lives] at ending
        obtain ending | ending := ending <;> cases ending
      | true =>
        obtain ⟨left, settled⟩ := Program.settle_mortal_of_outlives lost lives
        have quiet := writer.quietAfter data holds
        rw [settled] at ending
        cases ends : (program.settle (.opened data)).1 with
        | returned _ | raised _ =>
          rw [ends] at ending
          obtain ending | ending := ending <;> cases ending
        | committed whole =>
          rw [ends] at ending
          obtain ending | ending := ending <;> cases ending
          exact (quiet whole (.inl ends)).mortal
        | rolledBack whole =>
          rw [ends] at ending
          obtain ending | ending := ending <;> cases ending
          exact (quiet whole (.inr ends)).mortal
    · intro data holds
      rw [Program.run_mortal lost life (writer.quietAfter data holds)]
      split
      · exact writer.preserves data holds
      · exact holds
  cases life with
  | none => exact .inl (isWriter ⟨next, starts, absent⟩)
  | some count =>
    cases count with
    | zero => exact .inr (by rw [starts]; trivial)
    | succ count =>
      refine .inl (isWriter ⟨fun data => (next data).kill lost count, by rw [starts]; rfl, ?_⟩)
      intro data missing
      obtain ⟨exception, raises⟩ := absent data missing
      have killed := congrArg (fun program => Program.kill lost program count) raises
      exact ⟨exception, killed.trans (by cases count <;> rfl)⟩

/-- The calls of clients with a span of life each. -/
def mortals (lost : ε) (call : ι → Program σ κ δ ε α) (life : ι → Option Nat) (i : ι) :
    Program σ κ δ ε α :=
  (call i).mortal lost (life i)

/-- The clients that live to the end of their transaction when the calls of the order run
    alone, one after another. -/
def survivors (call : ι → Program σ κ δ ε α) (life : ι → Option Nat) : List ι → σ → List ι
  | [], _ => []
  | i :: order, data =>
    if (call i).outlives (.opened data) (life i) then
      i :: survivors call life order ((call i).run data).2
    else survivors call life order data

variable {call : ι → Program σ κ δ ε α} {life : ι → Option Nat} {key : ι → κ} {initial : σ}

theorem survivors_append (first second : List ι) (data : σ) :
    survivors call life (first ++ second) data =
      survivors call life first data ++
        survivors call life second (serial call (survivors call life first data) data) := by
  induction first generalizing data with
  | nil => rfl
  | cons i first inductionHypothesis =>
    rw [List.cons_append, survivors, survivors]
    split
    · rw [inductionHypothesis]
      rfl
    · exact inductionHypothesis data

theorem survivors_cons_of_outlives {i : ι} {order : List ι} {data : σ}
    (lives : (call i).outlives (.opened data) (life i) = true) :
    survivors call life (i :: order) data =
      i :: survivors call life order ((call i).run data).2 := by
  rw [survivors, if_pos lives]

namespace Workload

variable (workload : Workload view present invariant unwanted call key initial)

include workload

theorem mortal (lost : ε) (life : ι → Option Nat) :
    Workload view present invariant unwanted (mortals lost call life) key initial where
  present_congr := workload.present_congr
  calls := by
    intro i
    obtain writer | quiet := workload.calls i
    · exact writer.mortal (life i)
    · exact .inr quiet.mortal
  initially := workload.initially

/-- The workload on what a call leaves. -/
theorem afterwards (i : ι) :
    Workload view present invariant unwanted call key ((call i).run initial).2 where
  present_congr := workload.present_congr
  calls := workload.calls
  initially := fun k => workload.call_invariant i (workload.initially k)

/-- Clients that die leave what the survivors alone would. -/
theorem serial_mortal (lost : ε) (life : ι → Option Nat) (order : List ι) :
    serial (mortals lost call life) order initial =
      serial call (survivors call life order initial) initial := by
  induction order generalizing initial with
  | nil => rfl
  | cons i order inductionHypothesis =>
    have left := Program.run_mortal lost (life i)
      fun rest => workload.quietAfter i (workload.initially (key i)) rest
    change serial _ order ((mortals lost call life i).run initial).2 = _
    rw [mortals, left, survivors]
    split
    · exact inductionHypothesis (workload.afterwards i)
    · exact inductionHypothesis workload

end Workload

/-! ## Every schedule -/

variable {sys : System ι σ κ δ ε α} {i : ι}

/-- Whatever clients die, the committed data is row by row that of the survivors. -/
theorem Linear.committed_mortal [DecidableEq ι]
    (linear : Linear view (mortals lost call life) key initial unwanted sys)
    (workload : Workload view present invariant unwanted call key initial) (k : κ) :
    view k sys.committed = view k (serial call
      (survivors call life (sys.lockOrder.filter fun i => sys.owner (key i) ≠ some i) initial)
      initial) := by
  rw [linear.committed (workload.mortal lost life) k, workload.serial_mortal]

/-- What a survivor sees after its own call is a later stage of the survivors' execution. -/
theorem SeenAfter.survivors {before after : List ι} {data : σ}
    (seen : SeenAfter view (mortals lost call life) key initial before i after data)
    (workload : Workload view present invariant unwanted call key initial)
    (lives : (call i).outlives
      (.opened (serial call (survivors call life before initial) initial)) (life i) = true) :
    SeenAfter view call key initial (survivors call life before initial) i
      (survivors call life after
        (serial call (survivors call life before initial ++ [i]) initial)) data := by
  obtain ⟨middle, later, rfl, same⟩ := seen
  refine ⟨_, _, survivors_append middle later _, ?_⟩
  rw [same, workload.serial_mortal, survivors_append, survivors_cons_of_outlives lives, serial_snoc]

/-- A client that has received its answer after locking its row is a survivor, and answers as
    it would in the serial execution of the survivors.  Once it has released the row, its own
    call is committed there. -/
theorem Linear.answers_mortal
    (linear : Linear view (mortals lost call life) key initial unwanted sys)
    (workload : Workload view present invariant unwanted call key initial) {answer : Except ε α}
    (answered : sys.Answered i answer) (received : answer ≠ .error lost)
    (ordered : i ∈ sys.lockOrder) :
    ∃ before after, survivors call life sys.lockOrder initial = before ++ i :: after ∧
      ((call i).settle (.opened (serial call before initial))).1.MayAnswer
          (SeenAfter view call key initial before i after) answer ∧
        (sys.owner (key i) ≠ some i → SeenAfter view call key initial before i after sys.committed) := by
  obtain ⟨before, after, split, may⟩ := linear.answers answered ordered
  rw [workload.serial_mortal] at may
  cases lives : (call i).outlives
      (.opened (serial call (survivors call life before initial) initial)) (life i) with
  | false =>
    -- a client that died in its transaction has received nothing
    rw [mortals, Program.settle_mortal_of_dies lives] at may
    exact absurd may received
  | true =>
    obtain ⟨left, settled⟩ := Program.settle_mortal_of_outlives lost lives
    rw [mortals, settled] at may
    refine ⟨survivors call life before initial, survivors call life after
      (serial call (survivors call life before initial ++ [i]) initial), ?_, ?_, ?_⟩
    · rw [split, survivors_append, survivors_cons_of_outlives lives, serial_snoc]
    · cases ends : ((call i).settle
          (.opened (serial call (survivors call life before initial) initial))).1 with
      | returned _ | raised _ =>
        rw [ends] at may
        exact may
      | committed rest | rolledBack rest =>
        rw [ends] at may
        exact (Program.mayAnswer_mortal may received).mono fun data seen =>
          seen.survivors workload lives
    · intro idle
      exact (linear.seenAfter idle split).survivors workload lives

end Workload

end

end SeismicIngest.Transaction
