import SeismicIngest.Transaction.Local
import Mathlib.Logic.Function.Basic

/-! # Interleaved transactions

Clients run their programs against one database, one statement at a time and in
any order.  The isolation level is READ COMMITTED with row locks:

* every statement sees the latest committed data and, over it, the writes of its
  own transaction;
* `SELECT … FOR UPDATE` takes the lock of its row, and waits while another client
  has it; a row that does not exist has no lock;
* the locks of a transaction are released when it ends, by commit, by rollback or
  with the connection.

A schedule says which client moves next.  A client that waits does not move, so
every list of clients is a schedule.
-/

namespace SeismicIngest.Transaction

/-- A connection in the middle of its program: what is left of the program, and
    the writes of the open transaction. -/
structure Client (σ κ δ ε α : Type) where
  program : Program σ κ δ ε α
  staged : σ → σ

structure System (ι σ κ δ ε α : Type) where
  committed : σ
  /-- The client that holds the lock of a row. -/
  owner : κ → Option ι
  /-- The clients in the order in which their `SELECT … FOR UPDATE` was answered. -/
  lockOrder : List ι
  client : ι → Client σ κ δ ε α

namespace System

variable {ι σ κ δ ε α : Type} [DecidableEq ι] [DecidableEq κ]

/-- What client `i` sees. -/
def working (sys : System ι σ κ δ ε α) (i : ι) : σ :=
  (sys.client i).staged sys.committed

/-- The writes of a transaction after one more flush. -/
def stage (batch : Batch σ δ) (answer : Option δ) (staged : σ → σ) : σ → σ :=
  match answer with
  | none => fun data => batch.apply (staged data)
  | some _ => staged

omit [DecidableEq ι] [DecidableEq κ] in
theorem stage_rejects (batch : Batch σ δ) (staged : σ → σ) (data : σ) :
    stage batch (batch.rejects (staged data)) staged data = batch.outcome (staged data) := by
  rw [Batch.outcome]
  cases batch.rejects (staged data) <;> rfl

/-- Client `i` goes on with `program`. -/
def proceed (sys : System ι σ κ δ ε α) (i : ι) (program : Program σ κ δ ε α) :
    System ι σ κ δ ε α :=
  { sys with client := Function.update sys.client i ⟨program, (sys.client i).staged⟩ }

/-- The transaction of client `i` ends, and the client goes on with `program`. -/
def finish (sys : System ι σ κ δ ε α) (i : ι) (program : Program σ κ δ ε α) :
    System ι σ κ δ ε α :=
  { sys with
    owner := fun key => if sys.owner key = some i then none else sys.owner key
    client := Function.update sys.client i ⟨program, id⟩ }

/-- Client `i` moves, or waits (`none`). -/
def step (present : κ → σ → Bool) (sys : System ι σ κ δ ε α) (i : ι) :
    Option (System ι σ κ δ ε α) :=
  match (sys.client i).program with
  | .pure result => some (sys.finish i (.pure result))
  | .raise exception => some (sys.finish i (.raise exception))
  | .lock key next =>
    match sys.owner key with
    | some holder =>
      if holder = i then some (sys.proceed i (next (sys.working i))) else none
    | none =>
      let after := sys.proceed i (next (sys.working i))
      let owner := if present key (sys.working i) then
        Function.update sys.owner key (some i) else sys.owner
      some { after with owner, lockOrder := sys.lockOrder ++ [i] }
  | .query next => some (sys.proceed i (next (sys.working i)))
  | .flush batch next =>
    let answer := batch.rejects (sys.working i)
    let client := ⟨next answer, stage batch answer (sys.client i).staged⟩
    some { sys with client := Function.update sys.client i client }
  | .commit rest => some { sys.finish i rest with committed := sys.working i }
  | .rollback rest => some (sys.finish i rest)

/-- What a move of client `i` does, by the statement it has next. -/
inductive Move (present : κ → σ → Bool) (sys : System ι σ κ δ ε α) (i : ι) :
    System ι σ κ δ ε α → Prop where
  | close (answer : Except ε α) (left : (sys.client i).program = .lift answer) :
    Move present sys i (sys.finish i (.lift answer))
  | keep {key : κ} {next : σ → Program σ κ δ ε α} (left : (sys.client i).program = .lock key next)
    (owned : sys.owner key = some i) : Move present sys i (sys.proceed i (next (sys.working i)))
  | lock {key : κ} {next : σ → Program σ κ δ ε α} (left : (sys.client i).program = .lock key next)
    (free : sys.owner key = none) :
    Move present sys i
      { sys.proceed i (next (sys.working i)) with
        owner := if present key (sys.working i) then Function.update sys.owner key (some i)
          else sys.owner
        lockOrder := sys.lockOrder ++ [i] }
  | query {next : σ → Program σ κ δ ε α} (left : (sys.client i).program = .query next) :
    Move present sys i (sys.proceed i (next (sys.working i)))
  | flush {batch : Batch σ δ} {next : Option δ → Program σ κ δ ε α}
    (left : (sys.client i).program = .flush batch next) :
    Move present sys i
      { sys with
        client := Function.update sys.client i
          ⟨next (batch.rejects (sys.working i)),
            stage batch (batch.rejects (sys.working i)) (sys.client i).staged⟩ }
  | commit {rest : Program σ κ δ ε α} (left : (sys.client i).program = .commit rest) :
    Move present sys i { sys.finish i rest with committed := sys.working i }
  | rollback {rest : Program σ κ δ ε α} (left : (sys.client i).program = .rollback rest) :
    Move present sys i (sys.finish i rest)

theorem step_move {present : κ → σ → Bool} {sys after : System ι σ κ δ ε α} {i : ι}
    (moved : sys.step present i = some after) : sys.Move present i after := by
  cases left : (sys.client i).program with
  | pure result =>
    simp only [step, left, Option.some.injEq] at moved
    exact moved ▸ .close (.ok result) left
  | raise exception =>
    simp only [step, left, Option.some.injEq] at moved
    exact moved ▸ .close (.error exception) left
  | lock key next =>
    cases owned : sys.owner key with
    | some holder =>
      by_cases own : holder = i
      · simp only [step, left, owned, own, if_true, Option.some.injEq] at moved
        exact moved ▸ .keep left (by rw [owned, own])
      · simp [step, left, owned, own] at moved
    | none =>
      simp only [step, left, owned, Option.some.injEq] at moved
      exact moved ▸ .lock left owned
  | query next =>
    simp only [step, left, Option.some.injEq] at moved
    exact moved ▸ .query left
  | flush batch next =>
    simp only [step, left, Option.some.injEq] at moved
    exact moved ▸ .flush left
  | commit rest =>
    simp only [step, left, Option.some.injEq] at moved
    exact moved ▸ .commit left
  | rollback rest =>
    simp only [step, left, Option.some.injEq] at moved
    exact moved ▸ .rollback left

omit [DecidableEq κ] in
/-- The end of a transaction releases its locks. -/
theorem finish_releases (sys : System ι σ κ δ ε α) (i : ι) (program : Program σ κ δ ε α) (key : κ) :
    (sys.finish i program).owner key ≠ some i := by
  intro owns
  simp only [finish] at owns
  split at owns
  · cases owns
  · contradiction

/-- All clients before their first statement. -/
def start (program : ι → Program σ κ δ ε α) (data : σ) : System ι σ κ δ ε α :=
  ⟨data, fun _ => none, [], fun i => ⟨program i, id⟩⟩

def runSchedule (present : κ → σ → Bool) (sys : System ι σ κ δ ε α) (schedule : List ι) :
    System ι σ κ δ ε α :=
  schedule.foldl (fun sys i => (sys.step present i).getD sys) sys

/-- Client `i`, when its next statement is its commit. -/
def committing (sys : System ι σ κ δ ε α) (i : ι) : List ι :=
  match (sys.client i).program with
  | .commit _ => [i]
  | _ => []

/-- The clients that commit under a schedule, in the order of their commits. -/
def commitOrder (present : κ → σ → Bool) (sys : System ι σ κ δ ε α) : List ι → List ι
  | [] => []
  | i :: schedule =>
    sys.committing i ++ ((sys.step present i).getD sys).commitOrder present schedule

omit [DecidableEq ι] [DecidableEq κ] in
theorem committing_commit {sys : System ι σ κ δ ε α} {i : ι} {rest : Program σ κ δ ε α}
    (left : (sys.client i).program = .commit rest) : sys.committing i = [i] := by
  rw [committing, left]

omit [DecidableEq ι] [DecidableEq κ] in
theorem committing_lift {sys : System ι σ κ δ ε α} {i : ι} {answer : Except ε α}
    (left : (sys.client i).program = .lift answer) : sys.committing i = [] := by
  rw [committing, left]
  cases answer <;> rfl

/-- Whoever waits is not at its commit. -/
theorem committing_waits {present : κ → σ → Bool} {sys : System ι σ κ δ ε α} {i : ι}
    (waits : sys.step present i = none) : sys.committing i = [] := by
  cases left : (sys.client i).program with
  | commit rest => simp [step, left] at waits
  | _ => rw [committing, left]

/-- Client `i` has its answer. -/
def Answered (sys : System ι σ κ δ ε α) (i : ι) (answer : Except ε α) : Prop :=
  (sys.client i).program = .lift answer

/-- What holds at the start and survives every move holds after every schedule. -/
theorem runSchedule_induction {present : κ → σ → Bool} {invariant : System ι σ κ δ ε α → Prop}
    (preserved : ∀ sys i after, invariant sys → sys.step present i = some after → invariant after)
    {sys : System ι σ κ δ ε α} (initial : invariant sys) (schedule : List ι) :
    invariant (sys.runSchedule present schedule) := by
  induction schedule generalizing sys with
  | nil => exact initial
  | cons i schedule inductionHypothesis =>
    apply inductionHypothesis
    change invariant ((sys.step present i).getD sys)
    cases moved : sys.step present i with
    | none => exact initial
    | some after => exact preserved sys i after initial moved

end System

/-! ## Reads after the end of a transaction -/

namespace Program

variable {σ κ δ ε α : Type} {seen later : σ → Prop}

/-- One statement of a quiet program that finds `data` in the database. -/
inductive ReadStep (data : σ) : Program σ κ δ ε α → Program σ κ δ ε α → Prop where
  | pure (result : α) : ReadStep data (.pure result) (.pure result)
  | raise (exception : ε) : ReadStep data (.raise exception) (.raise exception)
  | query (next : σ → Program σ κ δ ε α) : ReadStep data (.query next) (next data)
  | commit (rest : Program σ κ δ ε α) : ReadStep data (.commit rest) rest
  | rollback (rest : Program σ κ δ ε α) : ReadStep data (.rollback rest) rest

/-- `current` is what is left of `program` after some statements, each of which
    found data that satisfies `seen`. -/
inductive Reads (seen : σ → Prop) (program : Program σ κ δ ε α) : Program σ κ δ ε α → Prop where
  | nothing : Reads seen program program
  | step {current next : Program σ κ δ ε α} {data : σ} :
    Reads seen program current → seen data → ReadStep data current next → Reads seen program next

theorem Reads.mono {program current : Program σ κ δ ε α} (reads : Reads seen program current)
    (weaker : ∀ data, seen data → later data) : Reads later program current := by
  induction reads with
  | nothing => exact .nothing
  | step _ found moved inductionHypothesis =>
    exact inductionHypothesis.step (weaker _ found) moved

theorem ReadStep.quiet {data : σ} {current next : Program σ κ δ ε α}
    (moved : ReadStep data current next) (quiet : current.Quiet) : next.Quiet := by
  cases moved with
  | pure _ | raise _ => trivial
  | query _ => exact quiet data
  | rollback _ => exact quiet
  | commit _ => exact quiet.elim

theorem Reads.quiet {program current : Program σ κ δ ε α} (reads : Reads seen program current)
    (quiet : program.Quiet) : current.Quiet := by
  induction reads with
  | nothing => exact quiet
  | step _ _ moved inductionHypothesis => exact moved.quiet inductionHypothesis

/-- The answers a quiet program can give when each read may see any data that
    satisfies `seen`. -/
def MayAnswer (seen : σ → Prop) : Program σ κ δ ε α → Except ε α → Prop
  | .pure result, answer => answer = .ok result
  | .raise exception, answer => answer = .error exception
  | .query next, answer => ∃ data, seen data ∧ (next data).MayAnswer seen answer
  | .commit rest, answer | .rollback rest, answer => rest.MayAnswer seen answer
  | .lock _ _, _ | .flush _ _, _ => False

theorem mayAnswer_lift (answer : Except ε α) :
    (lift answer : Program σ κ δ ε α).MayAnswer seen answer := by
  cases answer <;> rfl

/-- The answers of a program whose result is renamed. -/
theorem mayAnswer_map {β : Type} {rename : α → β} {program : Program σ κ δ ε α} {answer : Except ε β}
    (answers : (rename <$> program).MayAnswer seen answer) :
    ∃ result, program.MayAnswer seen result ∧ answer = result.map rename := by
  induction program with
  | pure result => exact ⟨.ok result, rfl, answers⟩
  | raise exception => exact ⟨.error exception, rfl, answers⟩
  | query next inductionHypothesis =>
    obtain ⟨data, found, answers⟩ := answers
    obtain ⟨result, may, renamed⟩ := inductionHypothesis data answers
    exact ⟨result, ⟨data, found, may⟩, renamed⟩
  | commit rest inductionHypothesis | rollback rest inductionHypothesis =>
    exact inductionHypothesis answers
  | lock _ _ _ | flush _ _ _ => exact answers.elim

theorem ReadStep.mayAnswer {data : σ} {current next : Program σ κ δ ε α} {answer : Except ε α}
    (moved : ReadStep data current next) (found : seen data) (answers : next.MayAnswer seen answer) :
    current.MayAnswer seen answer := by
  cases moved with
  | pure _ | raise _ | commit _ | rollback _ => exact answers
  | query _ => exact ⟨data, found, answers⟩

theorem Reads.mayAnswer {program current : Program σ κ δ ε α} {answer : Except ε α}
    (reads : Reads seen program current) (answers : current.MayAnswer seen answer) :
    program.MayAnswer seen answer := by
  induction reads with
  | nothing => exact answers
  | step _ found moved inductionHypothesis =>
    exact inductionHypothesis (moved.mayAnswer found answers)

end Program

/-- A client that only reads, and has nothing staged or locked, changes nothing but
    its own program. -/
theorem System.step_quiet {ι σ κ δ ε α : Type} [DecidableEq ι] [DecidableEq κ]
    {present : κ → σ → Bool} {sys after : System ι σ κ δ ε α} {i : ι}
    (quiet : (sys.client i).program.Quiet) (clean : (sys.client i).staged = id)
    (unlocked : ∀ key, sys.owner key ≠ some i) (moved : sys.step present i = some after) :
    ∃ next, (sys.client i).program.ReadStep sys.committed next ∧
      after = { sys with client := Function.update sys.client i ⟨next, id⟩ } := by
  have seen : sys.working i = sys.committed := by rw [System.working, clean]; rfl
  have ended : ∀ program, sys.finish i program =
      { sys with client := Function.update sys.client i ⟨program, id⟩ } := by
    intro program
    -- there is no lock to release
    simp only [System.finish, unlocked, if_false]
  cases left : (sys.client i).program with
  | pure result =>
    simp only [System.step, left, Option.some.injEq] at moved
    exact ⟨_, .pure result, by rw [← moved, ended]⟩
  | raise exception =>
    simp only [System.step, left, Option.some.injEq] at moved
    exact ⟨_, .raise exception, by rw [← moved, ended]⟩
  | query next =>
    simp only [System.step, left, Option.some.injEq] at moved
    exact ⟨_, .query next, by rw [← moved, System.proceed, clean, seen]⟩
  | rollback rest =>
    simp only [System.step, left, Option.some.injEq] at moved
    exact ⟨_, .rollback rest, by rw [← moved, ended]⟩
  | lock _ _ | flush _ _ | commit _ =>
    -- not the statements of a reader
    rw [left] at quiet
    exact quiet.elim

end SeismicIngest.Transaction
