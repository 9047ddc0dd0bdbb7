import SeismicIngest.Transaction.Program

/-! # Programs that stay on one row

`view key` is the part of the database that belongs to `key`.  A program is local
to `key` when everything it reads is a function of that part, everything it
writes stays in it, and the only row it locks is `key`.  Two databases with the
same part at `key` are then the same to the program, and the parts at all other
keys are none of its business:

* `LocalTo.settle_congr`, `LocalTo.run_congr`: equal parts give equal answers and
  equal parts afterwards;
* `LocalTo.exec_frame`, `LocalTo.run_frame`: the other parts are unchanged.
-/

namespace SeismicIngest.Transaction

section

variable {σ κ δ ε α β ν : Type} {view : κ → σ → ν} {key : κ}

/-! ## Local batches -/

structure Batch.LocalTo (view : κ → σ → ν) (key : κ) (batch : Batch σ δ) : Prop where
  rejects_congr : ∀ {left right}, view key left = view key right →
    batch.rejects left = batch.rejects right
  apply_congr : ∀ {left right}, view key left = view key right →
    view key (batch.apply left) = view key (batch.apply right)
  frame : ∀ {other}, other ≠ key → ∀ data, view other (batch.apply data) = view other data

theorem Batch.LocalTo.outcome_congr {batch : Batch σ δ} (isLocal : batch.LocalTo view key)
    {left right : σ} (same : view key left = view key right) :
    view key (batch.outcome left) = view key (batch.outcome right) := by
  rw [Batch.outcome, Batch.outcome, isLocal.rejects_congr same]
  cases batch.rejects right with
  | none => exact isLocal.apply_congr same
  | some _ => exact same

theorem Batch.LocalTo.outcome_frame {batch : Batch σ δ} (isLocal : batch.LocalTo view key)
    {other : κ} (different : other ≠ key) (data : σ) :
    view other (batch.outcome data) = view other data := by
  rw [Batch.outcome]
  cases batch.rejects data with
  | none => exact isLocal.frame different data
  | some _ => rfl

namespace Program

/-! ## Local programs -/

def LocalTo (view : κ → σ → ν) (key : κ) : Program σ κ δ ε α → Prop
  | .pure _ | .raise _ => True
  | .lock locked next =>
    locked = key ∧ (∀ left right, view key left = view key right → next left = next right) ∧
      ∀ data, (next data).LocalTo view key
  | .query next =>
    (∀ left right, view key left = view key right → next left = next right) ∧
      ∀ data, (next data).LocalTo view key
  | .flush batch next => batch.LocalTo view key ∧ ∀ answer, (next answer).LocalTo view key
  | .commit rest | .rollback rest => rest.LocalTo view key

/-- Every result the program can return satisfies `holds`. -/
def Returns (holds : α → Prop) : Program σ κ δ ε α → Prop
  | .pure result => holds result
  | .raise _ => True
  | .lock _ next | .query next => ∀ data, (next data).Returns holds
  | .flush _ next => ∀ answer, (next answer).Returns holds
  | .commit rest | .rollback rest => rest.Returns holds

/-- A locking read returns its view of some state. -/
theorem Returns.selectForUpdate (key : κ) (answer : σ → α) :
    (selectForUpdate key answer : Program σ κ δ ε α).Returns fun read => ∃ data, answer data = read :=
  fun data => ⟨data, rfl⟩

theorem Returns.bind {holds : α → Prop} {then' : β → Prop} {program : Program σ κ δ ε α}
    {next : α → Program σ κ δ ε β} (returns : program.Returns holds)
    (nextReturns : ∀ result, holds result → (next result).Returns then') :
    (program >>= next).Returns then' := by
  change (program.bind next).Returns then'
  induction program with
  | pure result => exact nextReturns result returns
  | raise _ => trivial
  | lock _ _ inductionHypothesis | query _ inductionHypothesis
  | flush _ _ inductionHypothesis => exact fun found => inductionHypothesis found (returns found)
  | commit _ inductionHypothesis | rollback _ inductionHypothesis =>
    exact inductionHypothesis returns

theorem Returns.of_all {holds : α → Prop} (all : ∀ result, holds result)
    (program : Program σ κ δ ε α) : program.Returns holds := by
  induction program with
  | pure result => exact all result
  | raise _ => trivial
  | lock _ _ inductionHypothesis | query _ inductionHypothesis
  | flush _ _ inductionHypothesis => exact inductionHypothesis
  | commit _ inductionHypothesis | rollback _ inductionHypothesis => exact inductionHypothesis

/-- Locality of a continuation is only needed on what the program returns. -/
theorem LocalTo.bind_returns {holds : α → Prop} {program : Program σ κ δ ε α}
    {next : α → Program σ κ δ ε β} (isLocal : program.LocalTo view key)
    (returns : program.Returns holds)
    (nextLocal : ∀ result, holds result → (next result).LocalTo view key) :
    (program >>= next).LocalTo view key := by
  change (program.bind next).LocalTo view key
  -- every statement of the program stays, and the continuation starts at its results
  induction program with
  | pure result => exact nextLocal result returns
  | raise _ => trivial
  | lock _ rest inductionHypothesis =>
    obtain ⟨own, reads, restLocal⟩ := isLocal
    refine ⟨own, ?_, fun data => inductionHypothesis data (restLocal data) (returns data)⟩
    intro left right same
    exact congrArg (fun program => Program.bind program next) (reads left right same)
  | query rest inductionHypothesis =>
    obtain ⟨reads, restLocal⟩ := isLocal
    refine ⟨?_, fun data => inductionHypothesis data (restLocal data) (returns data)⟩
    intro left right same
    exact congrArg (fun program => Program.bind program next) (reads left right same)
  | flush _ _ inductionHypothesis =>
    exact ⟨isLocal.1, fun answer => inductionHypothesis answer (isLocal.2 answer) (returns answer)⟩
  | commit _ inductionHypothesis | rollback _ inductionHypothesis =>
    exact inductionHypothesis isLocal returns

theorem LocalTo.bind {program : Program σ κ δ ε α} {next : α → Program σ κ δ ε β}
    (isLocal : program.LocalTo view key) (nextLocal : ∀ result, (next result).LocalTo view key) :
    (program >>= next).LocalTo view key :=
  isLocal.bind_returns (.of_all (fun _ => True.intro) program) fun result _ => nextLocal result

theorem LocalTo.catching {program : Program σ κ δ ε α} {handler : ε → Program σ κ δ ε α}
    (isLocal : program.LocalTo view key)
    (handlerLocal : ∀ exception, (handler exception).LocalTo view key) :
    (program.catching handler).LocalTo view key := by
  induction program with
  | pure _ => trivial
  | raise exception => exact handlerLocal exception
  | lock _ rest inductionHypothesis =>
    obtain ⟨own, reads, restLocal⟩ := isLocal
    refine ⟨own, ?_, fun data => inductionHypothesis data (restLocal data)⟩
    intro left right same
    exact congrArg (fun program => Program.catching program handler) (reads left right same)
  | query rest inductionHypothesis =>
    obtain ⟨reads, restLocal⟩ := isLocal
    refine ⟨?_, fun data => inductionHypothesis data (restLocal data)⟩
    intro left right same
    exact congrArg (fun program => Program.catching program handler) (reads left right same)
  | flush _ _ inductionHypothesis =>
    exact ⟨isLocal.1, fun answer => inductionHypothesis answer (isLocal.2 answer)⟩
  | commit _ inductionHypothesis | rollback _ inductionHypothesis =>
    exact inductionHypothesis isLocal

theorem LocalTo.select {answer : σ → α}
    (reads : ∀ left right, view key left = view key right → answer left = answer right) :
    (select answer : Program σ κ δ ε α).LocalTo view key :=
  ⟨fun left right same => congrArg Program.pure (reads left right same), fun _ => trivial⟩

theorem LocalTo.selectForUpdate {answer : σ → α}
    (reads : ∀ left right, view key left = view key right → answer left = answer right) :
    (selectForUpdate key answer : Program σ κ δ ε α).LocalTo view key :=
  ⟨rfl, fun left right same => congrArg Program.pure (reads left right same), fun _ => trivial⟩

theorem LocalTo.send {batch : Batch σ δ} (isLocal : batch.LocalTo view key) :
    (send batch : Program σ κ δ ε (Option δ)).LocalTo view key :=
  ⟨isLocal, fun _ => trivial⟩

theorem LocalTo.lift (outcome : Except ε α) :
    (lift outcome : Program σ κ δ ε α).LocalTo view key := by
  cases outcome <;> trivial

/-! ## One transaction -/

/-- A transaction ends the same way on two databases that agree at its key. -/
theorem LocalTo.settle_congr {program : Program σ κ δ ε α} (isLocal : program.LocalTo view key)
    (left right : Connection σ) (same : view key left.working = view key right.working) :
    (program.settle left).1 = (program.settle right).1 ∧
      view key (program.settle left).2.working = view key (program.settle right).2.working := by
  induction program generalizing left right with
  | pure _ | raise _ | commit _ _ | rollback _ _ => exact ⟨rfl, same⟩
  | lock _ next inductionHypothesis =>
    rw [settle, settle, isLocal.2.1 _ _ same]
    exact inductionHypothesis _ (isLocal.2.2 _) left right same
  | query next inductionHypothesis =>
    rw [settle, settle, isLocal.1 _ _ same]
    exact inductionHypothesis _ (isLocal.2 _) left right same
  | flush batch next inductionHypothesis =>
    -- the same verdict, and the same outcome at the key
    rw [settle, settle, isLocal.1.rejects_congr same]
    exact inductionHypothesis _ (isLocal.2 _) _ _ (isLocal.1.outcome_congr same)

/-! ## Refusals met on the way -/

/-- No flush of the first transaction is refused with `unwanted`. -/
def Avoids (unwanted : δ) : Program σ κ δ ε α → Connection σ → Prop
  | .pure _, _ | .raise _, _ | .commit _, _ | .rollback _, _ => True
  | .lock _ next, conn => (next conn.working).Avoids unwanted conn
  | .query next, conn => (next conn.working).Avoids unwanted conn
  | .flush batch next, conn =>
    batch.rejects conn.working ≠ some unwanted ∧
      (next (batch.rejects conn.working)).Avoids unwanted (conn.staged (batch.outcome conn.working))

theorem Avoids.bind {unwanted : δ} {program : Program σ κ δ ε α} {next : α → Program σ κ δ ε β}
    {conn : Connection σ} (avoids : program.Avoids unwanted conn)
    (nextAvoids : ∀ result, (program.settle conn).1 = .returned result →
      (next result).Avoids unwanted (program.settle conn).2) :
    (program >>= next).Avoids unwanted conn := by
  change (program.bind next).Avoids unwanted conn
  induction program generalizing conn with
  | pure result => exact nextAvoids result rfl
  | raise _ | commit _ _ | rollback _ _ => trivial
  | lock _ _ inductionHypothesis | query _ inductionHypothesis =>
    exact inductionHypothesis _ avoids nextAvoids
  | flush batch _ inductionHypothesis =>
    exact ⟨avoids.1, inductionHypothesis _ avoids.2 nextAvoids⟩

theorem Avoids.lift_bind {unwanted : δ} {outcome : Except ε α} {next : α → Program σ κ δ ε β}
    {conn : Connection σ}
    (nextAvoids : ∀ result, outcome = .ok result → (next result).Avoids unwanted conn) :
    (Program.lift outcome >>= next).Avoids unwanted conn := by
  cases outcome with
  | ok result => exact nextAvoids result rfl
  | error _ => trivial

theorem Avoids.catching {unwanted : δ} {program : Program σ κ δ ε α}
    {handler : ε → Program σ κ δ ε α} {conn : Connection σ} (avoids : program.Avoids unwanted conn)
    (handlerAvoids : ∀ exception conn, (handler exception).Avoids unwanted conn) :
    (program.catching handler).Avoids unwanted conn := by
  induction program generalizing conn with
  | pure _ => trivial
  | raise exception => exact handlerAvoids exception conn
  | commit _ _ | rollback _ _ => trivial
  | lock _ _ inductionHypothesis | query _ inductionHypothesis =>
    exact inductionHypothesis _ avoids
  | flush batch _ inductionHypothesis => exact ⟨avoids.1, inductionHypothesis _ avoids.2⟩

/-- A quiet program has nothing to be refused. -/
theorem Quiet.avoids {program : Program σ κ δ ε α} (quiet : program.Quiet) (unwanted : δ)
    (conn : Connection σ) : program.Avoids unwanted conn := by
  induction program with
  | pure _ | raise _ | commit _ _ | rollback _ _ => trivial
  | query _ inductionHypothesis => exact inductionHypothesis _ (quiet _)
  | lock _ _ _ | flush _ _ _ => exact quiet.elim

theorem LocalTo.avoids_congr {unwanted : δ} {program : Program σ κ δ ε α}
    (isLocal : program.LocalTo view key) {left right : Connection σ}
    (same : view key left.working = view key right.working) (avoids : program.Avoids unwanted left) :
    program.Avoids unwanted right := by
  induction program generalizing left right with
  | pure _ | raise _ | commit _ _ | rollback _ _ => trivial
  | lock _ next inductionHypothesis =>
    rw [Avoids, ← isLocal.2.1 _ _ same]
    exact inductionHypothesis _ (isLocal.2.2 _) same avoids
  | query next inductionHypothesis =>
    rw [Avoids, ← isLocal.1 _ _ same]
    exact inductionHypothesis _ (isLocal.2 _) same avoids
  | flush batch next inductionHypothesis =>
    rw [Avoids, ← isLocal.1.rejects_congr same]
    exact ⟨avoids.1, inductionHypothesis _ (isLocal.2 _) (isLocal.1.outcome_congr same) avoids.2⟩

/-! ## Whole runs -/

theorem LocalTo.exec_congr {program : Program σ κ δ ε α} (isLocal : program.LocalTo view key)
    {left right : Connection σ} (committed : view key left.committed = view key right.committed)
    (working : view key left.working = view key right.working) :
    (program.exec left).1 = (program.exec right).1 ∧
      view key (program.exec left).2.committed = view key (program.exec right).2.committed := by
  induction program generalizing left right with
  | pure _ | raise _ => exact ⟨rfl, committed⟩
  -- a commit hands on the working data, a rollback the committed data
  | commit _ inductionHypothesis => exact inductionHypothesis isLocal working working
  | rollback _ inductionHypothesis => exact inductionHypothesis isLocal committed committed
  | lock _ next inductionHypothesis =>
    rw [exec, exec, isLocal.2.1 _ _ working]
    exact inductionHypothesis _ (isLocal.2.2 _) committed working
  | query next inductionHypothesis =>
    rw [exec, exec, isLocal.1 _ _ working]
    exact inductionHypothesis _ (isLocal.2 _) committed working
  | flush batch next inductionHypothesis =>
    rw [exec, exec, isLocal.1.rejects_congr working]
    exact inductionHypothesis _ (isLocal.2 _) committed (isLocal.1.outcome_congr working)

theorem LocalTo.run_congr {program : Program σ κ δ ε α} (isLocal : program.LocalTo view key)
    {left right : σ} (same : view key left = view key right) :
    (program.run left).1 = (program.run right).1 ∧
      view key (program.run left).2 = view key (program.run right).2 :=
  isLocal.exec_congr same same

theorem LocalTo.exec_frame {program : Program σ κ δ ε α} (isLocal : program.LocalTo view key)
    {other : κ} (different : other ≠ key) {conn : Connection σ}
    (clean : view other conn.working = view other conn.committed) :
    view other (program.exec conn).2.committed = view other conn.committed := by
  induction program generalizing conn with
  | pure _ | raise _ => rfl
  | commit _ inductionHypothesis => exact (inductionHypothesis isLocal rfl).trans clean
  | rollback _ inductionHypothesis => exact inductionHypothesis isLocal rfl
  | lock _ next inductionHypothesis => exact inductionHypothesis _ (isLocal.2.2 _) clean
  | query next inductionHypothesis => exact inductionHypothesis _ (isLocal.2 _) clean
  | flush batch next inductionHypothesis =>
    exact inductionHypothesis _ (isLocal.2 _) ((isLocal.1.outcome_frame different _).trans clean)

theorem LocalTo.run_frame {program : Program σ κ δ ε α} (isLocal : program.LocalTo view key)
    {other : κ} (different : other ≠ key) (data : σ) :
    view other (program.run data).2 = view other data :=
  isLocal.exec_frame different rfl

end Program

end

end SeismicIngest.Transaction
