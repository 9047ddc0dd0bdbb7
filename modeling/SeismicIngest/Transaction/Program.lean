/-! # Transactional programs

A program that talks to a transactional database is a tree of statements: each
node is one statement and its continuation, and each leaf is a result or an
exception.  The tree says nothing about how statements of different clients
mix, so the same program has two readings: `run` below, in which no other
client moves, and the interleaved one of `Transaction.Interleaving`.

* `σ` is the database, `κ` names a lockable row, `δ` is the class of errors the
  database can answer a flush with, `ε` the exceptions of the program.
* A connection sees its own staged writes over the committed data.
* A transaction ends at its first commit or rollback; `settle` runs a program to
  that point, and `run` is determined by it (`run_eq_settle`).
-/

namespace SeismicIngest.Transaction

/-- The writes sent by one flush: when the database refuses them, and what they
    do to the data when it does not. -/
structure Batch (σ δ : Type) where
  rejects : σ → Option δ
  apply : σ → σ

/-- A program as the tree of the statements it sends. -/
inductive Program (σ κ δ ε α : Type) : Type where
  | pure (result : α)
  | raise (exception : ε)
  /-- `SELECT … FOR UPDATE` of the row `key`. -/
  | lock (key : κ) (next : σ → Program σ κ δ ε α)
  /-- Any other `SELECT`. -/
  | query (next : σ → Program σ κ δ ε α)
  /-- Staged writes; the continuation learns whether they were refused. -/
  | flush (batch : Batch σ δ) (next : Option δ → Program σ κ δ ε α)
  | commit (next : Program σ κ δ ε α)
  | rollback (next : Program σ κ δ ε α)

namespace Program

variable {σ κ δ ε α β : Type}

def bind (program : Program σ κ δ ε α) (next : α → Program σ κ δ ε β) : Program σ κ δ ε β :=
  match program with
  | .pure result => next result
  | .raise exception => .raise exception
  | .lock key rest => .lock key fun view => (rest view).bind next
  | .query rest => .query fun view => (rest view).bind next
  | .flush batch rest => .flush batch fun answer => (rest answer).bind next
  | .commit rest => .commit (rest.bind next)
  | .rollback rest => .rollback (rest.bind next)

instance : Monad (Program σ κ δ ε) where
  pure := .pure
  bind := bind

/-- `try program except exception: handler exception`. -/
def catching (program : Program σ κ δ ε α) (handler : ε → Program σ κ δ ε α) :
    Program σ κ δ ε α :=
  match program with
  | .pure result => .pure result
  | .raise exception => handler exception
  | .lock key rest => .lock key fun view => (rest view).catching handler
  | .query rest => .query fun view => (rest view).catching handler
  | .flush batch rest => .flush batch fun answer => (rest answer).catching handler
  | .commit rest => .commit (rest.catching handler)
  | .rollback rest => .rollback (rest.catching handler)

/-- The answer of one `SELECT`. -/
def select (view : σ → α) : Program σ κ δ ε α :=
  .query fun data => .pure (view data)

/-- The answer of one `SELECT … FOR UPDATE`. -/
def selectForUpdate (key : κ) (view : σ → α) : Program σ κ δ ε α :=
  .lock key fun data => .pure (view data)

/-- Send a batch of writes and report the refusal, if any. -/
def send (batch : Batch σ δ) : Program σ κ δ ε (Option δ) :=
  .flush batch .pure

/-- A computation that sends no statement. -/
def lift : Except ε α → Program σ κ δ ε α
  | .ok result => .pure result
  | .error exception => .raise exception

end Program

/-! ## One client alone -/

/-- What a connection works on: the committed data, and the same data with the
    connection's own staged writes. -/
structure Connection (σ : Type) where
  committed : σ
  working : σ

namespace Connection

variable {σ : Type}

def opened (data : σ) : Connection σ := ⟨data, data⟩

def staged (conn : Connection σ) (working : σ) : Connection σ :=
  { conn with working := working }

@[simp] theorem opened_committed (data : σ) : (opened data).committed = data := rfl
@[simp] theorem opened_working (data : σ) : (opened data).working = data := rfl
@[simp] theorem staged_committed (conn : Connection σ) (working : σ) :
    (conn.staged working).committed = conn.committed := rfl
@[simp] theorem staged_working (conn : Connection σ) (working : σ) :
    (conn.staged working).working = working := rfl
@[simp] theorem staged_staged (conn : Connection σ) (first second : σ) :
    (conn.staged first).staged second = conn.staged second := rfl

end Connection

namespace Batch

variable {σ δ : Type}

/-- The working data after a flush: a refused batch writes nothing. -/
def outcome (batch : Batch σ δ) (data : σ) : σ :=
  match batch.rejects data with
  | none => batch.apply data
  | some _ => data

theorem outcome_accepted {batch : Batch σ δ} {data : σ} (accepted : batch.rejects data = none) :
    batch.outcome data = batch.apply data := by
  simp [outcome, accepted]

theorem outcome_refused {batch : Batch σ δ} {data : σ} {error : δ}
    (refused : batch.rejects data = some error) : batch.outcome data = data := by
  simp [outcome, refused]

end Batch

/-- How the first transaction of a program ends.  `returned` and `raised` leave
    it open (closing the connection then discards it); the other two carry what
    the program still does afterwards. -/
inductive Ending (σ κ δ ε α : Type) : Type where
  | returned (result : α)
  | raised (exception : ε)
  | committed (rest : Program σ κ δ ε α)
  | rolledBack (rest : Program σ κ δ ε α)

namespace Program

variable {σ κ δ ε α β : Type}

/-- Run to the end of the first transaction. -/
def settle : Program σ κ δ ε α → Connection σ → Ending σ κ δ ε α × Connection σ
  | .pure result, conn => (.returned result, conn)
  | .raise exception, conn => (.raised exception, conn)
  | .lock _ next, conn => (next conn.working).settle conn
  | .query next, conn => (next conn.working).settle conn
  | .flush batch next, conn =>
    (next (batch.rejects conn.working)).settle (conn.staged (batch.outcome conn.working))
  | .commit rest, conn => (.committed rest, conn)
  | .rollback rest, conn => (.rolledBack rest, conn)

/-- Run to the end of the program. -/
def exec : Program σ κ δ ε α → Connection σ → Except ε α × Connection σ
  | .pure result, conn => (.ok result, conn)
  | .raise exception, conn => (.error exception, conn)
  | .lock _ next, conn => (next conn.working).exec conn
  | .query next, conn => (next conn.working).exec conn
  | .flush batch next, conn =>
    (next (batch.rejects conn.working)).exec (conn.staged (batch.outcome conn.working))
  | .commit rest, conn => rest.exec (.opened conn.working)
  | .rollback rest, conn => rest.exec (.opened conn.committed)

/-- One call on a fresh connection: its answer and the committed data it leaves.
    What is still staged at the end is discarded with the connection. -/
def run (program : Program σ κ δ ε α) (data : σ) : Except ε α × σ :=
  ((program.exec (.opened data)).1, (program.exec (.opened data)).2.committed)

/-! ## Equations -/

section Equations

variable (conn : Connection σ) (data : σ)

@[simp] theorem settle_pure (result : α) :
    (Pure.pure result : Program σ κ δ ε α).settle conn = (.returned result, conn) := rfl
@[simp] theorem settle_raise (exception : ε) :
    (raise exception : Program σ κ δ ε α).settle conn = (.raised exception, conn) := rfl
@[simp] theorem settle_select (view : σ → α) :
    (select view : Program σ κ δ ε α).settle conn = (.returned (view conn.working), conn) := rfl
@[simp] theorem settle_selectForUpdate (key : κ) (view : σ → α) :
    (selectForUpdate key view : Program σ κ δ ε α).settle conn =
      (.returned (view conn.working), conn) := rfl
@[simp] theorem settle_send (batch : Batch σ δ) :
    (send batch : Program σ κ δ ε (Option δ)).settle conn =
      (.returned (batch.rejects conn.working), conn.staged (batch.outcome conn.working)) := rfl
@[simp] theorem settle_lift_ok (result : α) :
    (lift (.ok result) : Program σ κ δ ε α).settle conn = (.returned result, conn) := rfl
@[simp] theorem settle_lift_error (exception : ε) :
    (lift (.error exception) : Program σ κ δ ε α).settle conn = (.raised exception, conn) := rfl
@[simp] theorem settle_commit (rest : Program σ κ δ ε α) :
    (commit rest).settle conn = (.committed rest, conn) := rfl
@[simp] theorem settle_rollback (rest : Program σ κ δ ε α) :
    (rollback rest).settle conn = (.rolledBack rest, conn) := rfl

@[simp] theorem exec_pure (result : α) :
    (Pure.pure result : Program σ κ δ ε α).exec conn = (.ok result, conn) := rfl
@[simp] theorem exec_raise (exception : ε) :
    (raise exception : Program σ κ δ ε α).exec conn = (.error exception, conn) := rfl
@[simp] theorem exec_select (view : σ → α) :
    (select view : Program σ κ δ ε α).exec conn = (.ok (view conn.working), conn) := rfl
@[simp] theorem exec_lift (outcome : Except ε α) :
    (lift outcome : Program σ κ δ ε α).exec conn = (outcome, conn) := by
  cases outcome <;> rfl

end Equations

/-- The end of a transaction seen through a continuation. -/
theorem settle_bind (program : Program σ κ δ ε α) (next : α → Program σ κ δ ε β)
    (conn : Connection σ) :
    (program >>= next).settle conn =
      match program.settle conn with
      | (.returned result, after) => (next result).settle after
      | (.raised exception, after) => (.raised exception, after)
      | (.committed rest, after) => (.committed (rest >>= next), after)
      | (.rolledBack rest, after) => (.rolledBack (rest >>= next), after) := by
  change (program.bind next).settle conn = _
  induction program generalizing conn with
  | pure _ | raise _ => rfl
  | lock _ _ inductionHypothesis | query _ inductionHypothesis =>
    exact inductionHypothesis conn.working conn
  | flush batch _ inductionHypothesis =>
    exact inductionHypothesis (batch.rejects conn.working) _
  | commit _ _ | rollback _ _ => rfl

/-- The end of a transaction seen through an exception handler. -/
theorem settle_catching (program : Program σ κ δ ε α) (handler : ε → Program σ κ δ ε α)
    (conn : Connection σ) :
    (program.catching handler).settle conn =
      match program.settle conn with
      | (.returned result, after) => (.returned result, after)
      | (.raised exception, after) => (handler exception).settle after
      | (.committed rest, after) => (.committed (rest.catching handler), after)
      | (.rolledBack rest, after) => (.rolledBack (rest.catching handler), after) := by
  induction program generalizing conn with
  | pure _ | raise _ => rfl
  | lock _ _ inductionHypothesis | query _ inductionHypothesis =>
    exact inductionHypothesis conn.working conn
  | flush batch _ inductionHypothesis =>
    exact inductionHypothesis (batch.rejects conn.working) _
  | commit _ _ | rollback _ _ => rfl

theorem exec_bind (program : Program σ κ δ ε α) (next : α → Program σ κ δ ε β)
    (conn : Connection σ) :
    (program >>= next).exec conn =
      match program.exec conn with
      | (.ok result, after) => (next result).exec after
      | (.error exception, after) => (.error exception, after) := by
  change (program.bind next).exec conn = _
  induction program generalizing conn with
  | pure _ | raise _ => rfl
  | lock _ _ inductionHypothesis | query _ inductionHypothesis =>
    exact inductionHypothesis conn.working conn
  | flush batch _ inductionHypothesis =>
    exact inductionHypothesis (batch.rejects conn.working) _
  | commit _ inductionHypothesis | rollback _ inductionHypothesis =>
    exact inductionHypothesis _

theorem exec_bind_of_ok {program : Program σ κ δ ε α} {next : α → Program σ κ δ ε β}
    {conn after : Connection σ} {result : α} (executed : program.exec conn = (.ok result, after)) :
    (program >>= next).exec conn = (next result).exec after := by
  rw [exec_bind, executed]

/-- A program that answers has answered at every `do` step. -/
theorem exec_bind_ok {program : Program σ κ δ ε α} {next : α → Program σ κ δ ε β}
    {conn : Connection σ} {answer : β} (answered : ((program >>= next).exec conn).1 = .ok answer) :
    ∃ result, (program.exec conn).1 = .ok result ∧
      ((next result).exec (program.exec conn).2).1 = .ok answer := by
  rw [exec_bind] at answered
  cases executed : program.exec conn with
  | mk outcome after =>
    rw [executed] at answered
    cases outcome with
    | ok result => exact ⟨result, rfl, answered⟩
    | error exception => cases answered

/-- A program that raises has raised in its first part, or in what follows it. -/
theorem exec_bind_error {program : Program σ κ δ ε α} {next : α → Program σ κ δ ε β}
    {conn : Connection σ} {exception : ε}
    (raised : ((program >>= next).exec conn).1 = .error exception) :
    (program.exec conn).1 = .error exception ∨
      ∃ result, (program.exec conn).1 = .ok result ∧
        ((next result).exec (program.exec conn).2).1 = .error exception := by
  rw [exec_bind] at raised
  cases executed : program.exec conn with
  | mk outcome after =>
    rw [executed] at raised
    cases outcome with
    | ok result => exact .inr ⟨result, rfl, raised⟩
    | error earlier =>
      cases raised
      exact .inl rfl

/-- A handler that raises again gives no answer of its own. -/
theorem exec_catching_ok {program : Program σ κ δ ε α} {handler : ε → Program σ κ δ ε α}
    (raises : ∀ exception conn answer, ((handler exception).exec conn).1 ≠ .ok answer)
    {conn : Connection σ} {answer : α}
    (answered : ((program.catching handler).exec conn).1 = .ok answer) :
    (program.exec conn).1 = .ok answer := by
  induction program generalizing conn with
  | pure _ => exact answered
  | raise exception => exact absurd answered (raises exception conn answer)
  | lock _ _ inductionHypothesis | query _ inductionHypothesis =>
    exact inductionHypothesis conn.working answered
  | flush batch _ inductionHypothesis =>
    exact inductionHypothesis (batch.rejects conn.working) answered
  | commit _ inductionHypothesis | rollback _ inductionHypothesis =>
    exact inductionHypothesis answered

/-- A handler that hands on what it catches adds no exception. -/
theorem exec_catching_error {program : Program σ κ δ ε α} {handler : ε → Program σ κ δ ε α}
    (rethrows : ∀ exception conn, ((handler exception).exec conn).1 = .error exception)
    {conn : Connection σ} {exception : ε}
    (raised : ((program.catching handler).exec conn).1 = .error exception) :
    (program.exec conn).1 = .error exception := by
  induction program generalizing conn with
  | pure _ => exact raised
  | raise earlier => exact (rethrows earlier conn).symm.trans raised
  | lock _ _ inductionHypothesis | query _ inductionHypothesis =>
    exact inductionHypothesis conn.working raised
  | flush batch _ inductionHypothesis =>
    exact inductionHypothesis (batch.rejects conn.working) raised
  | commit _ inductionHypothesis | rollback _ inductionHypothesis =>
    exact inductionHypothesis raised

/-- A transaction commits nothing before it ends. -/
theorem settle_committed (program : Program σ κ δ ε α) (conn : Connection σ) :
    (program.settle conn).2.committed = conn.committed := by
  induction program generalizing conn with
  | pure _ | raise _ | commit _ _ | rollback _ _ => rfl
  | lock _ _ inductionHypothesis | query _ inductionHypothesis =>
    exact inductionHypothesis conn.working conn
  | flush batch _ inductionHypothesis =>
    exact inductionHypothesis (batch.rejects conn.working) _

/-- A whole run is the first transaction followed by what comes after it. -/
theorem exec_eq_settle (program : Program σ κ δ ε α) (conn : Connection σ) :
    program.exec conn =
      match program.settle conn with
      | (.returned result, after) => (.ok result, after)
      | (.raised exception, after) => (.error exception, after)
      | (.committed rest, after) => rest.exec (.opened after.working)
      | (.rolledBack rest, after) => rest.exec (.opened after.committed) := by
  induction program generalizing conn with
  | pure _ | raise _ | commit _ _ | rollback _ _ => rfl
  | lock _ _ inductionHypothesis | query _ inductionHypothesis =>
    exact inductionHypothesis conn.working conn
  | flush batch _ inductionHypothesis =>
    exact inductionHypothesis (batch.rejects conn.working) _

theorem run_eq_settle (program : Program σ κ δ ε α) (data : σ) :
    program.run data =
      match program.settle (.opened data) with
      | (.returned result, _) => (.ok result, data)
      | (.raised exception, _) => (.error exception, data)
      | (.committed rest, after) => rest.run after.working
      | (.rolledBack rest, _) => rest.run data := by
  -- where nothing is committed the database is the one the run began with
  have unchanged := program.settle_committed (.opened data)
  rw [run, exec_eq_settle]
  cases settled : program.settle (.opened data) with
  | mk ending after =>
    rw [settled] at unchanged
    cases ending with
    | returned _ | raised _ => exact Prod.ext rfl unchanged
    | committed _ => rfl
    | rolledBack rest => simp only [run]; rw [unchanged]; rfl

section Endings

variable {program : Program σ κ δ ε α} {data : σ}

theorem run_of_returned {result : α}
    (ending : (program.settle (.opened data)).1 = .returned result) :
    program.run data = (.ok result, data) := by
  rw [run_eq_settle, ← Prod.eta (program.settle (.opened data)), ending]

theorem run_of_raised {exception : ε}
    (ending : (program.settle (.opened data)).1 = .raised exception) :
    program.run data = (.error exception, data) := by
  rw [run_eq_settle, ← Prod.eta (program.settle (.opened data)), ending]

theorem run_of_committed {rest : Program σ κ δ ε α}
    (ending : (program.settle (.opened data)).1 = .committed rest) :
    program.run data = rest.run (program.settle (.opened data)).2.working := by
  rw [run_eq_settle, ← Prod.eta (program.settle (.opened data)), ending]

theorem run_of_rolledBack {rest : Program σ κ δ ε α}
    (ending : (program.settle (.opened data)).1 = .rolledBack rest) :
    program.run data = rest.run data := by
  rw [run_eq_settle, ← Prod.eta (program.settle (.opened data)), ending]

variable {next : α → Program σ κ δ ε β}

/-- A first part that only reads hands its result on. -/
theorem run_bind_of_returned {result : α}
    (settled : program.settle (.opened data) = (.returned result, .opened data)) :
    (program >>= next).run data = (next result).run data := by
  rw [run_eq_settle, settle_bind, settled, ← run_eq_settle]

theorem run_bind_of_raised {exception : ε} {after : Connection σ}
    (settled : program.settle (.opened data) = (.raised exception, after)) :
    (program >>= next).run data = (.error exception, data) := by
  rw [run_eq_settle, settle_bind, settled]

theorem run_bind_of_committed {rest : Program σ κ δ ε α} {after : Connection σ}
    (settled : program.settle (.opened data) = (.committed rest, after)) :
    (program >>= next).run data = (rest >>= next).run after.working := by
  rw [run_eq_settle, settle_bind, settled]

end Endings

@[simp] theorem run_pure (result : α) (data : σ) :
    (Pure.pure result : Program σ κ δ ε α).run data = (.ok result, data) := rfl
@[simp] theorem run_raise (exception : ε) (data : σ) :
    (raise exception : Program σ κ δ ε α).run data = (.error exception, data) := rfl

/-- Renaming the result of a program. -/
theorem run_map (rename : α → β) (program : Program σ κ δ ε α) (data : σ) :
    (rename <$> program).run data = ((program.run data).1.map rename, (program.run data).2) := by
  change (program >>= fun result => Pure.pure (rename result)).run data = _
  rw [run, exec_bind]
  cases executed : program.exec (.opened data) with
  | mk answer after => cases answer <;> simp [run, executed, Except.map]

theorem map_map {γ : Type} (after : β → γ) (rename : α → β) (program : Program σ κ δ ε α) :
    after <$> rename <$> program = (fun result => after (rename result)) <$> program := by
  change (program.bind _).bind _ = program.bind _
  induction program with
  | pure _ | raise _ => rfl
  | lock _ _ inductionHypothesis => exact congrArg (Program.lock _) (funext inductionHypothesis)
  | query _ inductionHypothesis => exact congrArg Program.query (funext inductionHypothesis)
  | flush _ _ inductionHypothesis => exact congrArg (Program.flush _) (funext inductionHypothesis)
  | commit _ inductionHypothesis => exact congrArg Program.commit inductionHypothesis
  | rollback _ inductionHypothesis => exact congrArg Program.rollback inductionHypothesis

/-! ## Programs that only read -/

/-- No row is locked and nothing is written or committed: plain `SELECT`s, and rollbacks. -/
def Quiet : Program σ κ δ ε α → Prop
  | .pure _ | .raise _ => True
  | .query next => ∀ data, (next data).Quiet
  | .rollback rest => rest.Quiet
  | .lock _ _ | .flush _ _ | .commit _ => False

theorem Quiet.bind {program : Program σ κ δ ε α} {next : α → Program σ κ δ ε β}
    (quiet : program.Quiet) (nextQuiet : ∀ result, (next result).Quiet) :
    (program >>= next).Quiet := by
  change (program.bind next).Quiet
  induction program with
  | pure result => exact nextQuiet result
  | raise _ => trivial
  | query _ inductionHypothesis => exact fun data => inductionHypothesis data (quiet data)
  | rollback _ inductionHypothesis => exact inductionHypothesis quiet
  | lock _ _ _ | flush _ _ _ | commit _ _ => exact quiet.elim

theorem Quiet.select (view : σ → α) : (select view : Program σ κ δ ε α).Quiet :=
  fun _ => trivial

theorem Quiet.lift (outcome : Except ε α) : (lift outcome : Program σ κ δ ε α).Quiet := by
  cases outcome <;> trivial

/-- A quiet program leaves a fresh connection as it found it. -/
theorem Quiet.exec_opened {program : Program σ κ δ ε α} (quiet : program.Quiet) (data : σ) :
    (program.exec (.opened data)).2 = .opened data := by
  induction program with
  | pure _ | raise _ => rfl
  | query _ inductionHypothesis => exact inductionHypothesis data (quiet data)
  | rollback _ inductionHypothesis => exact inductionHypothesis quiet
  | lock _ _ _ | flush _ _ _ | commit _ _ => exact quiet.elim

theorem Quiet.run_data {program : Program σ κ δ ε α} (quiet : program.Quiet) (data : σ) :
    (program.run data).2 = data := by
  rw [run, quiet.exec_opened]; rfl

/-- The rest of a quiet program is quiet. -/
theorem Quiet.settle_rest {program rest : Program σ κ δ ε α} {conn : Connection σ}
    (quiet : program.Quiet)
    (ending : (program.settle conn).1 = .committed rest ∨
      (program.settle conn).1 = .rolledBack rest) : rest.Quiet := by
  induction program with
  | pure _ | raise _ => obtain ending | ending := ending <;> cases ending
  | rollback _ _ =>
    obtain ending | ending := ending <;> cases ending
    exact quiet
  | query _ inductionHypothesis => exact inductionHypothesis _ (quiet _) ending
  | lock _ _ _ | flush _ _ _ | commit _ _ => exact quiet.elim

end Program

end SeismicIngest.Transaction
