import SeismicIngest.Transaction.Program

/-! # What a run sends

`Sends holds program conn` says that every batch the program sends, in a run in which
no other client moves, satisfies `holds`.

A program is `Strict` when it gives its transaction up as soon as one batch is refused.
A strict transaction that commits was never refused a batch (`Strict.sends`), so what the
database demands of a batch then holds of all of them.
-/

namespace SeismicIngest.Transaction

namespace Program

variable {σ κ δ ε α β : Type} {holds kind : Batch σ δ → Prop}

/-! ## Sent batches -/

def Sends (holds : Batch σ δ → Prop) : Program σ κ δ ε α → Connection σ → Prop
  | .pure _, _ | .raise _, _ => True
  | .lock _ next, conn | .query next, conn => (next conn.working).Sends holds conn
  | .flush batch next, conn =>
    holds batch ∧
      (next (batch.rejects conn.working)).Sends holds (conn.staged (batch.outcome conn.working))
  | .commit rest, conn => rest.Sends holds (.opened conn.working)
  | .rollback rest, conn => rest.Sends holds (.opened conn.committed)

theorem Quiet.sends {program : Program σ κ δ ε α} (quiet : program.Quiet) (conn : Connection σ) :
    program.Sends holds conn := by
  induction program generalizing conn with
  | pure _ | raise _ => trivial
  | query _ inductionHypothesis => exact inductionHypothesis _ (quiet _) conn
  | rollback _ inductionHypothesis => exact inductionHypothesis quiet _
  | lock _ _ _ | flush _ _ _ | commit _ _ => exact quiet.elim

theorem Sends.mono {weaker : Batch σ δ → Prop} (implies : ∀ batch, holds batch → weaker batch)
    {program : Program σ κ δ ε α} {conn : Connection σ} (sends : program.Sends holds conn) :
    program.Sends weaker conn := by
  induction program generalizing conn with
  | pure _ | raise _ => trivial
  | lock _ _ inductionHypothesis | query _ inductionHypothesis => exact inductionHypothesis _ sends
  | flush batch _ inductionHypothesis =>
    exact ⟨implies batch sends.1, inductionHypothesis _ sends.2⟩
  | commit _ inductionHypothesis | rollback _ inductionHypothesis => exact inductionHypothesis sends

/-- Renaming the result sends nothing more. -/
theorem Sends.map {program : Program σ κ δ ε α} {conn : Connection σ}
    (sends : program.Sends holds conn) (rename : α → β) : (rename <$> program).Sends holds conn := by
  change (program.bind fun result => .pure (rename result)).Sends holds conn
  induction program generalizing conn with
  | pure _ | raise _ => trivial
  | lock _ _ inductionHypothesis | query _ inductionHypothesis => exact inductionHypothesis _ sends
  | flush _ _ inductionHypothesis => exact ⟨sends.1, inductionHypothesis _ sends.2⟩
  | commit _ inductionHypothesis | rollback _ inductionHypothesis => exact inductionHypothesis sends

/-- A program in the transaction of another. -/
theorem Sends.bind {program : Program σ κ δ ε α} {next : α → Program σ κ δ ε β} {result : α}
    {conn after : Connection σ} (sends : program.Sends holds conn)
    (returns : program.settle conn = (.returned result, after))
    (nextSends : (next result).Sends holds after) : (program >>= next).Sends holds conn := by
  change (program.bind next).Sends holds conn
  induction program generalizing conn with
  | pure _ =>
    cases returns
    exact nextSends
  | raise _ | commit _ _ | rollback _ _ => cases returns
  | lock _ _ inductionHypothesis | query _ inductionHypothesis =>
    exact inductionHypothesis _ sends returns
  | flush _ _ inductionHypothesis => exact ⟨sends.1, inductionHypothesis _ sends.2 returns⟩

/-! ## Transactions that are given up -/

/-- The transaction ends in an exception or a rollback, whatever the database answers. -/
def GivesUp : Program σ κ δ ε α → Prop
  | .pure _ | .commit _ => False
  | .raise _ | .rollback _ => True
  | .lock _ next | .query next => ∀ data, (next data).GivesUp
  | .flush _ next => ∀ answer, (next answer).GivesUp

theorem GivesUp.bind {program : Program σ κ δ ε α} (givesUp : program.GivesUp)
    (next : α → Program σ κ δ ε β) : (program >>= next).GivesUp := by
  change (program.bind next).GivesUp
  induction program with
  | pure _ | commit _ _ => exact givesUp.elim
  | raise _ | rollback _ _ => trivial
  | lock _ _ inductionHypothesis | query _ inductionHypothesis | flush _ _ inductionHypothesis =>
    exact fun found => inductionHypothesis found (givesUp found)

theorem GivesUp.catching {program : Program σ κ δ ε α} (givesUp : program.GivesUp)
    {handler : ε → Program σ κ δ ε α} (handled : ∀ exception, (handler exception).GivesUp) :
    (program.catching handler).GivesUp := by
  induction program with
  | pure _ | commit _ _ => exact givesUp.elim
  | raise exception => exact handled exception
  | rollback _ _ => trivial
  | lock _ _ inductionHypothesis | query _ inductionHypothesis | flush _ _ inductionHypothesis =>
    exact fun found => inductionHypothesis found (givesUp found)

theorem GivesUp.not_committed {program rest : Program σ κ δ ε α} (givesUp : program.GivesUp)
    (conn : Connection σ) : (program.settle conn).1 ≠ .committed rest := by
  induction program generalizing conn with
  | pure _ | commit _ _ => exact givesUp.elim
  | raise _ | rollback _ _ => simp
  | lock _ _ inductionHypothesis | query _ inductionHypothesis =>
    exact inductionHypothesis _ (givesUp _) conn
  | flush _ _ inductionHypothesis => exact inductionHypothesis _ (givesUp _) _

/-! ## Strict programs -/

/-- Up to the end of the first transaction every batch is of one kind, and a refused
    batch gives the transaction up. -/
def Strict (kind : Batch σ δ → Prop) : Program σ κ δ ε α → Prop
  | .pure _ | .raise _ | .commit _ | .rollback _ => True
  | .lock _ next | .query next => ∀ data, (next data).Strict kind
  | .flush batch next =>
    kind batch ∧ (next none).Strict kind ∧ ∀ error, (next (some error)).GivesUp

theorem Strict.bind {program : Program σ κ δ ε α} {next : α → Program σ κ δ ε β}
    (strict : program.Strict kind) (nextStrict : ∀ result, (next result).Strict kind) :
    (program >>= next).Strict kind := by
  change (program.bind next).Strict kind
  induction program with
  | pure result => exact nextStrict result
  | raise _ | commit _ _ | rollback _ _ => trivial
  | lock _ _ inductionHypothesis | query _ inductionHypothesis =>
    exact fun data => inductionHypothesis data (strict data)
  | flush _ _ inductionHypothesis =>
    exact ⟨strict.1, inductionHypothesis _ strict.2.1, fun error => (strict.2.2 error).bind next⟩

theorem Strict.catching {program : Program σ κ δ ε α} {handler : ε → Program σ κ δ ε α}
    (strict : program.Strict kind)
    (handled : ∀ exception, (handler exception).Strict kind ∧ (handler exception).GivesUp) :
    (program.catching handler).Strict kind := by
  induction program with
  | pure _ | commit _ _ | rollback _ _ => trivial
  | raise exception => exact (handled exception).1
  | lock _ _ inductionHypothesis | query _ inductionHypothesis =>
    exact fun data => inductionHypothesis data (strict data)
  | flush _ _ inductionHypothesis =>
    exact ⟨strict.1, inductionHypothesis _ strict.2.1,
      fun error => (strict.2.2 error).catching fun exception => (handled exception).2⟩

theorem Quiet.strict {program : Program σ κ δ ε α} (quiet : program.Quiet) : program.Strict kind := by
  induction program with
  | pure _ | raise _ | commit _ _ | rollback _ _ => trivial
  | query _ inductionHypothesis => exact fun data => inductionHypothesis data (quiet data)
  | lock _ _ _ | flush _ _ _ => exact quiet.elim

theorem Strict.lift (outcome : Except ε α) : (lift outcome : Program σ κ δ ε α).Strict kind := by
  cases outcome <;> trivial

/-- A strict transaction that commits was refused nothing. -/
theorem Strict.sends {program rest : Program σ κ δ ε α} {conn : Connection σ}
    (strict : program.Strict kind) (ending : (program.settle conn).1 = .committed rest)
    (quiet : rest.Quiet) :
    program.Sends (fun batch => kind batch ∧ ∃ data, batch.rejects data = none) conn := by
  induction program generalizing conn with
  | pure _ | raise _ => trivial
  | rollback _ _ => cases ending
  | commit _ _ =>
    cases ending
    exact quiet.sends _
  | lock _ _ inductionHypothesis | query _ inductionHypothesis =>
    exact inductionHypothesis _ (strict _) ending
  | flush batch next inductionHypothesis =>
    obtain ⟨ofKind, accepted, refused⟩ := strict
    cases answer : batch.rejects conn.working with
    | none =>
      refine ⟨⟨ofKind, _, answer⟩, ?_⟩
      simp only [settle, answer] at ending ⊢
      exact inductionHypothesis none accepted ending
    | some error =>
      simp only [settle, answer] at ending
      exact absurd ending ((refused error).not_committed _)

end Program

end SeismicIngest.Transaction
