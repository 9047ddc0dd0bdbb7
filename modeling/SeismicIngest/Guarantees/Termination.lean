import SeismicIngest.Transaction.Progress
import SeismicIngest.Guarantees.Restarts

/-! # Writers are always answered

No put and no compaction sends more than `statementBound` statements, and none asks for
the row of a second session.  So clients of any number of sessions, some of which may
die, never block each other for good, and under every fair schedule all of them end with
an answer, with every row unlocked, and with the tables of a serial execution.
-/

namespace SeismicIngest

open Transaction

section

variable {H : Bytes → String} {lost : Raised}

/-! ## How many statements a call sends -/

section Bounds

theorem commit_within (writes : List Write) : (Db.commit writes).Within 2 := by
  refine (Program.Within.send _).followed 1 (fun answer => ?_) (by omega)
  cases answer <;> trivial

theorem refresh_within (session : UploadSession) : (Db.refresh session).Within 1 := by
  refine (Program.Within.select _).followed 0 (fun found => ?_) (by omega)
  cases found <;> trivial

theorem getLockedSession_within (id : String) : (getLockedSession id).Within 1 := by
  refine (Program.Within.selectForUpdate _ _).followed 0 (fun found => ?_) (by omega)
  cases found <;> trivial

theorem archivedBytes_within (id : String) (begin stop : Int) :
    (archivedBytes id begin stop).Within 1 := by
  rw [archivedBytes]
  split
  · exact Program.Within.pure _ 1
  · refine Program.Within.followed (Program.Within.select _) 0 (fun chunks => ?_) (by omega)
    cases archivedLoop stop chunks begin [] <;> exact Program.Within.pure _ 0

/-- The number of the row, the row, and a rollback when it is refused. -/
theorem addAudit_within (env : Env) (changes : List Write) (session : UploadSession)
    (event : AuditKind) (totalBytes : Int) (wholeSha256 : String)
    (targetChunkBytes chunksBefore chunksAfter : Option Int) :
    (addAudit env changes session event totalBytes wholeSha256 targetChunkBytes chunksBefore
      chunksAfter).Within 3 := by
  have sequence : (nextAuditSequence session.id).Within 1 :=
    (Program.Within.select _).followed 0 (fun _ => Program.Within.pure _ 0) (by omega)
  refine sequence.followed 2 (fun number => ?_) (by omega)
  refine (Program.Within.send _).followed 1 (fun answer => ?_) (by omega)
  cases answer <;> trivial

theorem terminalReplay_within (session : UploadSession) (start length : Int) (chunkDigest : String)
    (payload : Bytes) : (terminalReplay session start length chunkDigest payload).Within 1 := by
  rw [terminalReplay]
  split
  · refine (archivedBytes_within _ _ _).followed 0 (fun archived => ?_) (by omega)
    split <;> trivial
  · trivial

theorem verifyAndFinalize_within (env : Env) (session : UploadSession) :
    (verifyAndFinalize H env session).Within 4 := by
  refine (Program.Within.select _).followed 3 (fun chunks => ?_) (by omega)
  split
  · split
    · exact (addAudit_within _ _ _ _ _ _ _ _ _).followed 0 (fun _ => Program.Within.pure _ 0) (by omega)
    · trivial
  · trivial

theorem acknowledge_within (session : UploadSession) (finalized : Bool) (start declaredLength : Int)
    (chunkDigest : String) :
    (acknowledge session finalized start declaredLength chunkDigest).Within 1 := by
  refine (refresh_within session).followed 0 (fun stored => ?_) (by omega)
  split <;> trivial

theorem putForward_within (env : Env) (id : String) (session : UploadSession)
    (start declaredLength : Int) (chunkDigest : String) (payload : Bytes) :
    (putForward H env id session start declaredLength chunkDigest payload).Within 8 := by
  refine (Program.Within.send _).followed 7 (fun answer => ?_) (by omega)
  split
  · have rolledBack : Db.rollback.Within 1 := trivial
    refine rolledBack.followed 2 (fun _ => ?_) (by omega)
    refine (getLockedSession_within id).followed 1 (fun _ => ?_) (by omega)
    refine (archivedBytes_within _ _ _).followed 0 (fun archived => ?_) (by omega)
    split <;> trivial
  · trivial
  · split
    · refine (verifyAndFinalize_within env _).followed 3 (fun finalized => ?_) (by omega)
      exact (commit_within _).followed 1 (fun _ => acknowledge_within _ _ _ _ _) (by omega)
    · exact (commit_within _).followed 1 (fun _ => acknowledge_within _ _ _ _ _) (by omega)

theorem putActive_within (env : Env) (id : String) (session : UploadSession)
    (start declaredLength : Int) (chunkDigest : String) (payload : Bytes) :
    (putActive H env id session start declaredLength chunkDigest payload).Within 8 := by
  rw [putActive]
  split
  · exact putForward_within env id session start declaredLength chunkDigest payload
  · split
    · exact (commit_within _).followed 0 (fun _ => Program.Within.pure _ 0) (by omega)
    · split
      · refine (archivedBytes_within _ _ _).followed 2 (fun archived => ?_) (by omega)
        split
        · exact (commit_within _).followed 0 (fun _ => Program.Within.pure _ 0) (by omega)
        · trivial
      · trivial

theorem putChunk_within (env : Env) (id : String) (start declaredLength : Int) (chunkDigest : String)
    (payload : Bytes) : (putChunk H env id start declaredLength chunkDigest payload).Within 9 := by
  refine (getLockedSession_within id).followed 8 (fun session => ?_) (by omega)
  split
  · trivial
  · split
    · refine (terminalReplay_within _ _ _ _ _).followed 2 (fun echoed => ?_) (by omega)
      exact (commit_within _).followed 0 (fun _ => Program.Within.pure _ 0) (by omega)
    · exact putActive_within env id session start declaredLength chunkDigest payload

theorem flushOrRaise_within (writes : List Write) : (Db.flushOrRaise writes).Within 1 := by
  refine (Program.Within.send _).followed 0 (fun answer => ?_) (by omega)
  cases answer <;> trivial

theorem compactRewrite_within (env : Env) (id : String) (session : UploadSession) (target : Int)
    (old : List Chunk) (buffer : Bytes) (layout : List LayoutRow) :
    (compactRewrite H env id session target old buffer layout).Within 8 := by
  refine (flushOrRaise_within _).followed 7 (fun _ => ?_) (by omega)
  refine (flushOrRaise_within _).followed 6 (fun _ => ?_) (by omega)
  refine (Program.Within.select _).followed 5 (fun verifyChunks => ?_) (by omega)
  refine (Program.Within.lift _).followed 5 (fun verified => ?_) (by omega)
  refine (addAudit_within _ _ _ _ _ _ _ _ _).followed 2 (fun _ => ?_) (by omega)
  exact (commit_within _).followed 0 (fun _ => Program.Within.pure _ 0) (by omega)

theorem compactBody_within (env : Env) (id : String) (session : UploadSession) (target : Int) :
    (compactBody H env id session target).Within 9 := by
  refine (Program.Within.select _).followed 8 (fun old => ?_) (by omega)
  refine (Program.Within.lift _).followed 8 (fun buffer => ?_) (by omega)
  dsimp only
  split
  · refine (addAudit_within _ _ _ _ _ _ _ _ _).followed 2 (fun _ => ?_) (by omega)
    exact (commit_within _).followed 0 (fun _ => Program.Within.pure _ 0) (by omega)
  · exact compactRewrite_within env id session target old buffer _

theorem compactSealed_within (env : Env) (id : String) (target : Int) :
    (compactSealed H env id target).Within 11 := by
  rw [compactSealed]
  split
  · trivial
  · refine (getLockedSession_within id).followed 10 (fun session => ?_) (by omega)
    split
    · trivial
    · have rolledBack : ∀ exception : Raised, (do
          Db.rollback
          .raise exception : Db CompactResult).Within 1 := fun _ => trivial
      exact (compactBody_within env id session target).catching rolledBack

/-- The most statements that a put or a compaction sends. -/
def statementBound : Nat := 11

theorem Call.WritesTo.within {id : String} {call : Call} (writes : call.WritesTo id) :
    (call.program H).Within statementBound := by
  cases writes with
  | putChunk env start declaredLength chunkDigest payload =>
    exact (putChunk_within env id start declaredLength chunkDigest payload).followed 0
      (fun _ => Program.Within.pure _ 0) (by decide)
  | compactSealed env target =>
    exact (compactSealed_within env id target).followed 0 (fun _ => Program.Within.pure _ 0) (by decide)

end Bounds

/-! ## Clients -/

section Clients

variable {ι : Type} [DecidableEq ι]

variable (H) in
/-- Clients that have all come to their end. -/
structure Finished (calls : ι → Call) (life : ι → Option Nat) (initial : Store) (sys : Clients ι) :
    Prop where
  answered : ∀ i, ∃ answer, sys.Answered i answer
  unlocked : ∀ id, sys.owner id = none
  /-- Nothing is left uncommitted or half done. -/
  views : SameViews sys.committed
    (serveAll H ((committers H calls life initial sys.lockOrder).map calls) initial)

variable (H lost) in
/-- Clients of which some may die can always go on, and come to their end. -/
structure Progresses (calls : ι → Call) (life : ι → Option Nat) (initial : Store) : Prop where
  /-- Whoever waits, waits for one that can move. -/
  unstuck : ∀ schedule i,
    let sys := runMortals H lost calls life initial schedule
    sys.step sessionPresent i = none →
      ∃ id j, sys.owner id = some j ∧ j ≠ i ∧ ∃ after, sys.step sessionPresent j = some after
  /-- A round is a stretch of the schedule in which every client has a turn. -/
  finishes : ∀ [Fintype ι] (rounds : List (List ι)), (∀ round ∈ rounds, ∀ i, i ∈ round) →
    Fintype.card ι * (statementBound + 1) ≤ rounds.length →
      Finished H calls life initial (runMortals H lost calls life initial rounds.flatten)

/-- Writers never block each other for good, whatever clients die. -/
theorem clients_progress {calls : ι → Call} {key : ι → String} {initial : Store}
    (history : Survives H lost Store.empty initial) (writers : ∀ i, (calls i).WritesTo (key i))
    (life : ι → Option Nat) : Progresses H lost calls life initial := by
  have sound := history.sound Sound.empty
  have workload := (clients_workload (H := H) writers sound).mortal lost life
  refine { unstuck := ?_, finishes := ?_ }
  · intro schedule i sys waits
    have linear := Linear.runSchedule workload schedule
    exact linear.blocked waits
  · intro finite rounds fair enough
    have within : ∀ i, (mortals lost (clientProgram H calls) life i).Within statementBound :=
      fun i => (writers i).within.mortal (life i)
    have room : (Finset.univ.sum fun _ : ι => statementBound + 1) ≤ rounds.length := by
      rw [Finset.sum_const_nat fun _ _ => rfl, Finset.card_univ]
      exact enough
    have closed := workload.finishes within fair room
    have unlocked : ∀ id, (runMortals H lost calls life initial rounds.flatten).owner id = none := by
      intro id
      cases owned : (runMortals H lost calls life initial rounds.flatten).owner id with
      | none => rfl
      | some i => exact absurd owned ((closed i).unlocked id)
    refine { answered := fun i => (closed i).answered, unlocked := unlocked, views := ?_ }
    -- with every row free the whole lock order is released
    have views := (survived lost sound writers life rounds.flatten).views
    have all : released key (runMortals H lost calls life initial rounds.flatten) =
        (runMortals H lost calls life initial rounds.flatten).lockOrder :=
      List.filter_eq_self.mpr fun i _ => by simp [unlocked]
    rw [all] at views
    exact views

/-- Two clients that send the same byte, of which the first dies inside its transaction. -/
theorem clients_progress_death :
    Progresses (fun _ => "d") nobody sendTwice firstDies restarted ∧
      Finished (fun _ => "d") sendTwice firstDies restarted
        (runMortals (fun _ => "d") nobody sendTwice firstDies restarted
          (List.replicate 24 [true, false]).flatten) := by
  have progresses := clients_progress restarted_survives sendTwice_writers firstDies
  refine ⟨progresses, progresses.finishes _ ?_ (by decide)⟩
  intro round member i
  rw [(List.mem_replicate.mp member).2]
  cases i <;> simp

end Clients

end

end SeismicIngest
