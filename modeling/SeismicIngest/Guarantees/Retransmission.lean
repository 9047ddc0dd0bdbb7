import SeismicIngest.Verified.Replays

/-! # Retransmission

An acknowledged put is acknowledged again at every later time, unless it is an empty
chunk and its session has ended in between.
-/

namespace SeismicIngest

open Transaction Spans

section

variable {H : Bytes → String}

/-! ## The same put again -/

/-- A run that acknowledges again what `first` acknowledged, as a replay, and changes
    no stored row. -/
structure AnsweredAgain (first : Ack) (db : Store) (run : Except Raised Ack × Store) : Prop where
  replay : ∃ again, run.1 = .ok again ∧ again.idempotentReplay = true ∧
    again.startOffset = first.startOffset ∧ again.length = first.length ∧
    again.chunkSha256 = first.chunkSha256
  unchanged : run.2 = db

/-- An acknowledged put is acknowledged again at every later time exactly when it
    carries a byte or its session is still active. -/
theorem retransmission_answered_iff {db : Store} (reachable : Reachable H db) {env : Env} {id : String}
    {start declaredLength : Int} {chunkDigest : String} {payload : Bytes} {first : Ack}
    (acknowledged :
      ((putChunk H env id start declaredLength chunkDigest payload).run db).1 = .ok first)
    {after : Store}
    (later : Later H ((putChunk H env id start declaredLength chunkDigest payload).run db).2 after)
    (resent : Env) :
    AnsweredAgain first after
        ((putChunk H resent id start declaredLength chunkDigest payload).run after) ↔
      1 ≤ declaredLength ∨ ∃ session, after.session? id = some session ∧ session.status = .active := by
  have served : Reachable H ((putChunk H env id start declaredLength chunkDigest payload).run db).2 := by
    have step := reachable.serve ⟨env, .putChunk id start declaredLength chunkDigest payload⟩
    rw [serve_putChunk] at step
    exact step
  -- the acknowledged bytes are archived when the put ends, and stay archived
  obtain ⟨⟨replayed, answering, rfl⟩, stored, archived⟩ :=
    archived_of_acknowledged (reachable.sound.rows id) acknowledged
  obtain ⟨session, kept⟩ := archived.later served.sound later
  have run := run_archived kept ((served.later later).sound.rows id) resent
  have found : after.session? id = some session := kept.found
  rw [run]
  constructor
  · rintro ⟨⟨again, answered, -⟩, -⟩
    split at answered
    · rename_i admitted
      exact admitted.imp (fun carries => carries) fun active => ⟨session, found, active⟩
    · -- an empty chunk on a terminal session is refused
      cases answered
  · intro admitted
    have holds : 0 < declaredLength ∨ session.status = .active := by
      obtain carries | ⟨row, rowFound, active⟩ := admitted
      · exact .inl carries
      · rw [found] at rowFound
        exact .inr (Option.some.inj rowFound ▸ active)
    rw [if_pos holds]
    exact ⟨⟨_, rfl, rfl, rfl, rfl, rfl⟩, rfl⟩

/-- A byte that is sent again after its session was sealed. -/
theorem retransmission_answered_sealed :
    let digest : Bytes → String := fun _ => "d"
    let db := serveAll digest [⟨⟨"s", 0, true⟩, .createSession 2 "d"⟩] Store.empty
    let put := putChunk digest ⟨"", 0, true⟩ "s" 0 1 "d" [5]
    let after := serveAll digest [⟨⟨"", 0, true⟩, .putChunk "s" 1 1 "d" [6]⟩] (put.run db).2
    (after.session? "s").map UploadSession.status = some .sealed ∧
      AnsweredAgain ⟨"s", .active, 0, 1, "d", 1, 1, 2, false⟩ after (put.run after) :=
  ⟨by decide, (retransmission_answered_iff (reachable_serveAll _ _) (by decide)
    (Later.serveAll _ _ _) _).mpr (.inl (by decide))⟩

/-- An empty chunk is acknowledged at the frontier.  When the package is sealed the
    same chunk is refused. -/
theorem retransmission_answered_empty_chunk :
    let digest : Bytes → String := fun _ => "d"
    let db := serveAll digest [⟨⟨"s", 0, true⟩, .createSession 1 "d"⟩] Store.empty
    let put := putChunk digest ⟨"", 0, true⟩ "s" 0 0 "d" []
    let first : Ack := ⟨"s", .active, 0, 0, "d", 0, 0, 1, true⟩
    let after := serveAll digest [⟨⟨"", 0, true⟩, .putChunk "s" 0 1 "d" [5]⟩] (put.run db).2
    let session : UploadSession := ⟨"s", 1, "d", 1, .sealed, some "d", none, 0⟩
    Reachable digest db ∧ (put.run db).1 = .ok first ∧ Later digest (put.run db).2 after ∧
      (put.run after).1 = .error (.upload (sealedContentConflict session 0)) ∧
      ¬ AnsweredAgain first after (put.run after) := by
  intro digest db put first after session
  have refused : (put.run after).1 = .error (.upload (sealedContentConflict session 0)) := by decide
  refine ⟨reachable_serveAll _ _, by decide, Later.serveAll _ _ _, refused, ?_⟩
  rintro ⟨⟨again, answered, -⟩, -⟩
  rw [refused] at answered
  cases answered

end

end SeismicIngest
