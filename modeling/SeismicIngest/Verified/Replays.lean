import SeismicIngest.Verified.Evolution

/-! # Replays

Once a put is acknowledged its bytes are archived at its span (`Archived`), and stay
archived whatever happens (`Archived.later`).  The same put is then answered from the
archive, except that a terminal session refuses every chunk of length zero
(`run_archived`).
-/

namespace SeismicIngest

open Transaction Spans

section

variable {H : Bytes → String}

/-! ## Archived requests -/

variable (H) in
/-- The request is well formed, and its bytes are archived at its span. -/
structure Archived (rows : SessionRows) (session : UploadSession) (start declaredLength : Int)
    (chunkDigest : String) (payload : Bytes) : Prop where
  found : rows.row = some session
  admitted : putRefusal H session start declaredLength chunkDigest payload = none
  echoes : Echoes session start declaredLength payload (contentOf rows.chunks)

section Request

variable {db : Store} {id : String} {start declaredLength : Int} {chunkDigest : String}
  {payload : Bytes}

/-- What is archived stays archived. -/
theorem Archived.later {before after : Store} {session : UploadSession}
    (archived : Archived H (before.rowsOf id) session start declaredLength chunkDigest payload)
    (sound : Sound H before) (later : Later H before after) :
    ∃ ended, Archived H (after.rowsOf id) ended start declaredLength chunkDigest payload := by
  obtain ⟨ended, endedFound, evolves⟩ := evolves_of_later sound later archived.found
  obtain ⟨within, same⟩ := archived.echoes
  have shape := putRefusal_none.mp archived.admitted
  have length := (sound.consistent archived.found).length
  obtain ⟨rest, appended⟩ := evolves.archived
  refine ⟨ended, endedFound, ?_, ?_, ?_⟩
  · rw [putRefusal_none, evolves.total]
    exact shape
  · exact Int.le_trans within evolves.confirmed
  · rw [← appended, slice_append_left _ _ shape.1 (by omega) (by omega)]
    exact same

/-- An acknowledged put has its bytes archived, and is answered under its own span
    and digest. -/
theorem archived_of_acknowledged {env : Env} {body : Ack} (sound : RowsSound H (db.rowsOf id))
    (acknowledged :
      ((putChunk H env id start declaredLength chunkDigest payload).run db).1 = .ok body) :
    (∃ replayed session, body = ack session start declaredLength chunkDigest replayed) ∧
      ∃ session, Archived H
        (((putChunk H env id start declaredLength chunkDigest payload).run db).2.rowsOf id)
        session start declaredLength chunkDigest payload := by
  have run := run_putChunk env start declaredLength chunkDigest payload sound
  rw [run] at acknowledged ⊢
  obtain ⟨error, decided⟩ | ⟨session, found, admitted, -, echoes, decided⟩ |
    ⟨session, found, forward, decided⟩ := putPlan_cases env start declaredLength chunkDigest payload sound
  · rw [decided] at acknowledged
    cases acknowledged
  · -- a replay echoes what is archived
    rw [decided] at acknowledged ⊢
    exact ⟨⟨true, session, (Except.ok.inj acknowledged).symm⟩, session, found, admitted, echoes⟩
  · obtain rfl := session?_id found
    have outcome := forward.outcome env
    rw [decided] at acknowledged ⊢
    obtain ⟨ended, finalized, writes, appended, own, rows⟩ | failed := outcome.rows found rfl
    · rw [appended] at outcome acknowledged ⊢
      obtain ⟨-, total, -, confirmed⟩ := outcome.ended
      have answered : body = ack ended start declaredLength chunkDigest false := by
        rw [PutPlan.answer] at acknowledged
        split at acknowledged
        · cases acknowledged
        · exact (Except.ok.inj acknowledged).symm
      refine ⟨⟨false, ended, answered⟩, ended, ?_⟩
      have frontier := forward.frontier
      have length := forward.consistent.length
      have size := forward.size
      rw [PutPlan.writes, rows]
      refine ⟨rfl, ?_, Int.le_of_eq confirmed.symm, ?_⟩
      · -- the checks of a put see the registered total only
        rw [putRefusal_none, total]
        exact putRefusal_none.mp forward.admitted
      · rw [Forward.content]
        exact slice_append_right _ _ (by omega) (by omega)
    · rw [failed] at acknowledged
      cases acknowledged

/-- An archived request is answered from the archive, and writes nothing. -/
theorem run_archived {session : UploadSession}
    (archived : Archived H (db.rowsOf id) session start declaredLength chunkDigest payload)
    (sound : RowsSound H (db.rowsOf id)) (env : Env) :
    (putChunk H env id start declaredLength chunkDigest payload).run db =
      (if 0 < declaredLength ∨ session.status = .active then
          .ok (ack session start declaredLength chunkDigest true)
        else .error (.upload (terminalRefusal session start declaredLength)), db) := by
  have echoes := archived.echoes
  have plan : putPlan H env id start declaredLength chunkDigest payload (db.rowsOf id) =
      if 0 < declaredLength ∨ session.status = .active then
        .replay (ack session start declaredLength chunkDigest true)
      else .refuse (.upload (terminalRefusal session start declaredLength)) := by
    rw [putPlan_admitted archived.found archived.admitted]
    simp only [admittedPlan, echoes, and_true, if_true]
    by_cases active : session.status = .active
    · -- the bytes lie below the frontier
      have behind : ¬ (start = session.confirmedOffset ∧ 0 < declaredLength) := by
        have within := echoes.1
        omega
      simp only [active, if_true, if_neg behind, or_true]
    · simp only [active, if_false, or_false]
  rw [run_putChunk env start declaredLength chunkDigest payload sound, plan]
  split <;> rfl

end Request

end

end SeismicIngest
