import SeismicIngest.Verified.Evolution

/-! # Confirmed bytes and terminal states are immutable

No operation, in any order, loses or rewrites a confirmed byte, takes an offset
back or reopens a terminal session.  A compaction replaces the rows of a sealed
session, and it is the only call that does.
-/

namespace SeismicIngest

open Transaction Spans

section

variable (H : Bytes → String)

/-- How a stored session may look at a later time. -/
structure Preserved (before : Store) (session : UploadSession) (after : Store)
    (later : UploadSession) : Prop where
  registration : later.totalBytes = session.totalBytes ∧ later.wholeSha256 = session.wholeSha256
  archived : contentOf (before.chunksOf session.id) <+: contentOf (after.chunksOf session.id)
  confirmed : session.confirmedOffset ≤ later.confirmedOffset
  status : later.status = session.status ∨
    session.status = .active ∧ (later.status = .sealed ∨ later.status = .failed)
  terminal : session.status = .sealed ∨ session.status = .failed →
    later.status = session.status ∧ later.confirmedOffset = session.confirmedOffset ∧
      later.computedSha256 = session.computedSha256 ∧ later.failureReason = session.failureReason ∧
      contentOf (after.chunksOf session.id) = contentOf (before.chunksOf session.id)
  failedRows : session.status = .failed → after.chunksOf session.id = before.chunksOf session.id
  /-- What the next call does to the rows of a sealed session. -/
  sealedRows : later.status = .sealed → ∀ call : Call,
    (call.serve H after).2.chunksOf session.id = after.chunksOf session.id ∨
      ∃ target result, call.request = .compactSealed session.id target ∧
        (call.serve H after).1 = .ok (.compacted result)

variable {H}

/-- Only a successful compaction touches the chunk rows of a sealed session. -/
theorem chunks_of_sealed {db : Store} {session : UploadSession} {id : String} (sound : Sound H db)
    (found : db.session? id = some session) (isSealed : session.status = .sealed) (call : Call) :
    (call.serve H db).2.chunksOf id = db.chunksOf id ∨
      ∃ target result, call.request = .compactSealed id target ∧
        (call.serve H db).1 = .ok (.compacted result) := by
  have effect := serve_rows sound call id
  rw [chunksOf_eq, chunksOf_eq]
  generalize (call.serve H db).2.rowsOf id = rows at effect
  cases effect with
  | unchanged => exact .inl rfl
  -- a creation registers a fresh id, and this one is stored
  | created request drawn taken =>
    exact (taken.notFound drawn found).elim
  -- a chunk row is only ever added to an active session
  | stored request own forward outcome =>
    subst own
    obtain rfl := Option.some.inj (forward.found.symm.trans found)
    have active := forward.active
    rw [isSealed] at active
    cases active
  | compacted request stored _ positive answered => exact .inr ⟨_, _, request, answered⟩

/-- Along every run every stored session is preserved. -/
theorem confirmed_bytes_immutable {before after : Store} (reachable : Reachable H before)
    (later : Later H before after) {session : UploadSession}
    (stored : session ∈ before.uploadSessions) :
    ∃ ended, after.session? session.id = some ended ∧ Preserved H before session after ended := by
  have sound := reachable.sound
  have laterSound := (reachable.later later).sound
  have found := sound.session? stored
  obtain ⟨ended, endedFound, evolves⟩ := evolves_of_later sound later found
  -- the invariant keeps the rows ordered, so that a query returns them as they are stored
  have ordered := (sound.rows session.id).chunksOf found
  have laterOrdered := (laterSound.rows session.id).chunksOf endedFound
  refine ⟨ended, endedFound, ?_⟩
  exact {
    registration := ⟨evolves.total, evolves.whole⟩
    archived := by
      rw [ordered, laterOrdered]
      exact evolves.archived
    confirmed := evolves.confirmed
    status := evolves.status
    terminal := by
      intro terminal
      have ended : session.status ≠ .active := by
        obtain isSealed | isFailed := terminal
        · simp [isSealed]
        · simp [isFailed]
      -- a terminal session keeps its whole row
      obtain ⟨rfl, same⟩ := evolves.frozen ended
      rw [ordered, laterOrdered]
      exact ⟨rfl, rfl, rfl, rfl, same⟩
    failedRows := by
      intro failed
      rw [ordered, laterOrdered]
      exact evolves.failed failed
    sealedRows := fun isSealed call => chunks_of_sealed laterSound endedFound isSealed call }

/-- A sealed package before and after a compaction. -/
theorem confirmed_bytes_immutable_compaction :
    let before := serveAll (fun _ => "d")
      [⟨⟨"s", 0, true⟩, .createSession 3 "d"⟩, ⟨⟨"", 0, true⟩, .putChunk "s" 0 3 "d" [1, 2, 3]⟩]
      Store.empty
    let after := serveAll (fun _ => "d") [⟨⟨"", 0, true⟩, .compactSealed "s" 2⟩] before
    let session : UploadSession := ⟨"s", 3, "d", 3, .sealed, some "d", none, 0⟩
    before.chunksOf "s" ≠ after.chunksOf "s" ∧
      ∃ ended, after.session? session.id = some ended ∧
        Preserved (fun _ => "d") before session after ended :=
  ⟨by decide, confirmed_bytes_immutable (reachable_serveAll _ _) (Later.serveAll _ _ _) (by decide)⟩

end

end SeismicIngest
