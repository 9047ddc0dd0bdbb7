import SeismicIngest.Verified.Steps

/-! # What the rows of a session represent

In every reachable store the chunk rows of a session are a cut of a prefix of its
package, and offset, status and digests agree with them (`Represents`).
-/

namespace SeismicIngest

open Transaction Spans

section

variable (H : Bytes → String)

/-- The rows of a session, in the order of their offsets, represent a prefix of its
    package. -/
structure Represents (session : UploadSession) (chunks : List Chunk) : Prop where
  nonempty : ∀ chunk ∈ chunks, chunk.data ≠ []
  tiles : Tiles 0 chunks session.confirmedOffset
  distinct : (chunks.map Chunk.startOffset).Nodup
  intact : ∀ chunk ∈ chunks, chunk.length = chunk.endOffset - chunk.startOffset ∧
    chunk.length = (chunk.data.length : Int) ∧ chunk.sha256 = H chunk.data
  confirmed : 0 ≤ session.confirmedOffset ∧ session.confirmedOffset ≤ session.totalBytes
  whenActive : session.status = .active →
    session.confirmedOffset < session.totalBytes ∧ session.computedSha256 = none
  whenSealed : session.status = .sealed → session.confirmedOffset = session.totalBytes ∧
    session.computedSha256 = some session.wholeSha256 ∧ session.wholeSha256 = H (contentOf chunks)
  whenFailed : session.status = .failed → session.confirmedOffset = session.totalBytes ∧
    session.computedSha256 = some (H (contentOf chunks)) ∧ H (contentOf chunks) ≠ session.wholeSha256

variable {H}

theorem Consistent.represents {session : UploadSession} {chunks : List Chunk}
    {audits : List AuditEvent} (consistent : Consistent H session chunks audits) :
    Represents H session (Store.byStartOffset chunks) := by
  rw [consistent.ordered]
  exact {
    nonempty := consistent.nonempty
    tiles := consistent.tiles
    distinct := by
      -- nonempty rows that tile an interval start at increasing offsets
      have sorted :=
        Layout.Tiles.pairwise_start consistent.tiles consistent.fits consistent.nonempty
      rw [List.Nodup, List.pairwise_map]
      exact sorted.imp fun less => Int.ne_of_lt less
    intact := fun chunk member =>
      have row := consistent.intact chunk member
      ⟨row.span, row.size.symm, row.digest⟩
    confirmed := ⟨consistent.nonneg, consistent.bounded⟩
    whenActive := fun status =>
      ⟨(consistent.whenActive status).1, (consistent.whenActive status).2.1⟩
    whenSealed := consistent.whenSealed
    whenFailed := fun status =>
      have failed := consistent.whenFailed status
      ⟨failed.1, failed.2.1, Ne.symm failed.2.2.1⟩ }

/-- Every session of every reachable store is represented by its rows. -/
theorem reachable_represents {db : Store} (reachable : Reachable H db) {session : UploadSession}
    (stored : session ∈ db.uploadSessions) : Represents H session (db.chunksOf session.id) :=
  (reachable.sound.consistent (reachable.sound.session? stored)).represents

/-- A package of three bytes, uploaded in two chunks. -/
theorem reachable_represents_upload :
    let db := serveAll (fun _ => "d")
      [⟨⟨"s", 0, true⟩, .createSession 3 "d"⟩, ⟨⟨"", 0, true⟩, .putChunk "s" 0 2 "d" [1, 2]⟩,
        ⟨⟨"", 0, true⟩, .putChunk "s" 2 1 "d" [3]⟩] Store.empty
    ∃ session ∈ db.uploadSessions, session.status = .sealed ∧
      Represents (fun _ => "d") session (db.chunksOf session.id) :=
  ⟨⟨"s", 3, "d", 3, .sealed, some "d", none, 0⟩, by decide, rfl,
    reachable_represents (reachable_serveAll _ _) (by decide)⟩

end

end SeismicIngest
