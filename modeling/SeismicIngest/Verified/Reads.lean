import SeismicIngest.Verified.Invariant
import SeismicIngest.Model.Routes

/-! # What a verified read does

`verified_sealed_bytes` walks all rows of an archive, whatever window it is asked
for.  Its checks are `Certified`, over rows that may hold anything, and the window
decides only which bytes it returns (`run_verifiedSealedBytes`).
-/

namespace SeismicIngest

open Transaction Spans

section

variable (H : Bytes → String)

/-- The rows pass every check of a verified read. -/
structure Certified (session : UploadSession) (chunks : List Chunk) : Prop where
  tiles : Tiles 0 chunks session.totalBytes
  intact : ∀ chunk ∈ chunks, Intact H chunk
  whole : H (contentOf chunks) = session.wholeSha256

variable {H}

theorem Certified.length {session : UploadSession} {chunks : List Chunk}
    (certified : Certified H session chunks) :
    ((contentOf chunks).length : Int) = session.totalBytes := by
  have counted := Layout.Tiles.content_length certified.tiles (fits_of_intact certified.intact)
  simpa using counted

theorem Consistent.certified {session : UploadSession} {chunks : List Chunk}
    {audits : List AuditEvent} (consistent : Consistent H session chunks audits)
    (isSealed : session.status = .sealed) : Certified H session chunks where
  tiles := by
    rw [← (consistent.whenSealed isSealed).1]
    exact consistent.tiles
  intact := consistent.intact
  whole := (consistent.whenSealed isSealed).2.2.symm

/-- The rows a query finds under a sealed session. -/
theorem Sound.certified {db : Store} {session : UploadSession} (sound : Sound H db)
    (found : db.session? session.id = some session) (isSealed : session.status = .sealed) :
    Certified H session (db.chunksOf session.id) := by
  have consistent := sound.consistent found
  rw [chunksOf_eq, consistent.ordered]
  exact consistent.certified isSealed

/-! ## The read -/

section Read

variable {session : UploadSession} {chunks : List Chunk}

theorem sealedBytesOf_certified {begin stop : Int} (certified : Certified H session chunks)
    (lower : 0 ≤ begin) (ordered : begin ≤ stop) :
    sealedBytesOf H session chunks begin stop = .ok (slice (contentOf chunks) begin stop) := by
  have walked : sealedLoop H begin stop chunks 0 [] [] =
      .ok (session.totalBytes, contentOf chunks, window 0 (contentOf chunks) begin stop) :=
    sealedLoop_ok_iff.mpr ⟨certified.tiles, certified.intact, rfl, rfl⟩
  rw [sealedBytesOf, walked, slice_eq_window _ lower (by omega)]
  simp [certified.whole]

theorem sealedBytesOf_refused (refused : ¬ Certified H session chunks) (begin stop : Int) :
    ∃ error, error.code = .sealedIntegrityError ∧
      sealedBytesOf H session chunks begin stop = .error error := by
  rw [sealedBytesOf]
  cases walked : sealedLoop H begin stop chunks 0 [] [] with
  | error error => exact ⟨error, sealedLoop_error walked, rfl⟩
  | ok result =>
    obtain ⟨cursor, hasher, out⟩ := result
    obtain ⟨tiles, intact, hashed, -⟩ := sealedLoop_ok_iff.mp walked
    -- no row was refused, so it is one of the two checks after the walk
    rw [List.nil_append] at hashed
    subst hashed
    by_cases short : cursor ≠ session.totalBytes
    · exact ⟨sealedTotalLength session cursor, rfl, by simp only [short, if_true, ne_eq,
        not_false_eq_true]⟩
    · by_cases differs : H (contentOf chunks) ≠ session.wholeSha256
      · exact ⟨sealedWholeDigest session, rfl, by simp only [short, differs, if_true, if_false,
          ne_eq, not_false_eq_true]⟩
      · -- every check has passed
        obtain rfl : cursor = session.totalBytes := not_not.mp short
        exact absurd ⟨tiles, intact, not_not.mp differs⟩ refused

variable (session)

theorem settle_verifiedSealedBytes (begin stop : Int) (db : Store) :
    (verifiedSealedBytes H session begin stop).settle (.opened db) =
      match sealedBytesOf H session (db.chunksOf session.id) begin stop with
      | .ok data => (.returned data, .opened db)
      | .error error => (.raised (.upload error), .opened db) := by
  rw [verifiedSealedBytes, Program.settle_bind, Program.settle_select]
  cases checked : sealedBytesOf H session (db.chunksOf session.id) begin stop with
  | ok data => simp only [Connection.opened_working, checked]; rfl
  | error error => simp only [Connection.opened_working, checked]; rfl

theorem run_verifiedSealedBytes (begin stop : Int) (db : Store) :
    (verifiedSealedBytes H session begin stop).run db =
      ((sealedBytesOf H session (db.chunksOf session.id) begin stop).mapError .upload, db) := by
  have settled := settle_verifiedSealedBytes (H := H) session begin stop db
  cases checked : sealedBytesOf H session (db.chunksOf session.id) begin stop with
  | ok data =>
    rw [checked] at settled
    exact Program.run_of_returned (congrArg Prod.fst settled)
  | error error =>
    rw [checked] at settled
    exact Program.run_of_raised (congrArg Prod.fst settled)

end Read

/-! ## The download -/

section Download

variable {db : Store} {session : UploadSession}

theorem settle_getSessionRow {id : String} (found : db.session? id = some session) :
    (getSessionRow id).settle (.opened db) = (.returned session, .opened db) := by
  rw [getSessionRow, Program.settle_bind, Program.settle_select]
  simp only [Connection.opened_working, found]
  rfl

theorem settle_getSessionRow_missing {id : String} (missing : db.session? id = none) :
    (getSessionRow id).settle (.opened db) =
      (.raised (.upload (sessionNotFound id)), .opened db) := by
  rw [getSessionRow, Program.settle_bind, Program.settle_select]
  simp only [Connection.opened_working, missing]
  rfl

/-- The response to a request without a `Range` header. -/
def wholeDownload (session : UploadSession) (data : Bytes) : Download :=
  ⟨200, baseHeaders session ++ [("Content-Length", toString data.length)], data⟩

/-- A download of the whole package answers what the verified read does. -/
theorem run_downloadContent {id : String} (found : db.session? id = some session)
    (isSealed : session.status = .sealed) :
    (downloadContent H id []).run db =
      match sealedBytesOf H session (db.chunksOf session.id) 0 session.totalBytes with
      | .ok data => (.ok (wholeDownload session data), db)
      | .error error => (.error (.upload error), db) := by
  have read := settle_verifiedSealedBytes (H := H) session 0 session.totalBytes db
  rw [downloadContent, Program.run_bind_of_returned (settle_getSessionRow found)]
  simp only [isSealed, ne_eq, not_true_eq_false, if_false]
  cases checked : sealedBytesOf H session (db.chunksOf session.id) 0 session.totalBytes with
  | ok data =>
    rw [checked] at read
    rw [Program.run_bind_of_returned read]
    rfl
  | error error =>
    rw [checked] at read
    exact Program.run_bind_of_raised read

theorem run_download_certified {id : String} (found : db.session? id = some session)
    (isSealed : session.status = .sealed) (certified : Certified H session (db.chunksOf session.id)) :
    (downloadContent H id []).run db =
      (.ok (wholeDownload session (contentOf (db.chunksOf session.id))), db) := by
  have length := certified.length
  rw [run_downloadContent found isSealed,
    sealedBytesOf_certified certified (Int.le_refl 0) (by omega), ← length, slice_whole]

/-- The response to a request with one `Range` header. -/
def rangeDownload (session : UploadSession) (begin stop : Int) (data : Bytes) : Download :=
  ⟨206, baseHeaders session ++
    [("Content-Range", s!"bytes {begin}-{stop - 1}/{session.totalBytes}"),
      ("Content-Length", toString data.length)], data⟩

theorem run_downloadRange {id header : String} (found : db.session? id = some session)
    (isSealed : session.status = .sealed) :
    (downloadContent H id [header]).run db =
      match parseSingleRange header session.totalBytes with
      | .error exception => (.error exception, db)
      | .ok (begin, stop) =>
        match sealedBytesOf H session (db.chunksOf session.id) begin stop with
        | .ok data => (.ok (rangeDownload session begin stop data), db)
        | .error error => (.error (.upload error), db) := by
  rw [downloadContent, Program.run_bind_of_returned (settle_getSessionRow found)]
  simp only [isSealed, ne_eq, not_true_eq_false, if_false]
  cases parsed : parseSingleRange header session.totalBytes with
  | error exception => rfl
  | ok span =>
    obtain ⟨begin, stop⟩ := span
    have read := settle_verifiedSealedBytes (H := H) session begin stop db
    change (verifiedSealedBytes H session begin stop >>= _).run db = _
    dsimp only
    cases checked : sealedBytesOf H session (db.chunksOf session.id) begin stop with
    | ok data =>
      rw [checked] at read
      rw [Program.run_bind_of_returned read]
      rfl
    | error error =>
      rw [checked] at read
      exact Program.run_bind_of_raised read

end Download

end

end SeismicIngest
