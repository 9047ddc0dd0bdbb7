import SeismicIngest.Verified.Statements

/-! # The representation invariant

`Consistent` ties the four mutable pieces of a session together: its chunk rows,
its confirmed offset, its status and its digests.  `Sound` is the invariant of a
whole store: the ids are distinct and the rows of every id are sound.
-/

namespace SeismicIngest

open Transaction Spans

section

variable (H : Bytes → String)

/-- The rows of one session describe a prefix of a package. -/
structure Consistent (session : UploadSession) (chunks : List Chunk) (audits : List AuditEvent) :
    Prop where
  tiles : Tiles 0 chunks session.confirmedOffset
  intact : ∀ chunk ∈ chunks, Intact H chunk
  nonempty : ∀ chunk ∈ chunks, chunk.data ≠ []
  bounded : session.confirmedOffset ≤ session.totalBytes
  inRange : session.totalBytes < 2 ^ 63
  whenActive : session.status = .active →
    session.confirmedOffset < session.totalBytes ∧ session.computedSha256 = none ∧ audits = []
  whenSealed : session.status = .sealed →
    session.confirmedOffset = session.totalBytes ∧
      session.computedSha256 = some session.wholeSha256 ∧ session.wholeSha256 = H (contentOf chunks)
  whenFailed : session.status = .failed →
    session.confirmedOffset = session.totalBytes ∧
      session.computedSha256 = some (H (contentOf chunks)) ∧
      session.wholeSha256 ≠ H (contentOf chunks) ∧ audits = []

/-- The rows stored for one id: none at all, or those of a consistent session. -/
def RowsSound (rows : SessionRows) : Prop :=
  match rows.row with
  | none => rows.chunks = [] ∧ rows.audits = []
  | some session => Consistent H session rows.chunks rows.audits

structure Sound (db : Store) : Prop where
  ids : (db.uploadSessions.map UploadSession.id).Nodup
  rows : ∀ id, RowsSound H (db.rowsOf id)

variable {H}

namespace Consistent

variable {session : UploadSession} {chunks : List Chunk} {audits : List AuditEvent}

theorem fits (consistent : Consistent H session chunks audits) :
    ∀ chunk ∈ chunks, chunkLayout.Fits chunk :=
  fits_of_intact consistent.intact

/-- The confirmed offset counts the archived bytes. -/
theorem length (consistent : Consistent H session chunks audits) :
    ((contentOf chunks).length : Int) = session.confirmedOffset := by
  have counted : ((contentOf chunks).length : Int) = session.confirmedOffset - 0 :=
    Layout.Tiles.content_length consistent.tiles consistent.fits
  rw [counted, Int.sub_zero]

theorem nonneg (consistent : Consistent H session chunks audits) : 0 ≤ session.confirmedOffset := by
  have := consistent.length
  omega

theorem ordered (consistent : Consistent H session chunks audits) :
    Store.byStartOffset chunks = chunks :=
  byStartOffset_tiles consistent.tiles consistent.fits consistent.nonempty

theorem contiguous (consistent : Consistent H session chunks audits) :
    Contiguous chunks session.confirmedOffset :=
  ⟨consistent.tiles, consistent.fits, consistent.nonempty⟩

/-- Once terminal, every byte is there. -/
theorem complete (consistent : Consistent H session chunks audits)
    (terminal : session.status ≠ .active) : session.confirmedOffset = session.totalBytes := by
  cases status : session.status with
  | active => exact absurd status terminal
  | sealed => exact (consistent.whenSealed status).1
  | failed => exact (consistent.whenFailed status).1

theorem confirmedInRange (consistent : Consistent H session chunks audits) :
    fitsBigint session.totalBytes ∧ fitsBigint session.confirmedOffset := by
  have nonneg := consistent.nonneg
  have bounded := consistent.bounded
  have inRange := consistent.inRange
  exact ⟨fitsBigint_of_nonneg (by omega) inRange, fitsBigint_of_nonneg nonneg (by omega)⟩

end Consistent

/-! ## Whole stores -/

theorem RowsSound.consistent {rows : SessionRows} {session : UploadSession}
    (sound : RowsSound H rows) (found : rows.row = some session) :
    Consistent H session rows.chunks rows.audits := by
  rw [RowsSound, found] at sound
  exact sound

theorem RowsSound.of_consistent {rows : SessionRows} {session : UploadSession}
    (found : rows.row = some session) (consistent : Consistent H session rows.chunks rows.audits) :
    RowsSound H rows := by
  rw [RowsSound, found]
  exact consistent

/-- The stored rows are in the order of their offsets. -/
theorem RowsSound.chunksOf {db : Store} {id : String} {session : UploadSession}
    (sound : RowsSound H (db.rowsOf id)) (found : db.session? id = some session) :
    db.chunksOf id = (db.rowsOf id).chunks :=
  (sound.consistent found).ordered

theorem Sound.consistent {db : Store} {id : String} {session : UploadSession} (sound : Sound H db)
    (found : db.session? id = some session) :
    Consistent H session (db.rowsOf id).chunks (db.rowsOf id).audits :=
  (sound.rows id).consistent found

/-- With unique ids a stored session is found under its id. -/
theorem Sound.session? {db : Store} {session : UploadSession} (sound : Sound H db)
    (stored : session ∈ db.uploadSessions) : db.session? session.id = some session := by
  have found := List.find?_isSome (p := fun row : UploadSession => decide (row.id = session.id)).mpr
    ⟨session, stored, by simp⟩
  obtain ⟨first, isFirst⟩ := Option.isSome_iff_exists.mp found
  have sameId := session?_id isFirst
  have firstStored := session?_mem isFirst
  rw [Store.session?, isFirst, List.inj_on_of_nodup_map sound.ids firstStored stored sameId]

theorem Sound.empty : Sound H Store.empty where
  ids := .nil
  rows := fun _ => ⟨rfl, rfl⟩

/-! ## Writes -/

/-- The write adds a session row. -/
def Write.creates : Write → Bool
  | .insertSession _ => true
  | _ => false

theorem ids_applyAll {writes : List Write} (existing : ∀ write ∈ writes, write.creates = false)
    (db : Store) :
    (Write.applyAll writes db).uploadSessions.map UploadSession.id =
      db.uploadSessions.map UploadSession.id := by
  induction writes generalizing db with
  | nil => rfl
  | cons write writes inductionHypothesis =>
    rw [Write.applyAll_cons,
      inductionHypothesis fun other member => existing other (List.mem_cons_of_mem _ member)]
    have head := existing write List.mem_cons_self
    cases write with
    | insertSession row => cases head
    | updateSession row =>
      rw [Write.apply, List.map_map]
      apply List.map_congr_left
      intro stored _
      by_cases replaced : stored.id = row.id <;> simp [replaced]
    | insertChunk _ | deleteChunk _ | insertAudit _ | insertComparison _ => rfl

/-- A new session whose id is unused. -/
theorem Sound.ids_create {db : Store} {session : UploadSession} (sound : Sound H db)
    {writes : List Write} (fresh : db.session? session.id = none)
    (existing : ∀ write ∈ writes, write.creates = false) :
    ((Write.applyAll (.insertSession session :: writes) db).uploadSessions.map
      UploadSession.id).Nodup := by
  rw [Write.applyAll_cons, ids_applyAll existing]
  have unused : session.id ∉ db.uploadSessions.map UploadSession.id := by
    intro listed
    obtain ⟨stored, member, same⟩ := List.mem_map.mp listed
    have absent := List.find?_eq_none.mp fresh stored member
    simp [same] at absent
  simp only [Write.apply, List.map_append, List.map_cons, List.map_nil]
  refine List.nodup_append.mpr ⟨sound.ids, List.pairwise_singleton _ _, ?_⟩
  rintro earlier listed last final rfl
  rw [List.mem_singleton.mp final] at listed
  exact unused listed

end

end SeismicIngest
