import SeismicIngest.Verified.Compactions
import SeismicIngest.Verified.Reads

/-! # What a successful compaction certifies

The old rows may hold anything here.  `compact_sealed` checks their continuity,
their total and the digest of the whole, but neither the `length` of a row nor the
number of bytes it holds.  A rewrite replaces the rows and so certifies them; the
no-op keeps rows whose metadata equals the plan, and certifies them only when each
holds as many bytes as it says (`compaction_certifies_iff`).
-/

namespace SeismicIngest

open Transaction Spans

section

variable {H : Bytes → String}

/-! ## A successful compaction -/

/-- The audit row of a success fits its columns. -/
theorem addAudit_fits {env : Env} {changes : List Write} {session : UploadSession}
    {event : AuditKind} {totalBytes : Int} {wholeSha256 : String}
    {targetChunkBytes chunksBefore chunksAfter : Option Int} {conn : Connection Store}
    (answered : ((addAudit env changes session event totalBytes wholeSha256 targetChunkBytes
      chunksBefore chunksAfter).exec conn).1 = .ok ()) : fitsBigint totalBytes = true := by
  obtain ⟨sequence, -, answered⟩ := Program.exec_bind_ok answered
  obtain ⟨answer, sent, answered⟩ := Program.exec_bind_ok answered
  cases answer with
  | some error => cases answered
  | none =>
    -- the batch with the audit row was accepted
    change Except.ok ((auditBatch env _).rejects _) = Except.ok none at sent
    have accepted := Except.ok.inj sent
    rw [auditBatch] at accepted
    dsimp only at accepted
    split at accepted
    · have audit := Write.accepted_append accepted
      rw [Write.Accepted, Write.rejectsAll] at audit
      cases refused : (Write.insertAudit _).rejects (Write.applyAll changes _) with
      | some error =>
        rw [refused] at audit
        cases audit
      | none =>
        rw [Write.rejects] at refused
        split at refused
        · cases refused
        · rename_i inRange
          simp [Write.outOfRange] at inRange
          exact inRange.1.1.1.2
    · cases accepted

theorem compactBody_fits {env : Env} {sessionId : String} {session : UploadSession} {target : Int}
    {conn : Connection Store} {result : CompactResult}
    (answered : ((compactBody H env sessionId session target).exec conn).1 = .ok result) :
    fitsBigint session.totalBytes = true := by
  obtain ⟨old, -, answered⟩ := Program.exec_bind_ok answered
  obtain ⟨buffer, -, answered⟩ := Program.exec_bind_ok answered
  dsimp only at answered
  split at answered
  · -- the no-op
    obtain ⟨_, audited, _⟩ := Program.exec_bind_ok answered
    exact addAudit_fits audited
  · -- the rewrite: two flushes, the query and its verification come before the audit row
    obtain ⟨_, _, answered⟩ := Program.exec_bind_ok answered
    obtain ⟨_, _, answered⟩ := Program.exec_bind_ok answered
    obtain ⟨verifyChunks, -, answered⟩ := Program.exec_bind_ok answered
    obtain ⟨verified, -, answered⟩ := Program.exec_bind_ok answered
    obtain ⟨_, audited, _⟩ := Program.exec_bind_ok answered
    exact addAudit_fits audited

section Success

variable {env : Env} {id : String} {target : Int} {db : Store} {session : UploadSession}
  {result : CompactResult}

theorem compaction_fits (found : db.session? id = some session)
    (answered : ((compactSealed H env id target).run db).1 = .ok result) :
    session.totalBytes < 2 ^ 63 := by
  rw [compactSealed] at answered
  split at answered
  · cases answered
  · obtain ⟨locked, isLocked, answered⟩ := Program.exec_bind_ok answered
    have settled := Program.exec_eq_settle (getLockedSession id) (.opened db)
    rw [settle_getLockedSession found] at settled
    rw [settled] at isLocked answered
    cases isLocked
    dsimp only at answered
    split at answered
    · cases answered
    · -- the handler raises again, so a result comes from the body
      have body := Program.exec_catching_ok (fun _ _ _ => by rintro ⟨⟩) answered
      have inRange := compactBody_fits body
      simp only [fitsBigint, decide_eq_true_eq] at inRange
      exact inRange.2

/-- A success has checked the old rows, and leaves them or the planned rows. -/
theorem compaction_success (found : db.session? id = some session) (isSealed : session.status = .sealed)
    (positive : 0 < target) (answered : ((compactSealed H env id target).run db).1 = .ok result) :
    let old := db.chunksOf id
    let after := ((compactSealed H env id target).run db).2
    Tiles 0 old session.totalBytes ∧ ((contentOf old).length : Int) = session.totalBytes ∧
      H (contentOf old) = session.wholeSha256 ∧
      result = compacted H session target old (contentOf old) ∧
      after.session? id = some session ∧
      after.chunksOf id =
        if old.map Chunk.layoutRow =
            newLayout H (contentOf old) (plannedSpans session.totalBytes target) then old
        else plannedRows H id (contentOf old) target := by
  intro old after
  have inRange := compaction_fits found answered
  obtain rfl := session?_id found
  have ranged : ∀ other, db.session? session.id = some other → other.totalBytes < 2 ^ 63 := by
    intro other otherFound
    obtain rfl := Option.some.inj (found.symm.trans otherFound)
    exact inRange
  have run := run_compactSealed (H := H) env target ranged
  cases checked : oldBuffer H session old with
  | error error =>
    rw [run, compactPlan_of_error positive found isSealed checked] at answered
    cases answered
  | ok buffer =>
    rw [compactPlan_of_ok positive found isSealed checked] at run
    obtain ⟨tiles, rfl, size, whole⟩ := oldBuffer_ok_iff.mp checked
    rw [run] at answered
    by_cases taken : auditTaken env (compactionRow env (db.maxSequence session.id + 1) session
        (H (contentOf old)) target old.length (plannedRows H session.id (contentOf old) target).length)
    · obtain ⟨reported, rows⟩ := rowsOf_acceptedPlan found
        (fun chunk member => rowsOf_owned chunk (byStartOffset_mem.mp member))
        (fun chunk member => byStartOffset_mem.mpr member) taken
      have left : after.rowsOf session.id = _ :=
        (congrArg (fun pair => pair.2.rowsOf session.id) run).trans rows
      refine ⟨tiles, size, whole, Except.ok.inj (answered.symm.trans reported),
        congrArg SessionRows.row left, ?_⟩
      have stored := congrArg (fun rows => Store.byStartOffset rows.chunks) left
      by_cases planned : old.map Chunk.layoutRow =
          newLayout H (contentOf old) (plannedSpans session.totalBytes target)
      · rw [if_pos planned]
        exact stored.trans (congrArg Store.byStartOffset (if_pos planned))
      · rw [if_neg planned]
        exact (stored.trans (congrArg Store.byStartOffset (if_neg planned))).trans
          (plannedRows_ordered H session.id _ positive)
    · -- a refused audit row is not a success
      have failed := acceptedPlan_refused target old taken
      cases answered.symm.trans failed

end Success

/-! ## The certificate -/

theorem newLayout_length {buffer : Bytes} {plan : List (Int × Int)} {row : LayoutRow}
    (member : row ∈ newLayout H buffer plan) : row.length = row.endOffset - row.startOffset := by
  obtain ⟨span, -, rfl⟩ := List.mem_map.mp member
  rfl

theorem plannedRows_certified {session : UploadSession} {buffer : Bytes} {target : Int} (id : String)
    (positive : 0 < target) (size : (buffer.length : Int) = session.totalBytes)
    (whole : H buffer = session.wholeSha256) :
    Certified H session (plannedRows H id buffer target) where
  tiles := by
    rw [← size]
    exact plannedRows_tiles H id buffer positive
  intact := plannedRows_intact H id buffer positive
  whole := by rw [plannedRows_content H id buffer positive, whole]

variable (H) in
/-- What a success is taken for: the rows it leaves pass every check of a read, a
    download that follows succeeds, and both totals it reports are the registered
    one. -/
structure Certifies (id : String) (session : UploadSession) (after : Store)
    (result : CompactResult) : Prop where
  certified : Certified H session (after.chunksOf id)
  download : ∃ body, ((downloadContent H id []).run after).1 = .ok body
  totalBytesBefore : result.totalBytesBefore = session.totalBytes
  totalBytesAfter : result.totalBytesAfter = session.totalBytes

variable (H) in
/-- The stored lengths add up to the registered total, and rows that record the
    planned layout hold as many bytes as they record. -/
def LengthsHold (session : UploadSession) (target : Int) (old : List Chunk) : Prop :=
  totalLength old = session.totalBytes ∧
    (old.map Chunk.layoutRow =
        newLayout H (contentOf old) (plannedSpans session.totalBytes target) →
      ∀ chunk ∈ old, (chunk.data.length : Int) = chunk.length)

/-- A successful compaction certifies the archive exactly when the lengths hold. -/
theorem compaction_certifies_iff {env : Env} {id : String} {target : Int} {db : Store}
    {session : UploadSession} {result : CompactResult} (found : db.session? id = some session)
    (isSealed : session.status = .sealed) (positive : 0 < target)
    (answered : ((compactSealed H env id target).run db).1 = .ok result) :
    Certifies H id session ((compactSealed H env id target).run db).2 result ↔
      LengthsHold H session target (db.chunksOf id) := by
  obtain ⟨tiles, size, whole, rfl, kept, rows⟩ :=
    compaction_success found isSealed positive answered
  constructor
  · intro certifies
    refine ⟨certifies.totalBytesBefore, fun planned chunk member => ?_⟩
    -- the no-op keeps the old rows
    rw [if_pos planned] at rows
    have certified := certifies.certified
    rw [rows] at certified
    exact (certified.intact chunk member).size
  · rintro ⟨lengths, holds⟩
    have certified : Certified H session
        (((compactSealed H env id target).run db).2.chunksOf id) := by
      rw [rows]
      split
      · rename_i planned
        -- the rows record the spans of the plan and fit them, so they are the planned rows
        have fits : ∀ chunk ∈ db.chunksOf id, chunkLayout.Fits chunk := by
          intro chunk member
          have recorded : chunk.layoutRow ∈ newLayout H (contentOf (db.chunksOf id))
              (plannedSpans session.totalBytes target) := by
            rw [← planned]
            exact List.mem_map_of_mem member
          exact (holds planned chunk member).trans (newLayout_length recorded)
        have owned : ∀ chunk ∈ db.chunksOf id, chunk.sessionId = id :=
          fun chunk member => rowsOf_owned chunk (byStartOffset_mem.mp member)
        rw [← size] at planned
        rw [eq_plannedRows H id target owned tiles fits planned]
        exact plannedRows_certified id positive size whole
      · exact plannedRows_certified id positive size whole
    refine ⟨certified, ?_, lengths, rfl⟩
    obtain rfl := session?_id found
    exact ⟨_, congrArg Prod.fst (run_download_certified kept isSealed certified)⟩

/-- A digest that spells its bytes out. -/
def spelled (bytes : Bytes) : String :=
  String.ofList (bytes.map fun byte => Char.ofNat (97 + byte.toNat))

/-- The no-op on rows that hold what they record. -/
theorem compaction_certifies_noop :
    let session : UploadSession := ⟨"s", 4, "abcd", 4, .sealed, some "abcd", none, 0⟩
    let db : Store := ⟨[session],
      [⟨"s", 0, 2, 2, "ab", [0, 1]⟩, ⟨"s", 2, 4, 2, "cd", [2, 3]⟩], [], []⟩
    let result : CompactResult := ⟨"s", .sealed, 2, 2, 2, 4, 4, "abcd",
      [⟨0, 2, 2, "ab"⟩, ⟨2, 4, 2, "cd"⟩]⟩
    Certifies spelled "s" session ((compactSealed spelled ⟨"", 0, true⟩ "s" 2).run db).2 result :=
  (compaction_certifies_iff (by decide) rfl (by decide) rfl).mpr ⟨by decide, fun _ => by decide⟩

/-- Two rows that record the planned layout, with one byte of the second row in the
    first: the compaction succeeds, and the download that follows does not. -/
theorem compaction_certifies_misplaced_byte :
    let session : UploadSession := ⟨"s", 4, "abcd", 4, .sealed, some "abcd", none, 0⟩
    let db : Store := ⟨[session],
      [⟨"s", 0, 2, 2, "ab", [0, 1, 2]⟩, ⟨"s", 2, 4, 2, "cd", [3]⟩], [], []⟩
    let after := ((compactSealed spelled ⟨"", 0, true⟩ "s" 2).run db).2
    (∃ result, ((compactSealed spelled ⟨"", 0, true⟩ "s" 2).run db).1 = .ok result ∧
        ¬ Certifies spelled "s" session after result) ∧
      ∃ error, ((downloadContent spelled "s" []).run after).1 = .error (.upload error) ∧
        error.code = .sealedIntegrityError := by
  intro session db after
  -- offsets, lengths and digests equal the plan, so the compaction is the no-op
  have rows : after.chunksOf "s" = db.chunksOf "s" := by decide
  have stored : after.session? "s" = some session := by decide
  have damaged : ¬ Certified spelled session (after.chunksOf "s") := by
    rw [rows]
    intro certified
    have size := (certified.intact ⟨"s", 0, 2, 2, "ab", [0, 1, 2]⟩ (by decide)).size
    exact absurd size (by decide)
  obtain ⟨error, code, refused⟩ := sealedBytesOf_refused damaged 0 4
  have download := run_downloadContent (H := spelled) stored rfl
  rw [show sealedBytesOf spelled session (after.chunksOf session.id) 0 session.totalBytes =
    .error error from refused] at download
  exact ⟨⟨⟨"s", .sealed, 2, 2, 2, 4, 4, "abcd", [⟨0, 2, 2, "ab"⟩, ⟨2, 4, 2, "cd"⟩]⟩, by decide,
      fun certifies => damaged certifies.certified⟩, error,
    congrArg Prod.fst download, code⟩

end

end SeismicIngest
