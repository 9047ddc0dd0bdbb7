import SeismicIngest.Model.Upload

/-! # Sealed archive comparison

`_verified_archive_chunks`, `_streams_first_difference`, `create_comparison` and
`get_comparison` from `app/service.py`.
-/

namespace SeismicIngest

open Transaction Spans

section

variable (H : Bytes → String)

/-! ## Re-verification of one side -/

def comparisonDetails (side : String) (session : UploadSession) : List (String × Detail) :=
  [("side", .text side), ("session_id", .text session.id)]

def comparisonDiscontinuous (side : String) (session : UploadSession) (cursor : Int) : UploadError where
  statusCode := 500
  code := .comparisonIntegrityError
  message := s!"{side} archive chunks are discontinuous at offset {cursor}"
  expectedOffset := some cursor
  details := comparisonDetails side session

def comparisonLengthInconsistent (side : String) (session : UploadSession) (chunk : Chunk) :
    UploadError where
  statusCode := 500
  code := .comparisonIntegrityError
  message := s!"{side} archive chunk at offset {chunk.startOffset} " ++
    "has inconsistent length metadata"
  offset := some chunk.startOffset
  details := comparisonDetails side session

def comparisonChunkDigest (side : String) (session : UploadSession) (chunk : Chunk) : UploadError where
  statusCode := 500
  code := .comparisonIntegrityError
  message := s!"{side} archive chunk at offset {chunk.startOffset} " ++
    "fails its own SHA-256 check"
  offset := some chunk.startOffset
  expectedDigest := some chunk.sha256
  details := comparisonDetails side session

def comparisonTotalLength (side : String) (session : UploadSession) (cursor : Int) : UploadError where
  statusCode := 500
  code := .comparisonIntegrityError
  message := s!"{side} archived length {cursor} does not match registered " ++
    s!"total_bytes {session.totalBytes}"
  offset := some cursor
  expectedOffset := some session.totalBytes
  details := comparisonDetails side session

def comparisonWholeDigest (side : String) (session : UploadSession) : UploadError where
  statusCode := 500
  code := .comparisonIntegrityError
  message := s!"{side} archive fails whole digest verification"
  expectedDigest := some session.wholeSha256
  details := comparisonDetails side session

/-- The loop of `_verified_archive_chunks`: the cursor and the bytes hashed. -/
def archiveLoop (side : String) (session : UploadSession) :
    List Chunk → Int → Bytes → Except UploadError (Int × Bytes)
  | [], cursor, hasher => .ok (cursor, hasher)
  | chunk :: chunks, cursor, hasher =>
    if chunk.startOffset ≠ cursor then .error (comparisonDiscontinuous side session cursor)
    else if chunk.length ≠ chunk.endOffset - chunk.startOffset ∨
        (chunk.data.length : Int) ≠ chunk.length then
      .error (comparisonLengthInconsistent side session chunk)
    else if H chunk.data ≠ chunk.sha256 then .error (comparisonChunkDigest side session chunk)
    else archiveLoop side session chunks chunk.endOffset (hasher ++ chunk.data)

/-- `_verified_archive_chunks` on the rows it fetched. -/
def archiveChunksOf (side : String) (session : UploadSession) (chunks : List Chunk) :
    Except UploadError (List Chunk) :=
  match archiveLoop H side session chunks 0 [] with
  | .error error => .error error
  | .ok (cursor, hasher) =>
    if cursor ≠ session.totalBytes then .error (comparisonTotalLength side session cursor)
    else if H hasher ≠ session.wholeSha256 then .error (comparisonWholeDigest side session)
    else .ok chunks

/-- `_verified_archive_chunks`. -/
def verifiedArchiveChunks (session : UploadSession) (side : String) : Db (List Chunk) := do
  let chunks ← Program.select fun db => db.chunksOf session.id
  Program.lift ((archiveChunksOf H side session chunks).mapError .upload)

/-! ## Walking two streams -/

/-- The local variables of the loop of `_streams_first_difference`. -/
structure StreamWalk where
  offset : Nat
  li : Nat
  ri : Nat
  lp : Nat
  rp : Nat
deriving DecidableEq, Repr

/-- The first index at which two segments differ. -/
def firstMismatch : Bytes → Bytes → Option Nat
  | left :: lefts, right :: rights =>
    if left ≠ right then some 0 else (firstMismatch lefts rights).map (· + 1)
  | _, _ => none

/-- One pass through the loop body: the result it returns, or the next state. -/
def streamsStep (left right : List Bytes) (walk : StreamWalk) :
    Except (Nat × Option Nat) StreamWalk :=
  let lblock := left.getD walk.li []
  let rblock := right.getD walk.ri []
  let lseg := lblock.drop walk.lp
  let rseg := rblock.drop walk.rp
  let n := min lseg.length rseg.length
  match if lseg.take n ≠ rseg.take n then firstMismatch (lseg.take n) (rseg.take n) else none with
  | some i => .error (walk.offset + i, some (walk.offset + i))
  | none =>
    let lp := walk.lp + n
    let rp := walk.rp + n
    .ok {
      offset := walk.offset + n
      li := if lp = lblock.length then walk.li + 1 else walk.li
      lp := if lp = lblock.length then 0 else lp
      ri := if rp = rblock.length then walk.ri + 1 else walk.ri
      rp := if rp = rblock.length then 0 else rp }

/-- The loop of `_streams_first_difference`, cut short by `fuel`. -/
def streamsLoop (left right : List Bytes) : Nat → StreamWalk → Option (Nat × Option Nat)
  | fuel, walk =>
    if walk.li < left.length ∧ walk.ri < right.length then
      match fuel with
      | 0 => none
      | fuel + 1 =>
        match streamsStep left right walk with
        | .error result => some result
        | .ok next => streamsLoop left right fuel next
    else if walk.li = left.length ∧ walk.ri = right.length then some (walk.offset, none)
    else some (walk.offset, some walk.offset)

/-- `_streams_first_difference`: the length of the common prefix and the offset of
    the first difference.  Every pass finishes a block, so the blocks bound the
    passes. -/
def streamsFirstDifference (left right : List Bytes) : Option (Nat × Option Nat) :=
  streamsLoop left right (left.length + right.length) ⟨0, 0, 0, 0, 0⟩

/-! ## Comparison records -/

def comparisonStateConflict (side : String) (session : UploadSession) : UploadError where
  statusCode := 409
  code := .comparisonStateConflict
  message := s!"{side} session {session.id} is not sealed " ++
    s!"(state={session.status.text}); both archives must be sealed " ++
    "before they can be compared"
  expectedOffset := some session.confirmedOffset
  details := [("side", .text side), ("session_id", .text session.id),
    ("status", .text session.status.text)]

/-- The conclusion drawn from the first difference. -/
def concludeFrom (firstDifference : Option Nat) (baselineTotal candidateTotal : Int) : Conclusion :=
  match firstDifference with
  | none => .identical
  | some offset =>
    if (offset : Int) = min baselineTotal candidateTotal then .lengthDiffers else .contentDiffers

/-- The row `create_comparison` writes. -/
def comparisonRecord (env : Env) (baseline candidate : UploadSession) (commonPrefix : Nat)
    (firstDifference : Option Nat) : Comparison where
  id := env.uuid
  baselineSessionId := baseline.id
  candidateSessionId := candidate.id
  baselineTotalBytes := baseline.totalBytes
  baselineWholeSha256 := baseline.wholeSha256
  candidateTotalBytes := candidate.totalBytes
  candidateWholeSha256 := candidate.wholeSha256
  commonPrefixBytes := commonPrefix
  firstDifferenceOffset := firstDifference.map fun offset => (offset : Int)
  conclusion := concludeFrom firstDifference baseline.totalBytes candidate.totalBytes
  createdAt := env.now

/-- `db.get(UploadSession, session_id)` or 404. -/
def getSessionRow (sessionId : String) : Db UploadSession := do
  match ← Program.select fun db => db.session? sessionId with
  | some session => pure session
  | none => Db.refuse (sessionNotFound sessionId)

/-- `create_comparison`. -/
def createComparison (env : Env) (baselineSessionId candidateSessionId : String) : Db Comparison := do
  let baseline ← getSessionRow baselineSessionId
  let candidate ← getSessionRow candidateSessionId
  if baseline.status ≠ .sealed then Db.refuse (comparisonStateConflict "baseline" baseline)
  else if candidate.status ≠ .sealed then Db.refuse (comparisonStateConflict "candidate" candidate)
  else
    let baselineChunks ← verifiedArchiveChunks H baseline "baseline"
    let candidateChunks ← verifiedArchiveChunks H candidate "candidate"
    match streamsFirstDifference (baselineChunks.map Chunk.data) (candidateChunks.map Chunk.data) with
    | none => .raise .diverges
    | some (commonPrefix, firstDifference) =>
      let record := comparisonRecord env baseline candidate commonPrefix firstDifference
      Db.commit [.insertComparison record]
      match ← Program.select fun db => db.comparison? record.id with
      | some stored => pure stored
      | none => .raise (.database .invalidRequest)

end

def comparisonNotFound (comparisonId : String) : UploadError where
  statusCode := 404
  code := .comparisonNotFound
  message := s!"unknown comparison id: {comparisonId}"

/-- `get_comparison`. -/
def getComparison (comparisonId : String) : Db Comparison := do
  match ← Program.select fun db => db.comparison? comparisonId with
  | some record => pure record
  | none => Db.refuse (comparisonNotFound comparisonId)

end SeismicIngest
