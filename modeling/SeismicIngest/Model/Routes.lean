import SeismicIngest.Model.Archive
import SeismicIngest.Model.Compaction
import SeismicIngest.Model.Comparison

/-! # Read routes

The routes of `app/main.py` that only read: session lookup and listing, chunk
checkpoints and content download with its `Range` parser.

Python's strings are lists of characters here.  Header values reach the
application decoded as Latin-1, so `repr` is spelled out for that range.
-/

namespace SeismicIngest

open Transaction Spans

/-! ## Sessions -/

/-- `_session_to_response`. -/
structure SessionResponse where
  id : String
  totalBytes : Int
  wholeSha256 : String
  confirmedOffset : Int
  status : Status
  computedSha256 : Option String
  failureReason : Option String
deriving DecidableEq, Repr

def sessionToResponse (session : UploadSession) : SessionResponse where
  id := session.id
  totalBytes := session.totalBytes
  wholeSha256 := session.wholeSha256
  confirmedOffset := session.confirmedOffset
  status := session.status
  computedSha256 := session.computedSha256
  failureReason := session.failureReason

/-- `get_session`. -/
def getSession (sessionId : String) : Db SessionResponse := do
  let session ← getSessionRow sessionId
  pure (sessionToResponse session)

/-- The order in which one query happens to meet the rows of a table. -/
structure ScanOrder where
  arrange : List UploadSession → List UploadSession
  complete : ∀ rows, (arrange rows).Perm rows

def invalidStatus : UploadError where
  statusCode := 422
  code := .invalidStatus
  message := "status filter must be one of active, sealed, failed"

/-- The status a filter names. -/
def statusNamed (text : String) : Option Status :=
  [Status.active, .sealed, .failed].find? fun status => status.text = text

/-- `ORDER BY created_at DESC` of the rows that match, met in some scan order. -/
def newestFirst (scan : ScanOrder) (rows : List UploadSession) : List UploadSession :=
  (scan.arrange rows).insertionSort fun left right => left.createdAt ≥ right.createdAt

/-- The rows a listing returns: PostgreSQL refuses a negative `LIMIT`, and numbers
    beyond `BIGINT` in either clause. -/
def listPage (scan : ScanOrder) (matching : UploadSession → Bool) (limit offset : Int) :
    Db (List SessionResponse) := do
  let rows ← Program.select fun db => newestFirst scan (db.uploadSessions.filter matching)
  if limit < 0 ∨ ¬ fitsBigint offset then .raise (.database .dataError)
  else pure (((rows.drop offset.toNat).take limit.toNat).map sessionToResponse)

/-- `list_sessions`. -/
def listSessions (scan : ScanOrder) (status : Option String) (limit offset : Int) :
    Db (List SessionResponse) := do
  match status with
  | none => listPage scan (fun _ => true) (min limit 1000) (max offset 0)
  | some text =>
    match statusNamed text with
    | none => Db.refuse invalidStatus
    | some named => listPage scan (fun row => row.status = named) (min limit 1000) (max offset 0)

/-! ## Chunk checkpoints -/

structure ChunkListing where
  id : String
  status : Status
  confirmedOffset : Int
  totalBytes : Int
  chunks : List LayoutRow
deriving DecidableEq, Repr

/-- `list_chunks`: the session row and the chunk rows are two statements. -/
def listChunks (sessionId : String) : Db ChunkListing := do
  let session ← getSessionRow sessionId
  let rows ← Program.select fun db => db.chunksOf sessionId
  pure {
    id := sessionId
    status := session.status
    confirmedOffset := session.confirmedOffset
    totalBytes := session.totalBytes
    chunks := rows.map Chunk.layoutRow }

/-! ## Strings -/

/-- `text.partition(sep)`: the front, whether the separator occurs, and the rest. -/
def partition (sep : Char) : List Char → List Char × Bool × List Char
  | [] => ([], false, [])
  | head :: tail =>
    if head = sep then ([], true, tail)
    else
      let (front, found, rest) := partition sep tail
      (head :: front, found, rest)

/-- `text.isascii()`. -/
def isAscii (text : List Char) : Bool :=
  text.all fun c => c.toNat < 128

/-- `text.isdigit()` of an ASCII text. -/
def isDigits (text : List Char) : Bool :=
  text ≠ [] ∧ text.all Char.isDigit

/-- The number an ASCII digit string denotes. -/
def decimal (digits : List Char) : Nat :=
  digits.foldl (fun value c => 10 * value + (c.toNat - '0'.toNat)) 0

/-- `int(text)` of an ASCII digit string: the interpreter converts at most 4300
    digits. -/
def pyInt (text : List Char) : Except Raised Int :=
  if text.length > 4300 then .error .valueError else .ok (decimal text)

def hexDigit (value : Nat) : Char :=
  if value < 10 then Char.ofNat (48 + value) else Char.ofNat (87 + value)

/-- One character inside `repr(text)`. -/
def reprChar (quote c : Char) : List Char :=
  let backslash := Char.ofNat 92
  if c = quote ∨ c = backslash then [backslash, c]
  else if c = '\n' then [backslash, 'n']
  else if c = '\r' then [backslash, 'r']
  else if c = '\t' then [backslash, 't']
  else if c.toNat < 32 ∨ (127 ≤ c.toNat ∧ c.toNat ≤ 160) ∨ c.toNat = 173 then
    [backslash, 'x', hexDigit (c.toNat / 16), hexDigit (c.toNat % 16)]
  else [c]

/-- `repr(text)`. -/
def reprText (text : List Char) : String :=
  let single := Char.ofNat 39
  let double := Char.ofNat 34
  let quote := if single ∈ text ∧ double ∉ text then double else single
  String.ofList (quote :: text.flatMap (reprChar quote) ++ [quote])

/-! ## Range requests -/

/-- `_unsatisfiable`.  The total is that of a stored session, a `BIGINT`, which always
    prints. -/
def unsatisfiable (rangeValue : String) (total : Int) : UploadError where
  statusCode := 416
  code := .rangeNotSatisfiable
  message := s!"requested range {reprText rangeValue.toList} is not satisfiable for a " ++
    s!"sealed package of {total} bytes"
  details := [("range", .text rangeValue), ("total_bytes", .int total)]
  headers := [("Content-Range", s!"bytes */{total}")]

/-- `invalid`, local to `_parse_single_range`. -/
def invalidRange (rangeValue message : String) : UploadError where
  statusCode := 400
  code := .invalidRange
  message := message
  details := [("range", .text rangeValue)]

/-- The suffix form `-<last>` of `_parse_single_range`. -/
def suffixRange (rangeValue : String) (last : List Char) (total : Int) : Except Raised (Int × Int) := do
  let suffix ← pyInt last
  if suffix = 0 ∨ total = 0 then .error (.upload (unsatisfiable rangeValue total))
  else pure (max (total - suffix) 0, total)

/-- The forms `<first>-` and `<first>-<last>` of `_parse_single_range`. -/
def closedRange (rangeValue : String) (first last : List Char) (total : Int) :
    Except Raised (Int × Int) := do
  let start ← pyInt first
  let bound ← if last = [] then pure none else some <$> pyInt last
  match bound with
  | some value =>
    if value < start then
      .error (.upload (invalidRange rangeValue
        s!"range start {start} is after range end {value}"))
    else if start ≥ total then .error (.upload (unsatisfiable rangeValue total))
    else pure (start, min (value + 1) total)
  | none =>
    if start ≥ total then .error (.upload (unsatisfiable rangeValue total))
    else pure (start, total)

/-- `_parse_single_range`: the half-open span one `Range` header asks for. -/
def parseSingleRange (rangeValue : String) (total : Int) : Except Raised (Int × Int) :=
  let refuse (message : String) : Except Raised (Int × Int) :=
    .error (.upload (invalidRange rangeValue message))
  let shown := reprText rangeValue.toList
  let (unit, found, spec) := partition '=' rangeValue.toList
  if !found ∨ unit.map Char.toLower ≠ "bytes".toList then
    refuse s!"Range header {shown} must use the 'bytes' unit"
  else if ',' ∈ spec then
    refuse "multi-range requests are not supported: send a single byte range"
  else if spec.count '-' ≠ 1 then refuse s!"malformed byte range {shown}"
  else
    let (first, _, last) := partition '-' spec
    if first = [] ∧ last = [] then refuse s!"empty byte range {shown}"
    else if first ≠ [] ∧ ¬ (isAscii first ∧ isDigits first) then
      refuse s!"range start {reprText first} is not a non-negative integer"
    else if last ≠ [] ∧ ¬ (isAscii last ∧ isDigits last) then
      refuse s!"range end {reprText last} is not a non-negative integer"
    else if first = [] then suffixRange rangeValue last total
    else closedRange rangeValue first last total

/-! ## Content download -/

structure Download where
  statusCode : Nat
  headers : List (String × String)
  body : Bytes
deriving DecidableEq, Repr

def notSealed (session : UploadSession) : UploadError where
  statusCode := 409
  code := .notSealed
  message := s!"content is only retrievable for sealed sessions (state={session.status.text})"
  expectedOffset := some session.confirmedOffset

def multiRange (rangeValues : List String) : UploadError where
  statusCode := 400
  code := .invalidRange
  message := "multi-range requests are not supported: send a single byte range"
  details := [("range", .texts rangeValues)]

/-- `base_headers`. -/
def baseHeaders (session : UploadSession) : List (String × String) :=
  [("Accept-Ranges", "bytes"), ("ETag", "\"" ++ session.wholeSha256 ++ "\""),
    ("X-Whole-SHA256", session.wholeSha256)]

/-- `download_content`; `rangeValues` are the values of all `Range` headers. -/
def downloadContent (H : Bytes → String) (sessionId : String) (rangeValues : List String) :
    Db Download := do
  let session ← getSessionRow sessionId
  if session.status ≠ .sealed then Db.refuse (notSealed session)
  else
    match rangeValues with
    | [] =>
      let data ← verifiedSealedBytes H session 0 session.totalBytes
      pure {
        statusCode := 200
        headers := baseHeaders session ++ [("Content-Length", toString data.length)]
        body := data }
    | [rangeValue] =>
      let (begin, stop) ← Program.lift (parseSingleRange rangeValue session.totalBytes)
      let data ← verifiedSealedBytes H session begin stop
      pure {
        statusCode := 206
        headers := baseHeaders session ++
          [("Content-Range", s!"bytes {begin}-{stop - 1}/{session.totalBytes}"),
            ("Content-Length", toString data.length)]
        body := data }
    | _ => Db.refuse (multiRange rangeValues)

end SeismicIngest
