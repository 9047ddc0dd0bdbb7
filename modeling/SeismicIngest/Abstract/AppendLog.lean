import SeismicIngest.Model.Upload
import Mathlib.Logic.Function.Basic

/-! # The append-only log

What an upload session is for, without rows: a log that is promised `total` bytes
of digest `whole`, takes bytes at its end only, and is closed by its last byte.
`AppendLog` carries its own well-formedness, so that where a log stands is always
decided by what it holds.  `AppendLog.put` answers one put, `Logs.Serves` one call to
a family of logs, and `Logs.Runs` a sequence of calls.
-/

namespace SeismicIngest

open Spans

section

variable (H : Bytes → String)

/-! ## Logs -/

/-- Where a log stands: it is closed by its last byte, sealed or failed by the digest
    of the whole. -/
def lifecycle (total : Int) (whole : String) (content : Bytes) : Status :=
  if (content.length : Int) < total then .active
  else if H content = whole then .sealed
  else .failed

@[ext] structure AppendLog where
  id : String
  total : Int
  whole : String
  content : Bytes
  status : Status
  bounded : (content.length : Int) ≤ total
  placed : status = lifecycle H total whole content

/-- The bytes of a put and what it declares about them. -/
structure PutRequest where
  start : Int
  length : Int
  digest : String
  payload : Bytes

/-- What a client sees of an answer. -/
inductive LogAnswer where
  | acknowledged (body : Ack)
  | compacted (id : String) (totalBefore totalAfter : Int) (whole : String)
  | refused (code : ErrorCode) (expected : Option Int)
  /-- No answer of the protocol. -/
  | crashed
deriving DecidableEq

namespace AppendLog

variable {H} (log : AppendLog H) (request : PutRequest)

/-! ## One put -/

/-- The acknowledgement of a request: everything held is confirmed. -/
def ack (replay : Bool) : Ack where
  id := log.id
  status := log.status
  startOffset := request.start
  length := request.length
  chunkSha256 := request.digest
  confirmedOffset := log.content.length
  expectedOffset := log.content.length
  totalBytes := log.total
  idempotentReplay := replay

/-- The log holds the bytes of the request at its span. -/
def Holds : Prop :=
  request.start + request.length ≤ log.content.length ∧
    slice log.content request.start (request.start + request.length) = request.payload

instance : Decidable (log.Holds request) := inferInstanceAs (Decidable (_ ∧ _))

def extend (payload : Bytes) (fits : (log.content.length : Int) + payload.length ≤ log.total) :
    AppendLog H :=
  { log with
    content := log.content ++ payload
    status := lifecycle H log.total log.whole (log.content ++ payload)
    bounded := by simpa using fits
    placed := rfl }

/-- The bytes are appended.  `taken` tells whether the audit of a sealing is stored. -/
def append (taken : Bool)
    (fits : (log.content.length : Int) + request.payload.length ≤ log.total) :
    LogAnswer × AppendLog H :=
  let grown := log.extend request.payload fits
  match grown.status with
  | .active => (.acknowledged (grown.ack request false), grown)
  | .sealed =>
    if taken then (.acknowledged (grown.ack request false), grown)
    else (.refused .auditWriteFailed none, log)
  | .failed => (.refused .wholeDigestMismatch none, grown)

/-- A put to the log: bytes at its end are appended, bytes it holds are echoed, and
    nothing else is taken.  Once the log is closed an empty chunk is no echo. -/
def put (taken : Bool) : LogAnswer × AppendLog H :=
  if request.start < 0 then (.refused .invalidOffset none, log)
  else if request.length < 0 then (.refused .invalidLength none, log)
  else if size : (request.payload.length : Int) ≠ request.length then
    (.refused .lengthMismatch none, log)
  else if H request.payload ≠ request.digest then (.refused .chunkDigestMismatch none, log)
  else if beyond : request.start + request.length > log.total then
    (.refused .chunkBeyondTotal (some log.content.length), log)
  else if log.status = .active then
    if frontier : request.start = log.content.length ∧ 1 ≤ request.length then
      log.append request taken (by omega)
    else if log.Holds request then (.acknowledged (log.ack request true), log)
    else (.refused .staleOffset (some log.content.length), log)
  else if 1 ≤ request.length ∧ log.Holds request then (.acknowledged (log.ack request true), log)
  else if log.status = .failed then
    (.refused .sessionFailedTerminal (some log.content.length), log)
  else (.refused .sealedContentConflict (some log.content.length), log)

end AppendLog

/-! ## A family of logs -/

abbrev Logs := String → Option (AppendLog H)

inductive LogCall where
  | put (id : String) (request : PutRequest)
  | compact (id : String) (target : Int)

variable {H}

/-- The answer to a compaction, when `taken` tells whether its audit row is stored.  Nothing
    about the log depends on it. -/
inductive Compacts (taken : Bool) (target : Int) : Option (AppendLog H) → LogAnswer → Prop where
  | invalid {log : Option (AppendLog H)} (notPositive : target ≤ 0) :
    Compacts taken target log (.refused .invalidTargetChunkBytes none)
  | missing (positive : 0 < target) : Compacts taken target none (.refused .sessionNotFound none)
  | conflict {log : AppendLog H} (positive : 0 < target) (notSealed : log.status ≠ .sealed) :
    Compacts taken target (some log) (.refused .compactionStateConflict (some log.content.length))
  | done {log : AppendLog H} (positive : 0 < target) (isSealed : log.status = .sealed)
    (stored : taken = true) :
    Compacts taken target (some log) (.compacted log.id log.total log.total log.whole)
  | auditRefused {log : AppendLog H} (positive : 0 < target) (isSealed : log.status = .sealed)
    (refused : taken = false) : Compacts taken target (some log) (.refused .auditWriteFailed none)

/-- One call, its answer and the logs it leaves. -/
inductive Logs.Serves (logs : Logs H) (taken : Bool) : LogCall → LogAnswer → Logs H → Prop where
  | missing {id : String} {request : PutRequest} (absent : logs id = none) :
    Serves logs taken (.put id request) (.refused .sessionNotFound none) logs
  | put {id : String} {request : PutRequest} {log : AppendLog H} (stored : logs id = some log) :
    Serves logs taken (.put id request) (log.put request taken).1
      (Function.update logs id (some (log.put request taken).2))
  | compact {id : String} {target : Int} {answer : LogAnswer}
    (answered : Compacts taken target (logs id) answer) :
    Serves logs taken (.compact id target) answer logs

theorem AppendLog.append_answers (log : AppendLog H) (request : PutRequest) (taken : Bool)
    (fits : (log.content.length : Int) + request.payload.length ≤ log.total) :
    (log.append request taken fits).1 ≠ .crashed := by
  rw [AppendLog.append]
  cases (log.extend request.payload fits).status with
  | active | failed => simp
  | sealed => cases taken <;> simp

theorem AppendLog.put_answers (log : AppendLog H) (request : PutRequest) (taken : Bool) :
    (log.put request taken).1 ≠ .crashed := by
  rw [AppendLog.put]
  repeat' split
  all_goals first | exact AppendLog.append_answers _ _ _ _ | rintro ⟨⟩

/-- The logs answer every call. -/
theorem Logs.Serves.answers {logs after : Logs H} {taken : Bool} {call : LogCall} {answer : LogAnswer}
    (served : logs.Serves taken call answer after) : answer ≠ .crashed := by
  cases served with
  | missing _ => simp
  | put _ => exact AppendLog.put_answers _ _ _
  | @compact id _ _ answered =>
    generalize logs id = stored at answered
    cases answered <;> simp

/-- A call leaves one family of logs. -/
theorem Logs.Serves.unique {logs first second : Logs H} {taken : Bool} {call : LogCall}
    {left right : LogAnswer} (served : logs.Serves taken call left first)
    (again : logs.Serves taken call right second) : first = second := by
  cases served with
  | missing absent =>
    cases again with
    | missing _ => rfl
    | put stored =>
      rw [absent] at stored
      cases stored
  | put stored =>
    cases again with
    | missing absent =>
      rw [absent] at stored
      cases stored
    | put same =>
      rw [stored] at same
      cases same
      rfl
  | compact _ =>
    cases again with
    | compact _ => rfl

/-- A sequence of calls, the answers to each and the logs they leave. -/
inductive Logs.Runs : Logs H → List (Bool × LogCall) → List LogAnswer → Logs H → Prop where
  | done (logs : Logs H) : Runs logs [] [] logs
  | next {logs middle after : Logs H} {taken : Bool} {call : LogCall} {answer : LogAnswer}
    {calls : List (Bool × LogCall)} {answers : List LogAnswer}
    (served : logs.Serves taken call answer middle) (rest : Runs middle calls answers after) :
    Runs logs ((taken, call) :: calls) (answer :: answers) after

end

end SeismicIngest
