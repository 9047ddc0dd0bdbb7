import SeismicIngest.Abstract.AppendLog
import SeismicIngest.Model.Service
import SeismicIngest.Spans.CommonPrefix

/-! # The catalogue

What the service is for, without chunk rows and audit rows: the registered packages in
the order of their registration, the bytes that each has received, and the records of
the comparisons.  `Catalogue.serve` answers a call from these alone.  It has no answer
for the calls that report rows, which change nothing in a catalogue.
-/

namespace SeismicIngest

open Spans

structure Catalogue where
  sessions : List UploadSession
  content : String → Bytes
  records : List Comparison

section

variable (H : Bytes → String)

/-! ## Rows of sessions -/

/-- A package that is registered: one without bytes is closed at once. -/
def newSession (env : Env) (totalBytes : Nat) (wholeSha256 : String) : UploadSession :=
  let session : UploadSession :=
    { id := env.uuid, totalBytes, wholeSha256, confirmedOffset := 0, status := .active,
      computedSha256 := none, failureReason := none, createdAt := env.now }
  match lifecycle H totalBytes wholeSha256 [] with
  | .active => session
  | .sealed => { session with status := .sealed, computedSha256 := some (H []) }
  | .failed =>
    { session with
      status := .failed
      computedSha256 := some (H [])
      failureReason := some ("zero-length package metadata inconsistent: " ++
        "whole_sha256 does not match SHA-256 of empty payload") }

/-- The session of a package that has received `content`: its last byte closes it. -/
def grownSession (session : UploadSession) (content : Bytes) : UploadSession :=
  let grown := { session with confirmedOffset := content.length }
  match lifecycle H session.totalBytes session.wholeSha256 content with
  | .active => grown
  | .sealed =>
    { grown with status := .sealed, computedSha256 := some (H content), failureReason := none }
  | .failed =>
    { grown with
      status := .failed
      computedSha256 := some (H content)
      failureReason := some "whole package SHA-256 mismatch after all bytes were received" }

/-! ## Calls -/

namespace Catalogue

variable (catalogue : Catalogue)

def session? (id : String) : Option UploadSession :=
  catalogue.sessions.find? fun session => session.id = id

def record? (id : String) : Option Comparison :=
  catalogue.records.find? fun record => record.id = id

/-- Session `id` becomes `session`, and its package `content`. -/
def replace (id : String) (session : UploadSession) (content : Bytes) : Catalogue :=
  { catalogue with
    sessions := catalogue.sessions.map fun stored => if stored.id = id then session else stored
    content := Function.update catalogue.content id content }

/-- Why the database does not take a new session. -/
def registrationError (session : UploadSession) : Option DbError :=
  if session.totalBytes ≥ 2 ^ 63 then some .dataError
  else if (catalogue.session? session.id).isSome then some .integrityError
  else none

def create (env : Env) (totalBytes : Nat) (wholeSha256 : String) :
    Except Raised UploadSession × Catalogue :=
  let session := newSession H env totalBytes wholeSha256
  let registered := { catalogue with sessions := catalogue.sessions ++ [session] }
  match session.status, catalogue.registrationError session with
  | .sealed, some _ => (.error (.upload auditWriteFailed), catalogue)
  | .sealed, none =>
    if env.auditAccepted then (.ok session, registered)
    else (.error (.upload auditWriteFailed), catalogue)
  | _, some error => (.error (.database error), catalogue)
  | .failed, none =>
    (.error (.upload (wholeDigestMismatchAtCreation H wholeSha256)), registered)
  | .active, none => (.ok session, registered)

/-- The package holds the bytes of the request at its span. -/
def Holds (content : Bytes) (start declaredLength : Int) (payload : Bytes) : Prop :=
  start + declaredLength ≤ content.length ∧
    slice content start (start + declaredLength) = payload

instance (content : Bytes) (start declaredLength : Int) (payload : Bytes) :
    Decidable (Holds content start declaredLength payload) :=
  inferInstanceAs (Decidable (_ ∧ _))

/-- The bytes are appended.  A sealing without its audit row does not happen. -/
def append (env : Env) (session : UploadSession) (start declaredLength : Int) (chunkDigest : String)
    (payload : Bytes) : Except Raised Ack × Catalogue :=
  let content := catalogue.content session.id ++ payload
  let grown := grownSession H session content
  match grown.status with
  | .active =>
    (.ok (ack grown start declaredLength chunkDigest false),
      catalogue.replace session.id grown content)
  | .sealed =>
    if env.auditAccepted then
      (.ok (ack grown start declaredLength chunkDigest false),
        catalogue.replace session.id grown content)
    else (.error (.upload auditWriteFailed), catalogue)
  | .failed =>
    (.error (.upload (wholeDigestMismatch grown)), catalogue.replace session.id grown content)

/-- Bytes at the end of the package are appended, bytes that it has are acknowledged again,
    and nothing else is taken: the refusal is an error, or the `ValueError` of a message
    that cannot be printed. -/
def put (env : Env) (id : String) (start declaredLength : Int) (chunkDigest : String)
    (payload : Bytes) : Except Raised Ack × Catalogue :=
  match catalogue.session? id with
  | none => (.error (.upload (sessionNotFound id)), catalogue)
  | some session =>
    match putRefusal H session start declaredLength chunkDigest payload with
    | some exception => (.error exception, catalogue)
    | none =>
      if session.status = .active then
        if start = (catalogue.content id).length ∧ 0 < declaredLength then
          catalogue.append H env session start declaredLength chunkDigest payload
        else if Holds (catalogue.content id) start declaredLength payload then
          (.ok (ack session start declaredLength chunkDigest true), catalogue)
        else (.error (.upload (staleOffsetError session start)), catalogue)
      else if 0 < declaredLength ∧ Holds (catalogue.content id) start declaredLength payload then
        (.ok (ack session start declaredLength chunkDigest true), catalogue)
      else (.error (.upload (terminalRefusal session start declaredLength)), catalogue)

/-- The record of two packages: the length of their longest common prefix, and the offset
    behind it where they differ. -/
def recordOf (env : Env) (baseline candidate : UploadSession) : Comparison :=
  let left := catalogue.content baseline.id
  let right := catalogue.content candidate.id
  comparisonRecord env baseline candidate (commonPrefix left right)
    (if left = right then none else some (commonPrefix left right))

def compare (env : Env) (baselineId candidateId : String) : Except Raised Comparison × Catalogue :=
  match catalogue.session? baselineId, catalogue.session? candidateId with
  | none, _ => (.error (.upload (sessionNotFound baselineId)), catalogue)
  | some _, none => (.error (.upload (sessionNotFound candidateId)), catalogue)
  | some baseline, some candidate =>
    if baseline.status ≠ .sealed then
      (.error (.upload (comparisonStateConflict "baseline" baseline)), catalogue)
    else if candidate.status ≠ .sealed then
      (.error (.upload (comparisonStateConflict "candidate" candidate)), catalogue)
    else
      let record := catalogue.recordOf env baseline candidate
      if (catalogue.record? record.id).isSome then (.error (.database .integrityError), catalogue)
      else (.ok record, { catalogue with records := catalogue.records ++ [record] })

def describe (id : String) : Except Raised SessionResponse :=
  match catalogue.session? id with
  | none => .error (.upload (sessionNotFound id))
  | some session => .ok (sessionToResponse session)

/-- One page of the sessions that match, the newest first. -/
def page (scan : ScanOrder) (matching : UploadSession → Bool) (limit offset : Int) :
    Except Raised (List SessionResponse) :=
  if limit < 0 ∨ ¬ fitsBigint offset then .error (.database .dataError)
  else
    let rows := newestFirst scan (catalogue.sessions.filter matching)
    .ok (((rows.drop offset.toNat).take limit.toNat).map sessionToResponse)

def list (scan : ScanOrder) (status : Option String) (limit offset : Int) :
    Except Raised (List SessionResponse) :=
  match status with
  | none => catalogue.page scan (fun _ => true) (min limit 1000) (max offset 0)
  | some text =>
    match statusNamed text with
    | none => .error (.upload invalidStatus)
    | some named => catalogue.page scan (fun row => row.status = named) (min limit 1000) (max offset 0)

/-- A sealed package is downloaded whole or in one range. -/
def download (id : String) (rangeValues : List String) : Except Raised Download :=
  match catalogue.session? id with
  | none => .error (.upload (sessionNotFound id))
  | some session =>
    if session.status ≠ .sealed then .error (.upload (notSealed session))
    else
      match rangeValues with
      | [] => .ok {
          statusCode := 200
          headers := baseHeaders session ++
            [("Content-Length", toString (catalogue.content session.id).length)]
          body := catalogue.content session.id }
      | [rangeValue] =>
        match parseSingleRange rangeValue session.totalBytes with
        | .error exception => .error exception
        | .ok (begin, stop) =>
          let data := slice (catalogue.content session.id) begin stop
          .ok {
            statusCode := 206
            headers := baseHeaders session ++
              [("Content-Range", s!"bytes {begin}-{stop - 1}/{session.totalBytes}"),
                ("Content-Length", toString data.length)]
            body := data }
      | _ => .error (.upload (multiRange rangeValues))

def lookUp (id : String) : Except Raised Comparison :=
  match catalogue.record? id with
  | none => .error (.upload (comparisonNotFound id))
  | some record => .ok record

/-- The answer of a call, unless it reports rows, and the catalogue it leaves. -/
def serve (call : Call) (catalogue : Catalogue) : Option (Except Raised Reply) × Catalogue :=
  match call.request with
  | .createSession totalBytes wholeSha256 =>
    let (answer, after) := catalogue.create H call.env totalBytes wholeSha256
    (some (answer.map .session), after)
  | .putChunk sessionId start declaredLength chunkDigest payload =>
    let (answer, after) :=
      catalogue.put H call.env sessionId start declaredLength chunkDigest payload
    (some (answer.map .ack), after)
  | .createComparison baselineId candidateId =>
    let (answer, after) := catalogue.compare call.env baselineId candidateId
    (some (answer.map .comparison), after)
  | .getSession sessionId => (some ((catalogue.describe sessionId).map .described), catalogue)
  | .listSessions scan status limit offset =>
    (some ((catalogue.list scan status limit offset).map .listed), catalogue)
  | .downloadContent sessionId rangeValues =>
    (some ((catalogue.download sessionId rangeValues).map .content), catalogue)
  | .getComparison comparisonId => (some ((catalogue.lookUp comparisonId).map .comparison), catalogue)
  | .compactSealed _ _ | .listChunks _ | .getAuditTrail _ => (none, catalogue)

/-- The answers to a sequence of calls. -/
def answersOf : List Call → Catalogue → List (Option (Except Raised Reply))
  | [], _ => []
  | call :: calls, catalogue =>
    (serve H call catalogue).1 :: answersOf calls (serve H call catalogue).2

def serveAll (calls : List Call) (catalogue : Catalogue) : Catalogue :=
  calls.foldl (fun catalogue call => (serve H call catalogue).2) catalogue

end Catalogue

end

end SeismicIngest
