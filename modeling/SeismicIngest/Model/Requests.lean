import Mathlib.Data.List.Infix
import SeismicIngest.Text.Case
import SeismicIngest.Text.Pattern
import SeismicIngest.Model.Routes

/-! # Write requests

The checks of `app/schemas.py` and `app/main.py` in front of `create_session` and
`put_chunk`.  Each of the two digest gates has its own pattern and its own order: the
body of a creation is stripped and lower-cased before the match, the query of an upload
is matched as it is and lower-cased behind the match.
-/

namespace SeismicIngest

open Text Transaction

/-! ## Digests -/

/-- `[0-9a-f]`. -/
def isLowerHex (c : Char) : Bool :=
  inRange '0' '9' c || inRange 'a' 'f' c

/-- `[0-9a-fA-F]`. -/
def isHex (c : Char) : Bool :=
  inRange '0' '9' c || inRange 'a' 'f' c || inRange 'A' 'F' c

def sha256Re : Pattern := .fullLine 64 isLowerHex

def sha256QueryRe : Pattern := .fullLine 64 isHex

/-- A text that `SHA256_RE` matches. -/
structure Sha256Text where
  text : String
  matched : sha256Re.isMatch text.toList = true

def digestMessage (fieldName : String) : String :=
  s!"{fieldName} must be 64 lowercase hexadecimal characters (SHA-256)"

/-- `_validate_sha256`: the normalized text, or the message of its `ValueError`. -/
def validateSha256 (endsWord : EndsWord) (value fieldName : String) : Except String Sha256Text :=
  let normalized := String.ofList (lower endsWord (strip value.toList))
  if matched : sha256Re.isMatch normalized.toList = true then .ok ⟨normalized, matched⟩
  else .error (digestMessage fieldName)

/-! ## Creating a session -/

/-- The validated body of `POST /sessions`. -/
structure SessionCreate where
  totalBytes : Int
  nonneg : 0 ≤ totalBytes
  wholeSha256 : Sha256Text

/-- The validation of the body: every field is checked, and those that fail are named in
    the order of their declaration. -/
def SessionCreate.validate (endsWord : EndsWord) (totalBytes : Int) (wholeSha256 : String) :
    Except (List String) SessionCreate :=
  match validateSha256 endsWord wholeSha256 "whole_sha256" with
  | .ok digest =>
    if nonneg : 0 ≤ totalBytes then .ok ⟨totalBytes, nonneg, digest⟩ else .error ["total_bytes"]
  | .error _ =>
    .error (if 0 ≤ totalBytes then ["whole_sha256"] else ["total_bytes", "whole_sha256"])

/-- How `_validation_handler` reports a parameter. -/
def reportedField (name : String) : String :=
  if name = "start" ∨ name = "length" then "offset"
  else if "sha256".toList <:+: name.toList then "digest"
  else name

/-- `_validation_handler`, without the report of the framework that it passes on. -/
def validationError (names : List String) : UploadError where
  statusCode := 422
  code := .validationError
  message := "request parameters failed validation"
  details := [("fields", .texts (names.map reportedField))]

section

variable (H : Bytes → String)

/-- `create_session` of `app/main.py`. -/
def createSessionRoute (env : Env) (endsWord : EndsWord) (totalBytes : Int) (wholeSha256 : String) :
    Db SessionResponse := do
  match SessionCreate.validate endsWord totalBytes wholeSha256 with
  | .error names => Db.refuse (validationError names)
  | .ok payload =>
    let session ← createSession H env payload.totalBytes payload.wholeSha256.text
    pure (sessionToResponse session)

/-! ## Uploading a chunk -/

def invalidDigest (start : Int) (sha256 : String) : UploadError where
  statusCode := 422
  code := .invalidDigest
  message := "sha256 query parameter must be 64 hexadecimal characters"
  offset := some start
  digest := some sha256

/-- The route words the refusal of a negative length differently from `put_chunk`. -/
def invalidQueryLength (start length : Int) : UploadError where
  statusCode := 422
  code := .invalidLength
  message := "length must be >= 0"
  offset := some start
  details := [("length", .int length)]

def chunkTooLarge (maxChunkBytes start length : Int) : UploadError where
  statusCode := 413
  code := .chunkTooLarge
  message := s!"declared length {length} exceeds server limit {maxChunkBytes}"
  offset := some start

/-- The checks of `upload_chunk`, in its order. -/
def uploadRefusal (maxChunkBytes start length : Int) (sha256 : String) : Option UploadError :=
  if sha256QueryRe.isMatch sha256.toList = false then some (invalidDigest start sha256)
  else if start < 0 then some (invalidOffset start)
  else if length < 0 then some (invalidQueryLength start length)
  else if length > maxChunkBytes then some (chunkTooLarge maxChunkBytes start length)
  else none

/-- `upload_chunk`, on the body it has received. -/
def uploadChunk (env : Env) (endsWord : EndsWord) (maxChunkBytes : Int) (sessionId : String)
    (start length : Int) (sha256 : String) (payload : Bytes) : Db Ack :=
  match uploadRefusal maxChunkBytes start length sha256 with
  | some error => Db.refuse error
  | none =>
    putChunk H env sessionId start length (String.ofList (lower endsWord sha256.toList)) payload

end

end SeismicIngest
