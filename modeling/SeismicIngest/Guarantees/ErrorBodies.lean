import SeismicIngest.Verified.Serving

/-! # What an error response tells

A client that reads the text of a response gets back the error that was raised, if one
was: its code, its message, where it points and its details (`refusals_read_back`).
Messages and details cite what requests send, ids, digests and whole headers; none of it
can stand for another part of the body.
-/

namespace SeismicIngest

open Text Transaction

/-! ## Reading -/

def ErrorCode.all : List ErrorCode :=
  [.sessionNotFound, .wholeDigestMismatch, .invalidOffset, .invalidLength, .lengthMismatch,
    .chunkDigestMismatch, .chunkBeyondTotal, .staleOffset, .sessionFailedTerminal,
    .sealedContentConflict, .sessionSealed, .auditWriteFailed, .sealedIntegrityError,
    .invalidTargetChunkBytes, .compactionStateConflict, .compactionIntegrityError,
    .comparisonStateConflict, .comparisonIntegrityError, .comparisonNotFound, .invalidStatus,
    .notSealed, .invalidRange, .rangeNotSatisfiable, .invalidDigest, .chunkTooLarge, .validationError]

def ErrorCode.ofText (text : String) : Option ErrorCode :=
  ErrorCode.all.find? fun code => code.text = text

def Detail.ofJson : Json → Option Detail
  | .int value => some (.int value)
  | .string value => some (.text value)
  | .array items => (items.mapM Json.string?).map .texts
  | .null => some .null
  | _ => none

/-- The fields of an object that may be left out. -/
def fieldsOf : Option Json → List (String × Json)
  | some (.object fields) => fields
  | _ => []

def detailsOf (fields : List (String × Json)) : Option (List (String × Detail)) :=
  fields.mapM fun (name, value) => (Detail.ofJson value).map fun detail => (name, detail)

/-- The error that a response tells. -/
def Response.error? (response : Response) : Option UploadError :=
  match response.body with
  | .bytes _ => none
  | .text content =>
    (Json.read content).bind fun document =>
      (document.field? "error").bind fun error =>
        ((error.field? "code").bind Json.string?).bind fun code =>
          (ErrorCode.ofText code).bind fun code =>
            ((error.field? "message").bind Json.string?).bind fun message =>
              (detailsOf (fieldsOf (error.field? "details"))).map fun details =>
                let location := Json.object (fieldsOf (error.field? "location"))
                { statusCode := response.statusCode
                  code := code
                  message := message
                  offset := (location.field? "offset").bind Json.int?
                  expectedOffset := (location.field? "expected_offset").bind Json.int?
                  digest := (location.field? "digest").bind Json.string?
                  expectedDigest := (location.field? "expected_digest").bind Json.string?
                  details := details
                  headers := response.headers }

/-! ## Each part -/

theorem ErrorCode.ofText_text (code : ErrorCode) : ErrorCode.ofText code.text = some code := by
  cases code <;> decide

theorem Detail.ofJson_toJson (detail : Detail) : Detail.ofJson detail.toJson = some detail := by
  cases detail with
  | texts values =>
    have strings : (values.map Json.string).mapM Json.string? = some values :=
      @Json.mapM_back _ _ Json.string Json.string? (fun _ => rfl) values
    simp [Detail.toJson, Detail.ofJson, strings]
  | int | text | null => rfl

theorem detailsOf_toJson (details : List (String × Detail)) :
    detailsOf (details.map fun (name, detail) => (name, detail.toJson)) = some details :=
  Json.mapM_back (fun (name, detail) => by simp [Detail.ofJson_toJson]) details

/-- An object that is left out when it is empty is read as empty. -/
theorem fieldsOf_unlessEmpty (fields : List (String × Json)) (name : String)
    {rest : List (String × Json)} (apart : rest.lookup name = none) :
    fieldsOf ((unlessEmpty name fields ++ rest).lookup name) = fields := by
  cases fields with
  | nil => simp [unlessEmpty, apart, fieldsOf]
  | cons field fields => simp [unlessEmpty, fieldsOf]

theorem unlessEmpty_other {fields : List (String × Json)} {name other : String} (different : other ≠ name)
    (rest : List (String × Json)) :
    (unlessEmpty name fields ++ rest).lookup other = rest.lookup other := by
  cases fields with
  | nil => rfl
  | cons field fields =>
    have differs : (other == name) = false := beq_eq_false_iff_ne.mpr different
    simp [unlessEmpty, List.lookup_cons, differs]

/-- Each place is read back, whatever other places are left out. -/
theorem location_read (error : UploadError) :
    let location := Json.object error.location
    (location.field? "offset").bind Json.int? = error.offset ∧
      (location.field? "expected_offset").bind Json.int? = error.expectedOffset ∧
      (location.field? "digest").bind Json.string? = error.digest ∧
      (location.field? "expected_digest").bind Json.string? = error.expectedDigest := by
  obtain ⟨statusCode, code, message, offset, expectedOffset, digest, expectedDigest, details, headers⟩ :=
    error
  cases offset <;> cases expectedOffset <;> cases digest <;> cases expectedDigest <;>
    exact ⟨rfl, rfl, rfl, rfl⟩

/-! ## The whole body -/

theorem error?_uploadErrorHandler (error : UploadError) :
    (uploadErrorHandler error).error? = some error := by
  let details := error.details.map fun (name, detail) => (name, detail.toJson)
  let parts := unlessEmpty "location" error.location ++ unlessEmpty "details" details
  let inner : Json := .object
    (("code", .string error.code.text) :: ("message", .string error.message) :: parts)
  have body : error.toBody = .object [("error", inner)] := rfl
  have located : fieldsOf (inner.field? "location") = error.location := by
    change fieldsOf (parts.lookup "location") = error.location
    refine fieldsOf_unlessEmpty error.location "location" ?_
    have other := @unlessEmpty_other details "details" "location" (by decide) []
    rwa [List.append_nil] at other
  have detailed : detailsOf (fieldsOf (inner.field? "details")) = some error.details := by
    have alone := @fieldsOf_unlessEmpty details "details" [] rfl
    rw [List.append_nil] at alone
    change detailsOf (fieldsOf (parts.lookup "details")) = some error.details
    rw [unlessEmpty_other (by decide), alone]
    exact detailsOf_toJson error.details
  obtain ⟨offset, expectedOffset, digest, expectedDigest⟩ := location_read error
  rw [Response.error?, uploadErrorHandler]
  simp only [Json.read_write, body]
  change ((ErrorCode.ofText error.code.text).bind fun code =>
    (detailsOf (fieldsOf (inner.field? "details"))).map fun details => _) = _
  rw [ErrorCode.ofText_text, detailed, located]
  change some _ = some error
  rw [offset, expectedOffset, digest, expectedDigest]

/-- A document without the field tells no error. -/
theorem error?_jsonResponse {document : Json} (noError : document.field? "error" = none)
    (statusCode : Nat) : (jsonResponse statusCode document).error? = none := by
  simp [Response.error?, jsonResponse, Json.read_write, noError]

/-- No reply of a call passes for an error. -/
theorem error?_respond (framework : Framework) (request : HttpRequest) (reply : Reply) :
    (reply.respond framework request).error? = none := by
  cases reply with
  | content download => rfl
  | session row => exact error?_jsonResponse rfl _
  | ack body => exact error?_jsonResponse rfl _
  | compacted body => exact error?_jsonResponse rfl _
  | comparison record => exact error?_jsonResponse rfl _
  | described body => exact error?_jsonResponse rfl _
  | listed rows => exact error?_jsonResponse rfl _
  | checkpoints body => exact error?_jsonResponse rfl _
  | trail events => exact error?_jsonResponse rfl _

/-- The line of an unhandled exception is no document. -/
theorem error?_internalServerError : internalServerError.error? = none := by
  have line : Json.read "Internal Server Error".toList = none := by decide
  rw [Response.error?, internalServerError]
  simp only [line]
  rfl

/-- The report of a failed validation has its own code. -/
theorem error?_validationResponse {report : Json} {names : List String} {error : UploadError}
    (told : (validationResponse report names).error? = some error) : error.code = .validationError := by
  have code : ErrorCode.ofText "validation_error" = some .validationError :=
    ErrorCode.ofText_text .validationError
  rw [Response.error?, validationResponse, jsonResponse] at told
  simp only [Json.read_write, Option.bind_some, Json.field?, List.lookup_cons, String.reduceBEq,
    Json.string?, code] at told
  obtain ⟨details, -, rfl⟩ := Option.map_eq_some_iff.mp told
  rfl

section

variable (H : Bytes → String) (framework : Framework) (env : Env)

/-- A request that ends well is answered with a reply, or its validation has failed. -/
theorem run_ok {request : HttpRequest} {db : Store} {response : Response}
    (ended : ((request.program H framework env).run db).1 = .ok response) :
    (∃ reply : Reply, response = reply.respond framework request) ∨
      ∃ report names, response = validationResponse report names := by
  cases called : request.call? framework with
  | some call =>
    have made := @request_let H framework env request call called db
    rw [made] at ended
    cases answer : ((Call.mk env call).serve H db).1 with
    | ok reply =>
      rw [answer] at ended
      exact .inl ⟨reply, (Except.ok.inj ended).symm⟩
    | error exception =>
      rw [answer] at ended
      cases ended
  | none =>
    obtain ⟨answer, run, stops⟩ := @request_stopped H framework env request called db
    rw [run] at ended
    cases stops with
    | invalid report names =>
      cases ended
      exact .inr ⟨report, names, rfl⟩
    | unrendered | refused | unsent => cases ended

/-- On any store, every error that a request ends in is read back from its response, and
    no other response reads as one, but for the report of a failed validation. -/
theorem refusals_read_back (request : HttpRequest) (db : Store) {error : UploadError}
    (raised : error.code ≠ .validationError) :
    (request.serve H framework env db).1.error? = some error ↔
      ((request.program H framework env).run db).1 = .error (.upload error) := by
  rw [HttpRequest.serve]
  cases ended : ((request.program H framework env).run db).1 with
  | error exception =>
    cases exception with
    | upload refusal => simp [answered, error?_uploadErrorHandler]
    | database | valueError | diverges => simp [answered, error?_internalServerError]
  | ok response =>
    simp only [answered, reduceCtorEq, iff_false]
    obtain ⟨reply, rfl⟩ | ⟨report, names, rfl⟩ := run_ok H framework env ended
    · simp [error?_respond]
    · exact fun told => raised (error?_validationResponse told)

/-- An unknown id that is written like a field. -/
theorem refusals_read_back_quoted :
    let framework : Framework := ⟨4, fun _ _ => false, fun _ => "", fun _ => .null⟩
    let id := "s\",\"code\":\"stale_offset"
    ((HttpRequest.getSession id).serve (fun _ => "d") framework ⟨"", 0, true⟩ Store.empty).1.error? =
      some (sessionNotFound id) := by
  intro framework id
  have run : ((HttpRequest.getSession id).program (fun _ => "d") framework ⟨"", 0, true⟩).run
      Store.empty = (.error (.upload (sessionNotFound id)), Store.empty) := by
    have sent : storable id = true := by decide
    rw [HttpRequest.program, Routes.getSession, run_sendText, if_pos sent]
    rfl
  exact (refusals_read_back (fun _ => "d") framework ⟨"", 0, true⟩ (.getSession id) Store.empty
    (by simp [sessionNotFound])).mpr (congrArg Prod.fst run)

end

end SeismicIngest
