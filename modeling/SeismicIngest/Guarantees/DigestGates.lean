import SeismicIngest.Model.Requests

/-! # The digest gates

A creation and an upload each check the digest they are sent, in their own order.  The
gate of a creation strips the text and lower-cases it first; stripped text ends in no
newline and lower-casing makes none, so that `$` is the end of it.  The gate of an upload
matches what it is sent: `$` lets one newline behind the digest through, and that is the
only text it should refuse and does not (`digest_gates_iff`).
-/

namespace SeismicIngest

open Text Transaction

/-! ## Digests -/

/-- 64 hexadecimal digits. -/
def IsDigest (text : List Char) : Prop :=
  text.length = 64 ∧ ∀ c ∈ text, c ∈ "0123456789abcdefABCDEF".toList

/-- The form of `hexdigest()`. -/
def IsHexdigest (text : List Char) : Prop :=
  text.length = 64 ∧ ∀ c ∈ text, c ∈ "0123456789abcdef".toList

theorem mem_iff_code {chars : List Char} {codes : List Nat} (spelled : chars.map Char.toNat = codes)
    {c : Char} : c ∈ chars ↔ c.toNat ∈ codes := by
  rw [← spelled, List.mem_map_of_injective fun _ _ => Char.toNat_inj.mp]

theorem inRange_iff {first last c : Char} :
    inRange first last c = true ↔ first.toNat ≤ c.toNat ∧ c.toNat ≤ last.toNat := by
  simp only [inRange, Bool.and_eq_true, decide_eq_true_eq]

theorem isLowerHex_codes {c : Char} :
    isLowerHex c = true ↔ (48 ≤ c.toNat ∧ c.toNat ≤ 57) ∨ (97 ≤ c.toNat ∧ c.toNat ≤ 102) := by
  simp only [isLowerHex, Bool.or_eq_true, inRange_iff]
  exact Iff.rfl

theorem isHex_codes {c : Char} :
    isHex c = true ↔ (48 ≤ c.toNat ∧ c.toNat ≤ 57) ∨ (97 ≤ c.toNat ∧ c.toNat ≤ 102) ∨
      (65 ≤ c.toNat ∧ c.toNat ≤ 70) := by
  simp only [isHex, Bool.or_eq_true, inRange_iff, or_assoc]
  exact Iff.rfl

theorem isLowerHex_iff {c : Char} : isLowerHex c = true ↔ c ∈ "0123456789abcdef".toList := by
  have codes : "0123456789abcdef".toList.map Char.toNat =
      List.range' 48 10 ++ List.range' 97 6 := by decide
  rw [mem_iff_code codes, List.mem_append, List.mem_range'_1, List.mem_range'_1, isLowerHex_codes]
  omega

theorem isHex_iff {c : Char} : isHex c = true ↔ c ∈ "0123456789abcdefABCDEF".toList := by
  have codes : "0123456789abcdefABCDEF".toList.map Char.toNat =
      List.range' 48 10 ++ (List.range' 97 6 ++ List.range' 65 6) := by decide
  rw [mem_iff_code codes, List.mem_append, List.mem_append, List.mem_range'_1, List.mem_range'_1,
    List.mem_range'_1, isHex_codes]
  omega

theorem isLowerHex_beforeG (c : Char) (lowerHex : isLowerHex c = true) : c.toNat < 103 := by
  rw [isLowerHex_codes] at lowerHex
  omega

theorem isLowerHex_toLower {c : Char} : isLowerHex c.toLower = true ↔ isHex c = true := by
  rw [isLowerHex_codes, isHex_codes, toNat_toLower]
  split <;> omega

theorem isDigest_iff {text : List Char} :
    IsDigest text ↔ text.length = 64 ∧ ∀ c ∈ text, isHex c = true := by
  simp only [IsDigest, isHex_iff]

theorem isHexdigest_iff {text : List Char} :
    IsHexdigest text ↔ text.length = 64 ∧ ∀ c ∈ text, isLowerHex c = true := by
  simp only [IsHexdigest, isLowerHex_iff]

section

variable {endsWord : EndsWord} {text : List Char}

theorem lower_digest (hex : ∀ c ∈ text, isLowerHex c.toLower = true) :
    lower endsWord text = text.map Char.toLower :=
  lowerFrom_eq isLowerHex_beforeG hex

theorem isHexdigest_lower : IsHexdigest (lower endsWord text) ↔ IsDigest text := by
  rw [isHexdigest_iff, isDigest_iff]
  simp only [← isLowerHex_toLower]
  constructor
  · rintro ⟨length, lowerHex⟩
    have hex := accepts_of_lowerFrom isLowerHex_beforeG lowerHex
    rw [lower_digest hex, List.length_map] at length
    exact ⟨length, hex⟩
  · rintro ⟨length, hex⟩
    rw [lower_digest hex, List.length_map, List.forall_mem_map]
    exact ⟨length, hex⟩

theorem IsDigest.lower_eq (digest : IsDigest text) : lower endsWord text = text.map Char.toLower :=
  lower_digest fun c member => isLowerHex_toLower.mpr ((isDigest_iff.mp digest).2 c member)

end

/-! ## The gate of a creation -/

/-- `whole_sha256` is accepted just when it is a digest between white space. -/
structure CreationGate (endsWord : EndsWord) (value : String) : Prop where
  admits : IsDigest (strip value.toList) →
    ∃ digest : Sha256Text, IsHexdigest digest.text.toList ∧
      digest.text.toList = (strip value.toList).map Char.toLower ∧
      validateSha256 endsWord value "whole_sha256" = .ok digest ∧
      ∀ H env totalBytes, 0 ≤ totalBytes → createSessionRoute H env endsWord totalBytes value =
        (createSession H env totalBytes digest.text).bind fun session =>
          .pure (sessionToResponse session)
  refuses : ¬ IsDigest (strip value.toList) →
    validateSha256 endsWord value "whole_sha256" = .error (digestMessage "whole_sha256") ∧
      ∀ H env totalBytes, ∃ names, "whole_sha256" ∈ names ∧
        createSessionRoute H env endsWord totalBytes value = Db.refuse (validationError names)

section

variable {endsWord : EndsWord} {value : String}

/-- What the gate matches ends in no newline. -/
theorem sha256Re_stripped :
    sha256Re.isMatch (String.ofList (lower endsWord (strip value.toList))).toList = true ↔
      IsDigest (strip value.toList) := by
  rw [String.toList_ofList]
  have last : (lower endsWord (strip value.toList)).getLast? ≠ some '\n' := by
    intro newline
    have space := strip_last (lowerFrom_last newline)
    exact absurd space (by decide)
  rw [sha256Re, Pattern.fullLine_matches_of_last last, ← isHexdigest_iff, isHexdigest_lower]

theorem validateSha256_digest (digest : IsDigest (strip value.toList)) (fieldName : String) :
    ∃ accepted : Sha256Text, validateSha256 endsWord value fieldName = .ok accepted ∧
      IsHexdigest accepted.text.toList ∧
      accepted.text.toList = (strip value.toList).map Char.toLower := by
  have matched : sha256Re.isMatch (String.ofList (lower endsWord (strip value.toList))).toList = true :=
    sha256Re_stripped.mpr digest
  refine ⟨⟨_, matched⟩, ?_, ?_⟩
  · rw [validateSha256, dif_pos matched]
  · rw [String.toList_ofList]
    exact ⟨isHexdigest_lower.mpr digest, digest.lower_eq⟩

theorem validateSha256_noDigest (noDigest : ¬ IsDigest (strip value.toList)) (fieldName : String) :
    validateSha256 endsWord value fieldName = .error (digestMessage fieldName) := by
  rw [validateSha256, dif_neg fun matched => noDigest (sha256Re_stripped.mp matched)]

end

theorem SessionCreate.validate_noDigest {endsWord : EndsWord} {totalBytes : Int} {value message : String}
    (refused : validateSha256 endsWord value "whole_sha256" = .error message) :
    ∃ names, "whole_sha256" ∈ names ∧
      SessionCreate.validate endsWord totalBytes value = .error names := by
  delta validate
  rw [refused]
  by_cases nonneg : 0 ≤ totalBytes
  · exact ⟨["whole_sha256"], List.mem_singleton_self _, congrArg _ (if_pos nonneg)⟩
  · exact ⟨["total_bytes", "whole_sha256"], List.mem_cons_of_mem _ (List.mem_singleton_self _),
      congrArg _ (if_neg nonneg)⟩

theorem creationGate (endsWord : EndsWord) (value : String) : CreationGate endsWord value where
  admits := by
    intro isDigest
    obtain ⟨digest, accepted, hexdigest, lowered⟩ := validateSha256_digest isDigest "whole_sha256"
    refine ⟨digest, hexdigest, lowered, accepted, fun H env totalBytes nonneg => ?_⟩
    have valid : SessionCreate.validate endsWord totalBytes value = .ok ⟨totalBytes, nonneg, digest⟩ := by
      delta SessionCreate.validate
      rw [accepted]
      exact dif_pos nonneg
    delta createSessionRoute
    rw [valid]
    rfl
  refuses := by
    intro noDigest
    have refused : validateSha256 endsWord value "whole_sha256" = _ := validateSha256_noDigest noDigest _
    refine ⟨refused, fun H env totalBytes => ?_⟩
    obtain ⟨names, named, invalid⟩ := SessionCreate.validate_noDigest refused
    refine ⟨names, named, ?_⟩
    delta createSessionRoute
    rw [invalid]

/-! ## The gate of an upload -/

/-- `sha256` is accepted just when it is a digest. -/
structure UploadGate (endsWord : EndsWord) (value : String) : Prop where
  admits : IsDigest value.toList →
    (∀ maxChunkBytes start length error,
      uploadRefusal maxChunkBytes start length value = some error → error.code ≠ .invalidDigest) ∧
    ∃ digest : String, IsHexdigest digest.toList ∧
      digest.toList = value.toList.map Char.toLower ∧
      ∀ H env maxChunkBytes sessionId start length payload, 0 ≤ start → 0 ≤ length →
        length ≤ maxChunkBytes →
        uploadChunk H env endsWord maxChunkBytes sessionId start length value payload =
          putChunk H env sessionId start length digest payload
  refuses : ¬ IsDigest value.toList → ∀ H env maxChunkBytes sessionId start length payload,
    uploadChunk H env endsWord maxChunkBytes sessionId start length value payload =
      Db.refuse (invalidDigest start value)

/-- A digest with a newline behind it. -/
def NewlineBehind (text : List Char) : Prop :=
  ∃ digest, IsDigest digest ∧ text = digest ++ ['\n']

theorem sha256QueryRe_matches {text : List Char} :
    sha256QueryRe.isMatch text = true ↔ IsDigest text ∨ NewlineBehind text := by
  rw [sha256QueryRe, Pattern.fullLine_matches]
  simp only [NewlineBehind, isDigest_iff]
  constructor
  · rintro ⟨body, rfl | rfl, hex⟩
    · exact .inl hex
    · exact .inr ⟨body, hex, rfl⟩
  · rintro (hex | ⟨body, hex, rfl⟩)
    · exact ⟨text, .inl rfl, hex⟩
    · exact ⟨body, .inr rfl, hex⟩

section

variable {maxChunkBytes start length : Int} {value : String}

theorem uploadRefusal_unmatched (unmatched : ¬ sha256QueryRe.isMatch value.toList = true) :
    uploadRefusal maxChunkBytes start length value = some (invalidDigest start value) :=
  if_pos (eq_false_of_ne_true unmatched)

theorem uploadRefusal_matched (matched : sha256QueryRe.isMatch value.toList = true)
    {error : UploadError} (refused : uploadRefusal maxChunkBytes start length value = some error) :
    error.code ≠ .invalidDigest := by
  rw [uploadRefusal, matched, if_neg Bool.true_eq_false.mp] at refused
  split at refused
  · cases refused
    simp [invalidOffset]
  · split at refused
    · cases refused
      simp [invalidQueryLength]
    · split at refused
      · cases refused
        simp [chunkTooLarge]
      · cases refused

theorem uploadRefusal_admitted (matched : sha256QueryRe.isMatch value.toList = true)
    (start_nonneg : 0 ≤ start) (length_nonneg : 0 ≤ length) (bounded : length ≤ maxChunkBytes) :
    uploadRefusal maxChunkBytes start length value = none := by
  rw [uploadRefusal, matched, if_neg Bool.true_eq_false.mp, if_neg (by omega), if_neg (by omega),
    if_neg (by omega)]

end

theorem uploadGate (endsWord : EndsWord) {value : String} (noNewline : ¬ NewlineBehind value.toList) :
    UploadGate endsWord value where
  admits := by
    intro digest
    have matched := sha256QueryRe_matches.mpr (.inl digest)
    refine ⟨fun _ _ _ _ refused => uploadRefusal_matched matched refused,
      String.ofList (lower endsWord value.toList), ?_, ?_, ?_⟩
    · rw [String.toList_ofList]
      exact isHexdigest_lower.mpr digest
    · rw [String.toList_ofList]
      exact digest.lower_eq
    · intro H env maxChunkBytes sessionId start length payload start_nonneg length_nonneg bounded
      rw [uploadChunk, uploadRefusal_admitted matched start_nonneg length_nonneg bounded]
  refuses := by
    intro noDigest H env maxChunkBytes sessionId start length payload
    have unmatched := sha256QueryRe_matches.not.mpr (not_or.mpr ⟨noDigest, noNewline⟩)
    rw [uploadChunk, uploadRefusal_unmatched unmatched]

/-- A digest and a newline are more than a digest. -/
theorem NewlineBehind.noDigest {text : List Char} (newline : NewlineBehind text) : ¬ IsDigest text := by
  obtain ⟨digest, ⟨length, -⟩, rfl⟩ := newline
  rintro ⟨longer, -⟩
  rw [List.length_append, length] at longer
  cases longer

/-- With a newline behind the digest, the upload reaches `put_chunk`. -/
theorem NewlineBehind.noUploadGate {endsWord : EndsWord} {value : String}
    (newline : NewlineBehind value.toList) : ¬ UploadGate endsWord value := by
  intro gate
  have refused := gate.refuses newline.noDigest (fun _ => "") ⟨"", 0, true⟩ 0 "" 0 0 []
  have matched := sha256QueryRe_matches.mpr (.inr newline)
  rw [uploadChunk, uploadRefusal_admitted matched (Int.le_refl 0) (Int.le_refl 0) (Int.le_refl 0)]
    at refused
  cases refused

/-- Both gates admit the digests and nothing else. -/
structure DigestGates (endsWord : EndsWord) (value : String) : Prop where
  creation : CreationGate endsWord value
  upload : UploadGate endsWord value

/-- The gates are exact on every text but a digest with a newline behind it. -/
theorem digest_gates_iff (endsWord : EndsWord) (value : String) :
    DigestGates endsWord value ↔ ¬ NewlineBehind value.toList := by
  constructor
  · intro gates newline
    exact newline.noUploadGate gates.upload
  · intro noNewline
    exact ⟨creationGate endsWord value, uploadGate endsWord noNewline⟩

/-- The digest of no bytes, and a newline. -/
theorem digest_gates_newline : ¬ DigestGates (fun _ _ => false)
    "e3b0c44298fc1c149afbf4c8996fb92427ae41e4649b934ca495991b7852b855\n" := by
  intro gates
  refine NewlineBehind.noUploadGate ?_ gates.upload
  refine ⟨"e3b0c44298fc1c149afbf4c8996fb92427ae41e4649b934ca495991b7852b855".toList, ?_, ?_⟩
  · exact isDigest_iff.mpr ⟨by decide, List.all_eq_true.mp (by decide)⟩
  · decide

end SeismicIngest
