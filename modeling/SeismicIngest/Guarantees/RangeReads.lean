import SeismicIngest.Verified.RangeHeader
import SeismicIngest.Verified.Evolution

/-! # A package is reassembled from ranges

A sealed package reads the same for ever, whatever is done to its rows
(`run_range_later`), so ranges asked for one after another meet without a gap and
without an overlap.
-/

namespace SeismicIngest

open Transaction Spans

section

variable {H : Bytes → String}

/-! ## One range -/

def Download.header (download : Download) (name : String) : Option String :=
  download.headers.lookup name

/-- The span `[begin, stop)` of a package of `total` bytes. -/
structure Piece (total : Int) (span : Int × Int) (download : Download) : Prop where
  statusCode : download.statusCode = 206
  contentRange : download.header "Content-Range" = some s!"bytes {span.1}-{span.2 - 1}/{total}"
  contentLength : download.header "Content-Length" = some (toString (span.2 - span.1))
  length : (download.body.length : Int) = span.2 - span.1

theorem rangeDownload_contentRange (session : UploadSession) (begin stop : Int) (data : Bytes) :
    (rangeDownload session begin stop data).header "Content-Range" =
      some s!"bytes {begin}-{stop - 1}/{session.totalBytes}" :=
  rfl

theorem rangeDownload_contentLength (session : UploadSession) (begin stop : Int) (data : Bytes) :
    (rangeDownload session begin stop data).header "Content-Length" = some (toString data.length) :=
  rfl

theorem rangeDownload_piece {session : UploadSession} {begin stop : Int} {data : Bytes}
    (length : (data.length : Int) = stop - begin) :
    Piece session.totalBytes (begin, stop) (rangeDownload session begin stop data) where
  statusCode := rfl
  contentRange := rangeDownload_contentRange session begin stop data
  contentLength := by
    rw [rangeDownload_contentLength, ← length]
    rfl
  length := length

section Refused

/-- An integer of a `BIGINT` column prints. -/
theorem printable_of_bigint {value : Int} (fits : fitsBigint value = true) : printable value = true := by
  have bounds := of_decide_eq_true fits
  have digits : 10 ^ 19 ≤ 10 ^ maxStrDigits := Nat.pow_le_pow_right (by omega) (by decide)
  exact decide_eq_true (Nat.lt_of_lt_of_le (by omega) digits)

/-- The refusal of a range always prints: the total it cites is a stored one. -/
theorem unsatisfiable_prints {db : Store} {id : String} {session : UploadSession} (sound : Sound H db)
    (found : db.session? id = some session) (rangeValue : String) :
    (unsatisfiable rangeValue session.totalBytes).printing [session.totalBytes] =
      .upload (unsatisfiable rangeValue session.totalBytes) := by
  have total := printable_of_bigint (sound.consistent found).confirmedInRange.1
  rw [UploadError.printing, if_pos (by simp [total])]

end Refused

section Later

variable {db after : Store} {id : String} {session : UploadSession}

/-- A sealed package has the same bytes in every later store. -/
theorem content_later (sound : Sound H db) (later : Later H db after)
    (found : db.session? id = some session) (isSealed : session.status = .sealed) :
    after.session? id = some session ∧
      contentOf (after.chunksOf id) = contentOf (db.chunksOf id) := by
  obtain ⟨ended, endedFound, evolves⟩ := evolves_of_later sound later found
  obtain ⟨rfl, same⟩ := evolves.frozen (by simp [isSealed])
  refine ⟨endedFound, ?_⟩
  rw [(sound.rows id).chunksOf found, ((sound.later later).rows id).chunksOf endedFound, same]

/-- And every range of it reads the same. -/
theorem run_range_later (sound : Sound H db) (later : Later H db after)
    (found : db.session? id = some session) (isSealed : session.status = .sealed)
    {begin stop : Int} (lower : 0 ≤ begin) (some' : begin < stop) (upper : stop ≤ session.totalBytes) :
    (downloadContent H id [closedHeader begin stop]).run after =
      (.ok (rangeDownload session begin stop (slice (contentOf (db.chunksOf id)) begin stop)),
        after) := by
  obtain ⟨foundLater, same⟩ := content_later sound later found isSealed
  have inRange := (sound.consistent found).inRange
  obtain rfl := session?_id found
  have certified := (sound.later later).certified foundLater isSealed
  rw [run_downloadRange foundLater isSealed, parseSingleRange_closed lower some' upper inRange]
  simp only [sealedBytesOf_certified certified lower (Int.le_of_lt some'), same]

end Later

/-! ## One range after another -/

/-- `lo < cut < … < hi`. -/
def Increasing (hi : Int) : Int → List Int → Prop
  | lo, [] => lo = hi
  | lo, cut :: cuts => lo < cut ∧ Increasing hi cut cuts

theorem Increasing.le {hi lo : Int} {cuts : List Int} (increasing : Increasing hi lo cuts) :
    lo ≤ hi := by
  induction cuts generalizing lo with
  | nil => exact Int.le_of_eq increasing
  | cons cut cuts inductionHypothesis =>
    have := inductionHypothesis increasing.2
    have := increasing.1
    omega

/-- The spans between consecutive cuts. -/
def spansFrom : Int → List Int → List (Int × Int)
  | _, [] => []
  | lo, cut :: cuts => (lo, cut) :: spansFrom cut cuts

variable (H) in
/-- Ask for the spans between consecutive cuts, each with its own request.  Before each
    request the service answers some other calls. -/
def requestRanges (id : String) : Int → List (List Call × Int) → Store →
    List (Except Raised Download)
  | _, [], _ => []
  | lo, (calls, cut) :: rest, db =>
    let answer := (downloadContent H id [closedHeader lo cut]).run (serveAll H calls db)
    answer.1 :: requestRanges id cut rest answer.2

/-- The answers are the spans, and their bodies make the part of the package behind `lo`. -/
theorem requestRanges_spec {db after : Store} {id : String} {session : UploadSession}
    (sound : Sound H db) (found : db.session? id = some session) (isSealed : session.status = .sealed)
    {lo : Int} {requests : List (List Call × Int)} (later : Later H db after) (lower : 0 ≤ lo)
    (increasing : Increasing session.totalBytes lo (requests.map Prod.snd)) :
    ∃ downloads : List Download, requestRanges H id lo requests after = downloads.map .ok ∧
      List.Forall₂ (Piece session.totalBytes) (spansFrom lo (requests.map Prod.snd)) downloads ∧
      downloads.flatMap Download.body =
        slice (contentOf (db.chunksOf id)) lo session.totalBytes := by
  induction requests generalizing lo after with
  | nil =>
    obtain rfl : lo = session.totalBytes := increasing
    exact ⟨[], rfl, .nil, (slice_empty _ _).symm⟩
  | cons request requests inductionHypothesis =>
    obtain ⟨calls, cut⟩ := request
    obtain ⟨some', rest⟩ : lo < cut ∧ Increasing session.totalBytes cut (requests.map Prod.snd) :=
      increasing
    have upper := rest.le
    have ready := later.trans (Later.serveAll H calls after)
    have answered := run_range_later sound ready found isSealed lower some' upper
    obtain ⟨downloads, requested, pieces, joined⟩ := inductionHypothesis ready (by omega) rest
    have length : ((contentOf (db.chunksOf id)).length : Int) = session.totalBytes := by
      obtain rfl := session?_id found
      exact (sound.certified found isSealed).length
    refine ⟨rangeDownload session lo cut (slice (contentOf (db.chunksOf id)) lo cut) :: downloads,
      ?_, ?_, ?_⟩
    · rw [requestRanges, answered, List.map_cons, requested]
    · exact .cons (rangeDownload_piece (slice_length _ lower (Int.le_of_lt some') (by omega))) pieces
    · rw [List.flatMap_cons, joined]
      exact slice_join _ lower (Int.le_of_lt some') upper

/-! ## Every package, and every range -/

variable (H) in
structure RangeReads (db : Store) (id : String) (session : UploadSession) : Prop where
  /-- The bodies of the ranges, in order, are the body of the whole. -/
  reassembled : ∀ {requests : List (List Call × Int)},
    Increasing session.totalBytes 0 (requests.map Prod.snd) →
      ∃ downloads whole, requestRanges H id 0 requests db = downloads.map .ok ∧
        List.Forall₂ (Piece session.totalBytes) (spansFrom 0 (requests.map Prod.snd)) downloads ∧
        ((downloadContent H id []).run db).1 = .ok whole ∧ whole.statusCode = 200 ∧
        downloads.flatMap Download.body = whole.body ∧ whole.body = contentOf (db.chunksOf id)
  /-- A partial response gives its length, and its interval asks for the same response. -/
  resent : ∀ {rangeValues : List String} {download : Download},
    ((downloadContent H id rangeValues).run db).1 = .ok download → download.statusCode = 206 →
      download.header "Content-Length" = some (toString download.body.length) ∧
      ∃ begin stop, download.header "Content-Range" =
          some s!"bytes {interval begin stop}/{session.totalBytes}" ∧
        ∀ after, Later H db after →
          ((downloadContent H id [s!"bytes={interval begin stop}"]).run after).1 = .ok download

theorem contentRange_interval (begin stop total : Int) :
    s!"bytes {begin}-{stop - 1}/{total}" = s!"bytes {interval begin stop}/{total}" := by
  have joined : ∀ first last all : String, "bytes " ++ first ++ "-" ++ last ++ "/" ++ all =
      "bytes " ++ (first ++ "-" ++ last) ++ "/" ++ all := by
    intro first last all
    simp only [String.append_assoc]
  exact joined _ _ _

/-- What a request answered with 206 has asked for. -/
theorem partial_answer {db : Store} {id : String} {session : UploadSession} (sound : Sound H db)
    (found : db.session? id = some session) (isSealed : session.status = .sealed)
    {rangeValues : List String} {download : Download}
    (answered : ((downloadContent H id rangeValues).run db).1 = .ok download)
    (isPartial : download.statusCode = 206) :
    ∃ begin stop, 0 ≤ begin ∧ begin < stop ∧ stop ≤ session.totalBytes ∧
      download = rangeDownload session begin stop (slice (contentOf (db.chunksOf id)) begin stop) := by
  have nonneg := (sound.consistent found).nonneg
  have bounded := (sound.consistent found).bounded
  obtain rfl := session?_id found
  have certified := sound.certified found isSealed
  match rangeValues with
  | [] =>
    rw [run_download_certified found isSealed certified] at answered
    cases answered
    cases isPartial
  | [header] =>
    rw [run_downloadRange found isSealed] at answered
    cases parsed : parseSingleRange header session.totalBytes with
    | error exception =>
      rw [parsed] at answered
      cases answered
    | ok span =>
      obtain ⟨begin, stop⟩ := span
      obtain ⟨lower, some', upper⟩ := parseSingleRange_within (by omega) parsed
      rw [parsed] at answered
      simp only [sealedBytesOf_certified certified lower (Int.le_of_lt some')] at answered
      cases answered
      exact ⟨begin, stop, lower, some', upper, rfl⟩
  | _ :: _ :: _ =>
    rw [downloadContent, Program.run_bind_of_returned (settle_getSessionRow found)] at answered
    simp only [isSealed, ne_eq, not_true_eq_false, if_false] at answered
    cases answered

/-- A sealed package is what its ranges make, and every range can be asked for again. -/
theorem range_reads {db : Store} (reachable : Reachable H db) {id : String} {session : UploadSession}
    (found : db.session? id = some session) (isSealed : session.status = .sealed) :
    RangeReads H db id session where
  reassembled := by
    intro requests increasing
    have sound := reachable.sound
    obtain ⟨downloads, requested, pieces, joined⟩ :=
      requestRanges_spec sound found isSealed .refl (Int.le_refl 0) increasing
    obtain rfl := session?_id found
    have certified := sound.certified found isSealed
    have whole := run_download_certified found isSealed certified
    refine ⟨downloads, _, requested, pieces, congrArg Prod.fst whole, rfl, ?_, rfl⟩
    rw [joined, ← certified.length]
    exact slice_whole _
  resent := by
    intro rangeValues download answered isPartial
    obtain ⟨begin, stop, lower, some', upper, rfl⟩ :=
      partial_answer reachable.sound found isSealed answered isPartial
    refine ⟨rangeDownload_contentLength _ _ _ _, begin, stop, ?_, fun after later => ?_⟩
    · rw [rangeDownload_contentRange, contentRange_interval]
    · exact congrArg Prod.fst
        (run_range_later reachable.sound later found isSealed lower some' upper)

/-- Three bytes in two ranges, compacted in between, and an open range sent back closed. -/
theorem range_reads_compacted :
    let db := serveAll (fun _ => "d")
      [⟨⟨"s", 0, true⟩, .createSession 3 "d"⟩, ⟨⟨"", 0, true⟩, .putChunk "s" 0 3 "d" [1, 2, 3]⟩]
      Store.empty
    let session : UploadSession := ⟨"s", 3, "d", 3, .sealed, some "d", none, 0⟩
    let requests : List (List Call × Int) := [([], 2), ([⟨⟨"", 0, true⟩, .compactSealed "s" 1⟩], 3)]
    RangeReads (fun _ => "d") db "s" session ∧
      (∃ downloads whole, requestRanges (fun _ => "d") "s" 0 requests db = downloads.map .ok ∧
        List.Forall₂ (Piece 3) [(0, 2), (2, 3)] downloads ∧
        ((downloadContent (fun _ => "d") "s" []).run db).1 = .ok whole ∧ whole.statusCode = 200 ∧
        downloads.flatMap Download.body = whole.body ∧ whole.body = [1, 2, 3]) := by
  intro db session requests
  have reads := range_reads (reachable_serveAll (fun _ => "d")
    [⟨⟨"s", 0, true⟩, .createSession 3 "d"⟩, ⟨⟨"", 0, true⟩, .putChunk "s" 0 3 "d" [1, 2, 3]⟩])
    (show db.session? "s" = some session by decide) rfl
  exact ⟨reads, reads.reassembled ⟨by decide, by decide, rfl⟩⟩

end

end SeismicIngest
