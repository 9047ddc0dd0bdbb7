import SeismicIngest.Model.Service
import SeismicIngest.Spans.Pages

/-! # Paging through the sessions

`list_sessions` orders by the creation time alone.  Sessions created at the same time
have no order of their own, so the pages of a listing hold each session once exactly
when no two of them with one creation time stand on both sides of a page boundary.  The
route bounds the limit from above only: a negative one reaches the database
(`session_pages_iff`).
-/

namespace SeismicIngest

open Transaction Spans

/-! ## One query -/

/-- The rows a status filter selects. -/
def matchesFilter : Option Status → UploadSession → Bool
  | none, _ => true
  | some named, row => row.status = named

def matchingSessions (db : Store) (filter : Option Status) : List UploadSession :=
  db.uploadSessions.filter (matchesFilter filter)

section Query

variable {db : Store} {scan : ScanOrder}

theorem run_listPage (matching : UploadSession → Bool) (limit offset : Int) :
    (listPage scan matching limit offset).run db =
      (if limit < 0 ∨ ¬ fitsBigint offset then .error (.database .dataError)
        else .ok ((((newestFirst scan (db.uploadSessions.filter matching)).drop offset.toNat).take
          limit.toNat).map sessionToResponse), db) := by
  rw [listPage, Program.run_bind_of_returned (Program.settle_select _ _)]
  split <;> rfl

theorem statusNamed_text (status : Status) : statusNamed status.text = some status := by
  cases status <;> decide

theorem listSessions_filter (filter : Option Status) (limit offset : Int) :
    listSessions scan (filter.map Status.text) limit offset =
      listPage scan (matchesFilter filter) (min limit 1000) (max offset 0) := by
  cases filter with
  | none => rfl
  | some named =>
    rw [Option.map_some, listSessions]
    simp only [statusNamed_text]
    rfl

/-- The query orders the rows it meets. -/
theorem newestFirst_ordered (scan : ScanOrder) (rows : List UploadSession) :
    Ordered UploadSession.createdAt rows (newestFirst scan rows) where
  perm := (Ordered.sorted _).perm.trans (scan.complete rows)
  descending := (Ordered.sorted _).descending

/-- A scan that meets the rows of a listing as they stand there. -/
def ScanOrder.meeting (listed : List UploadSession) : ScanOrder where
  arrange rows := if listed.Perm rows then listed else rows
  complete rows := by
    split
    · assumption
    · exact .refl rows

/-- Every order of the ties is the answer of some scan. -/
theorem newestFirst_meeting {rows listed : List UploadSession}
    (ordered : Ordered UploadSession.createdAt rows listed) :
    newestFirst (.meeting listed) rows = listed := by
  have met : (ScanOrder.meeting listed).arrange rows = listed := if_pos ordered.perm
  rw [newestFirst, met]
  exact List.Pairwise.insertionSort_eq ordered.descending

end Query

/-! ## Pages -/

/-- The number of pages that hold the matching sessions. -/
def sessionPages (db : Store) (filter : Option Status) (size : Nat) : Nat :=
  pageCount size (matchingSessions db filter).length

section

variable (db : Store) (filter : Option Status) (size : Nat)

/-- The queries `limit = size`, `offset = k * size` list each matching session once,
    newest first; the scans are the orders in which the queries meet the rows. -/
structure ListedOnce (scans : Nat → ScanOrder) : Prop where
  listed : ∃ (pages : Nat → List SessionResponse) (rows : List UploadSession),
    (∀ k < sessionPages db filter size,
      (listSessions (scans k) (filter.map Status.text) size (k * size : Nat)).run db =
        (.ok (pages k), db)) ∧
    (List.range (sessionPages db filter size)).flatMap pages = rows.map sessionToResponse ∧
    Ordered UploadSession.createdAt (matchingSessions db filter) rows
  further : ∀ k, sessionPages db filter size ≤ k → ((k * size : Nat) : Int) < 2 ^ 63 →
    (listSessions (scans k) (filter.map Status.text) size (k * size : Nat)).run db = (.ok [], db)

/-- No two sessions with one creation time stand on both sides of a page boundary, and
    the pages start below 2^63. -/
structure CutByTime : Prop where
  cut : Cut size (descendingKeys UploadSession.createdAt (matchingSessions db filter))
  starts : ∀ k < sessionPages db filter size, ((k * size : Nat) : Int) < 2 ^ 63

end

section Pages

variable {db : Store} {filter : Option Status} {size : Nat} {scan : ScanOrder}

theorem run_page (atMost : size ≤ 1000) {k : Nat} (starts : ((k * size : Nat) : Int) < 2 ^ 63) :
    (listSessions scan (filter.map Status.text) size (k * size : Nat)).run db =
      (.ok ((page size k (newestFirst scan (matchingSessions db filter))).map sessionToResponse),
        db) := by
  have fits : fitsBigint (max ((k * size : Nat) : Int) 0) = true :=
    fitsBigint_of_nonneg (by omega) (by omega)
  rw [listSessions_filter, run_listPage, if_neg (not_or.mpr ⟨by omega, not_not.mpr fits⟩), page, matchingSessions,
    show (min (size : Int) 1000).toNat = size by omega,
    show (max ((k * size : Nat) : Int) 0).toNat = k * size by omega]

/-- A page that starts beyond `BIGINT` is an error of the driver. -/
theorem run_page_beyond {k : Nat} (beyond : 2 ^ 63 ≤ ((k * size : Nat) : Int)) :
    (listSessions scan (filter.map Status.text) size (k * size : Nat)).run db =
      (.error (.database .dataError), db) := by
  have range : fitsBigint (max ((k * size : Nat) : Int) 0) = false := by
    rw [fitsBigint, decide_eq_false_iff_not]
    omega
  rw [listSessions_filter, run_listPage, if_pos (.inr (by rw [range]; exact Bool.false_ne_true))]

theorem listedOnce_of_cut (positive : 1 ≤ size) (atMost : size ≤ 1000) (cut : CutByTime db filter size)
    (scans : Nat → ScanOrder) : ListedOnce db filter size scans := by
  let answers k := newestFirst (scans k) (matchingSessions db filter)
  have ordered : ∀ k, Ordered UploadSession.createdAt (matchingSessions db filter) (answers k) :=
    fun k => newestFirst_ordered (scans k) _
  refine ⟨⟨fun k => (page size k (answers k)).map sessionToResponse,
    paged size (sessionPages db filter size) answers, ?_, ?_, ?_⟩, ?_⟩
  · exact fun k inside => run_page atMost (cut.starts k inside)
  · rw [paged, List.map_flatMap]
  · exact paged_ordered ordered positive cut.cut
  · intro k beyond starts
    have past : (answers k).length ≤ k * size := by
      rw [(ordered k).length]
      exact Nat.le_of_not_lt fun inside => Nat.not_lt.mpr beyond ((lt_pageCount positive).mpr inside)
    rw [run_page atMost starts, page, List.drop_eq_nil_of_le past, List.take_nil, List.map_nil]

theorem cut_of_listedOnce (ids : (db.uploadSessions.map UploadSession.id).Nodup) (positive : 1 ≤ size)
    (atMost : size ≤ 1000) (once : ∀ scans, ListedOnce db filter size scans) :
    CutByTime db filter size := by
  have starts : ∀ k < sessionPages db filter size, ((k * size : Nat) : Int) < 2 ^ 63 := by
    intro k inside
    obtain ⟨⟨pages, -, answered, -⟩, -⟩ := once fun _ => ⟨id, .refl⟩
    by_contra beyond
    have error := answered k inside
    rw [run_page_beyond (by omega)] at error
    simp at error
  refine ⟨?_, starts⟩
  by_contra uncut
  -- scans that let one session appear on two pages
  obtain ⟨answers, ordered, repeated⟩ := exists_repeated positive uncut
  obtain ⟨⟨pages, rows, answered, together, listed⟩, -⟩ := once fun k => .meeting (answers k)
  have shown : ∀ k ∈ List.range (sessionPages db filter size),
      pages k = (page size k (answers k)).map sessionToResponse := by
    intro k member
    have inside := List.mem_range.mp member
    have answer := (answered k inside).symm.trans (run_page atMost (starts k inside))
    rw [newestFirst_meeting (ordered k)] at answer
    exact Except.ok.inj (congrArg Prod.fst answer)
  rw [List.flatMap_congr shown, ← List.map_flatMap] at together
  have sameIds : (paged size (sessionPages db filter size) answers).map UploadSession.id =
      rows.map UploadSession.id := by
    have responses := congrArg (List.map SessionResponse.id) together
    rw [List.map_map, List.map_map] at responses
    exact responses
  have distinct : (rows.map UploadSession.id).Nodup := by
    refine (listed.perm.map _).nodup_iff.mpr ?_
    exact ids.sublist (List.filter_sublist.map _)
  rw [← sameIds] at distinct
  exact repeated (.of_map _ distinct)

end Pages

/-! ## Limits and offsets -/

/-- A list of at most 1000 sessions, or a refusal. -/
def AnswersPage (db : Store) (scan : ScanOrder) (status : Option String) (limit offset : Int) : Prop :=
  (∃ sessions, (listSessions scan status limit offset).run db = (.ok sessions, db) ∧
    sessions.length ≤ 1000) ∨
  ∃ error, (listSessions scan status limit offset).run db = (.error (.upload error), db)

theorem answersPage_iff {db : Store} {scan : ScanOrder} {status : Option String} {limit offset : Int}
    (below : offset < 2 ^ 63) :
    AnswersPage db scan status limit offset ↔
      0 ≤ limit ∨ ∃ text, status = some text ∧ statusNamed text = none := by
  have fits : fitsBigint (max offset 0) = true := fitsBigint_of_nonneg (by omega) (by omega)
  by_cases refused : ∃ text, status = some text ∧ statusNamed text = none
  · obtain ⟨text, rfl, unnamed⟩ := refused
    refine ⟨fun _ => .inr ⟨text, rfl, unnamed⟩, fun _ => .inr ⟨invalidStatus, ?_⟩⟩
    simp only [listSessions, unnamed]
    rfl
  · obtain ⟨filter, named⟩ : ∃ filter, listSessions scan status limit offset =
        listPage scan (matchesFilter filter) (min limit 1000) (max offset 0) := by
      cases status with
      | none => exact ⟨none, rfl⟩
      | some text =>
        cases found : statusNamed text with
        | none => exact absurd ⟨text, rfl, found⟩ refused
        | some named => exact ⟨some named, by simp only [listSessions, found]; rfl⟩
    rw [AnswersPage, named, run_listPage, or_iff_left refused]
    constructor
    · rintro (⟨sessions, answered, -⟩ | ⟨error, answered⟩)
      · by_contra negative
        rw [if_pos (.inl (by omega))] at answered
        simp at answered
      · split at answered <;> simp at answered
    · intro nonneg
      rw [if_neg (not_or.mpr ⟨by omega, not_not.mpr fits⟩)]
      refine .inl ⟨_, rfl, ?_⟩
      rw [List.length_map, List.length_take]
      omega

/-! ## The route -/

/-- When paging lists every session once, and when one request is answered. -/
structure PagingRoute (db : Store) : Prop where
  once : ∀ {filter size}, 1 ≤ size → size ≤ 1000 →
    ((∀ scans, ListedOnce db filter size scans) ↔ CutByTime db filter size)
  answered : ∀ {scan status limit offset}, offset < 2 ^ 63 →
    (AnswersPage db scan status limit offset ↔
      0 ≤ limit ∨ ∃ text, status = some text ∧ statusNamed text = none)

/-- Paging depends on ties across the page boundaries, and an answer on the sign of the
    limit. -/
theorem session_pages_iff {db : Store} (ids : (db.uploadSessions.map UploadSession.id).Nodup) :
    PagingRoute db where
  once := fun positive atMost =>
    ⟨cut_of_listedOnce ids positive atMost, listedOnce_of_cut positive atMost⟩
  answered := answersPage_iff

/-- Two sessions of one byte, created at the same time. -/
def tiedSessions : Store :=
  serveAll (fun _ => "d") [⟨⟨"a", 0, true⟩, .createSession 1 "0000000000000000000000000000000000000000000000000000000000000000"⟩,
    ⟨⟨"b", 0, true⟩, .createSession 1 "0000000000000000000000000000000000000000000000000000000000000000"⟩] Store.empty

theorem session_pages_tiedSessions : PagingRoute tiedSessions :=
  session_pages_iff (by decide)

/-- The first query meets the rows in the order of the table, the others in the
    opposite order. -/
def turningScans (k : Nat) : ScanOrder :=
  if k = 0 then ⟨id, .refl⟩ else ⟨List.reverse, List.reverse_perm⟩

/-- Two pages of one session show the first session twice and the second never; and a
    limit of -1 ends in an error of the driver. -/
theorem session_pages_repeated :
    (∀ k < 2, ((listSessions (turningScans k) none 1 k).run tiedSessions).1.map
      (List.map SessionResponse.id) = .ok ["a"]) ∧
    ¬ ListedOnce tiedSessions none 1 turningScans ∧
    ((listSessions (turningScans 0) none (-1) 0).run tiedSessions).1 =
      .error (.database .dataError) := by
  have pages : ∀ k < 2, ((listSessions (turningScans k) none 1 k).run tiedSessions).1.map
      (List.map SessionResponse.id) = .ok ["a"] := by decide
  refine ⟨pages, ?_, by decide⟩
  rintro ⟨⟨shown, rows, answered, together, listed⟩, -⟩
  have count : sessionPages tiedSessions none 1 = 2 := by decide
  have alike : ∀ k < 2, (shown k).map SessionResponse.id = ["a"] := by
    intro k inside
    have page := pages k inside
    have answer := congrArg Prod.fst (answered k (count ▸ inside))
    rw [Nat.mul_one] at answer
    change ((listSessions (turningScans k) none 1 k).run tiedSessions).1 = _ at answer
    rw [answer] at page
    exact Except.ok.inj page
  have ids := listed.perm.map UploadSession.id
  have same : rows.map UploadSession.id = ["a", "a"] := by
    have responses : _ = rows.map UploadSession.id :=
      (congrArg (List.map SessionResponse.id) together).trans List.map_map
    rw [← responses, count]
    simp [List.range_succ, alike]
  rw [same] at ids
  exact absurd ids (by decide)

end SeismicIngest
