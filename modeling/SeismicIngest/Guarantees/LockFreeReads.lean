import SeismicIngest.Guarantees.Serialisable
import SeismicIngest.Guarantees.Comparing
import SeismicIngest.Verified.Observing
import SeismicIngest.Verified.RangeHeader

/-! # Reads beside compactions

A download and a comparison read without a lock, in several statements.  Every statement
finds one complete layout of a sealed package, and always of the same bytes (`Package`), so
neither depends on which layout it finds: both answer among any number of puts and
compactions what they answer alone (`readers_undisturbed`).
-/

namespace SeismicIngest

open Transaction Spans

section

variable {H : Bytes → String} {ι : Type}

/-! ## Packages -/

variable (H) in
/-- The store holds the sealed package of these bytes, in some complete layout. -/
structure Package (session : UploadSession) (content : Bytes) (db : Store) : Prop where
  found : db.session? session.id = some session
  isSealed : session.status = .sealed
  certified : Certified H session (db.chunksOf session.id)
  holds : contentOf (db.chunksOf session.id) = content
  consistent : ∃ audits, Consistent H session (db.chunksOf session.id) audits

theorem RowsSound.package {db : Store} {session : UploadSession}
    (sound : RowsSound H (db.rowsOf session.id)) (found : db.session? session.id = some session)
    (isSealed : session.status = .sealed) :
    Package H session (contentOf (db.rowsOf session.id).chunks) db := by
  have consistent := sound.consistent found
  have ordered := sound.chunksOf found
  exact {
    found := found
    isSealed := isSealed
    certified := by rw [ordered]; exact consistent.certified isSealed
    holds := by rw [ordered]
    consistent := ⟨_, by rw [ordered]; exact consistent⟩ }

/-- What a download of a package answers, in any layout. -/
def packageDownload (session : UploadSession) (content : Bytes) : List String → Except Raised Download
  | [] => .ok (wholeDownload session content)
  | [header] =>
    match parseSingleRange header session.totalBytes with
    | .error exception => .error exception
    | .ok (begin, stop) => .ok (rangeDownload session begin stop (slice content begin stop))
  | rangeValues => .error (.upload (multiRange rangeValues))

section Package

variable {session : UploadSession} {content : Bytes} {db : Store}

/-- A verified read of a package finds the bytes it is asked for. -/
theorem Package.slice (package : Package H session content db) {begin stop : Int} (lower : 0 ≤ begin)
    (ordered : begin ≤ stop) :
    sealedBytesOf H session (db.chunksOf session.id) begin stop =
      .ok (Spans.slice content begin stop) := by
  rw [sealedBytesOf_certified package.certified lower ordered, package.holds]

theorem Package.length (package : Package H session content db) :
    (content.length : Int) = session.totalBytes := by
  rw [← package.holds]
  exact package.certified.length

theorem Package.whole (package : Package H session content db) :
    sealedBytesOf H session (db.chunksOf session.id) 0 session.totalBytes = .ok content := by
  have length := package.length
  rw [package.slice (Int.le_refl 0) (by omega), ← length, slice_whole]

/-- A download alone. -/
theorem Package.run_download (package : Package H session content db) (rangeValues : List String) :
    (downloadContent H session.id rangeValues).run db =
      (packageDownload session content rangeValues, db) := by
  match rangeValues with
  | [] =>
    rw [run_downloadContent package.found package.isSealed, package.whole]
    rfl
  | [header] =>
    rw [run_downloadRange package.found package.isSealed, packageDownload]
    cases parsed : parseSingleRange header session.totalBytes with
    | error exception => rfl
    | ok span =>
      obtain ⟨begin, stop⟩ := span
      have length := package.length
      obtain ⟨lower, ordered, -⟩ := parseSingleRange_within (by omega) parsed
      simp only [package.slice lower (Int.le_of_lt ordered)]
  | _ :: _ :: _ =>
    rw [downloadContent, Program.run_bind_of_returned (settle_getSessionRow package.found)]
    simp only [package.isSealed, ne_eq, not_true_eq_false, if_false]
    rfl

end Package

/-! ## Several statements -/

section Along

variable {rely : Store → Store → Prop} {moment : Nat → Store} {last t : Nat}
variable {session : UploadSession} {content : Bytes}
variable (packages : ∀ t, Package H session content (moment t))

include packages

theorem packageRow_along {α : Type} {next : UploadSession → Db α} {answer : Except Raised α}
    (along : (getSessionRow session.id >>= next).AnswersAlong rely moment answer last id t) :
    ∃ later, Program.Waits rely moment t later ∧
      (next session).AnswersAlong rely moment answer last id later := by
  obtain ⟨later, waits, ⟨missing, -⟩ | ⟨other, found, rest⟩⟩ := getSessionRow_along along
  · rw [(packages later).found] at missing
    cases missing
  · obtain rfl := Option.some.inj ((packages later).found.symm.trans found)
    exact ⟨later, waits, rest⟩

theorem verifiedSealedBytes_along {α : Type} {next : Bytes → Db α} {answer : Except Raised α}
    {begin stop : Int} (lower : 0 ≤ begin) (ordered : begin ≤ stop)
    (along : (verifiedSealedBytes H session begin stop >>= next).AnswersAlong rely moment answer last
      id t) :
    ∃ later, (next (slice content begin stop)).AnswersAlong rely moment answer last id later := by
  obtain ⟨later, -, rest⟩ := along
  simp only [id, Program.bind, (packages later).slice lower ordered] at rest
  exact ⟨later, rest⟩

/-- A side of a comparison is read in one layout of its package. -/
theorem verifiedArchiveChunks_along {α : Type} {next : List Chunk → Db α} {answer : Except Raised α}
    {side : String}
    (along : (verifiedArchiveChunks H session side >>= next).AnswersAlong rely moment answer last
      id t) :
    ∃ later chunks audits, Program.Waits rely moment t later ∧ contentOf chunks = content ∧
      Consistent H session chunks audits ∧
      (next chunks).AnswersAlong rely moment answer last id later := by
  obtain ⟨later, waits, rest⟩ := along
  obtain ⟨audits, consistent⟩ := (packages later).consistent
  simp only [id, Program.bind, archiveChunksOf_certified (packages later).certified] at rest
  exact ⟨later, _, audits, waits, (packages later).holds, consistent, rest⟩

/-- A download in two statements. -/
theorem downloadContent_along {rangeValues : List String} {answer : Except Raised Download}
    (along : (downloadContent H session.id rangeValues).AnswersAlong rely moment answer last id t) :
    answer = packageDownload session content rangeValues := by
  have length := (packages 0).length
  obtain ⟨first, -, rest⟩ := packageRow_along packages along
  simp only [(packages first).isSealed, ne_eq, not_true_eq_false, if_false] at rest
  match rangeValues with
  | [] =>
    obtain ⟨second, answered, -⟩ :=
      verifiedSealedBytes_along packages (Int.le_refl 0) (by omega) rest
    rw [answered, packageDownload, ← length, slice_whole]
    rfl
  | [header] =>
    rw [packageDownload]
    cases parsed : parseSingleRange header session.totalBytes with
    | error exception =>
      simp only [parsed] at rest
      exact rest.1
    | ok span =>
      obtain ⟨begin, stop⟩ := span
      obtain ⟨lower, ordered, -⟩ := parseSingleRange_within (by omega) parsed
      simp only [parsed] at rest
      obtain ⟨second, answered, -⟩ :=
        verifiedSealedBytes_along packages lower (Int.le_of_lt ordered) rest
      exact answered
  | _ :: _ :: _ => exact rest.1

omit packages in
/-- A comparison in seven statements stores the record of the two contents, unless its id was
    taken from the start. -/
theorem createComparison_along {baseline candidate : UploadSession} {left right : Bytes}
    (baselines : ∀ t, Package H baseline left (moment t))
    (candidates : ∀ t, Package H candidate right (moment t)) {env : Env}
    {answer : Except Raised Comparison}
    (along : (createComparison H env baseline.id candidate.id).AnswersAlong
      (Meanwhile fun db => db.comparison? env.uuid) moment answer last id 0) :
    (((moment 0).comparison? env.uuid).isSome ∧ answer = .error (.database .integrityError)) ∨
      (moment 0).comparison? env.uuid = none ∧
        answer = .ok (contentRecord env baseline candidate left right) ∧
        (moment last).comparison? env.uuid = some (contentRecord env baseline candidate left right) := by
  obtain ⟨first, toFirst, rest⟩ := packageRow_along baselines along
  obtain ⟨second, toSecond, rest⟩ := packageRow_along candidates rest
  simp only [(baselines 0).isSealed, (candidates 0).isSealed, ne_eq, not_true_eq_false, if_false]
    at rest
  obtain ⟨third, leftRows, leftAudits, toThird, leftHolds, leftConsistent, rest⟩ :=
    verifiedArchiveChunks_along baselines rest
  obtain ⟨fourth, rightRows, rightAudits, toFourth, rightHolds, rightConsistent, rest⟩ :=
    verifiedArchiveChunks_along candidates rest
  -- whatever layouts were found, the walk compares the contents
  simp only [streamsFirstDifference_consistent leftConsistent rightConsistent, leftHolds, rightHolds]
    at rest
  obtain ⟨fifth, toFifth, stored⟩ :=
    @keepRecord_along _ _ _ (contentRecord env baseline candidate left right) _ rest
  have trans := fun first second third =>
    @Meanwhile.trans _ (fun db : Store => db.comparison? env.uuid) first second third
  have untouched : (moment fifth).comparison? env.uuid = (moment 0).comparison? env.uuid :=
    ((((toFirst.trans trans toSecond).trans trans toThird).trans trans toFourth).trans trans
      toFifth).2.stays
  have rejects := contentRecord_rejects leftConsistent rightConsistent (baselines fifth).found
    (candidates fifth).found env
  rw [leftHolds, rightHolds, untouched] at rejects
  rw [rejects] at stored
  obtain ⟨error, refused, answered⟩ | ⟨accepted, answered, kept⟩ := stored
  · split at refused
    · rename_i taken
      cases refused
      exact .inl ⟨taken, answered⟩
    · cases refused
  · split at accepted
    · cases accepted
    · rename_i free
      exact .inr ⟨Option.not_isSome_iff_eq_none.mp free, answered, kept⟩

end Along

/-! ## Every schedule -/

section Runs

variable [DecidableEq ι] {calls : ι → Call} {key : ι → String} {initial : Store}

section Among

variable (clients : ∀ i, (calls i).WritesTo (key i) ∨ (calls i).request.observes = true)
variable (sound : Sound H initial) (schedule : List ι)

include clients sound

/-- A sealed package is there at every time, in some layout. -/
theorem package_committed {session : UploadSession}
    (found : initial.session? session.id = some session) (isSealed : session.status = .sealed)
    (t : Nat) :
    Package H session (contentOf (initial.chunksOf session.id))
      (committedAt H calls initial schedule t) := by
  obtain ⟨later, laterFound, evolves⟩ :=
    committedAt_since clients sound.rows schedule t session.id session found
  obtain ⟨rfl, same⟩ := evolves.frozen (by simp [isSealed])
  have package := (committedAt_sound clients sound.rows schedule t later.id).package laterFound isSealed
  rwa [same, ← (sound.rows _).chunksOf found] at package

theorem download_committed {i : ι} {env : Env} {session : UploadSession} {rangeValues : List String}
    {answer : Except Raised Reply} (request : calls i = ⟨env, .downloadContent session.id rangeValues⟩)
    (found : initial.session? session.id = some session) (isSealed : session.status = .sealed)
    (answered : (runClients H calls initial schedule).Answered i answer) :
    answer = (packageDownload session (contentOf (initial.chunksOf session.id)) rangeValues).map
      .content := by
  have along := meanwhile_along clients sound.rows schedule (by rw [request]; rfl)
    (fun _ _ => Program.Keeps.const () _) answered
  rw [clientProgram, request] at along
  obtain ⟨result, read, rfl⟩ := Program.answersAlong_map along
  rw [downloadContent_along (package_committed clients sound schedule found isSealed) read]

omit clients [DecidableEq ι] in
/-- The download alone. -/
theorem download_alone {i : ι} {env : Env} {session : UploadSession} {rangeValues : List String}
    (request : calls i = ⟨env, .downloadContent session.id rangeValues⟩)
    (found : initial.session? session.id = some session) (isSealed : session.status = .sealed) :
    ((calls i).serve H initial).1 =
      (packageDownload session (contentOf (initial.chunksOf session.id)) rangeValues).map .content := by
  have package := (sound.rows session.id).package found isSealed
  have served : (Call.mk env (.downloadContent session.id rangeValues)).serve H initial =
      (((downloadContent H session.id rangeValues).run initial).1.map .content,
        ((downloadContent H session.id rangeValues).run initial).2) := Program.run_map _ _ _
  rw [request, served, package.run_download, (sound.rows _).chunksOf found]

section Comparison

variable {i : ι} {env : Env} {baseline candidate : UploadSession}
  (request : calls i = ⟨env, .createComparison baseline.id candidate.id⟩)
  (baselineFound : initial.session? baseline.id = some baseline)
  (baselineSealed : baseline.status = .sealed)
  (candidateFound : initial.session? candidate.id = some candidate)
  (candidateSealed : candidate.status = .sealed)

include request baselineFound baselineSealed candidateFound candidateSealed

theorem comparison_committed (others : ∀ j, j ≠ i → ∀ other left right,
      calls j = ⟨other, .createComparison left right⟩ → other.uuid ≠ env.uuid)
    {answer : Except Raised Reply}
    (answered : (runClients H calls initial schedule).Answered i answer) :
    let record := contentRecord env baseline candidate (contentOf (initial.chunksOf baseline.id))
      (contentOf (initial.chunksOf candidate.id))
    ((initial.comparison? env.uuid).isSome ∧ answer = .error (.database .integrityError)) ∨
      initial.comparison? env.uuid = none ∧ answer = .ok (.comparison record) ∧
        (runClients H calls initial schedule).committed.comparison? env.uuid = some record := by
  intro record
  have along := meanwhile_along clients sound.rows schedule (by rw [request]; rfl)
    (fun j other => Call.keeps_comparison (clients j) (others j other)) answered
  rw [clientProgram, request] at along
  obtain ⟨result, read, rfl⟩ := Program.answersAlong_map along
  have last : committedAt H calls initial schedule schedule.length =
      (runClients H calls initial schedule).committed := System.moment_last _ _
  obtain ⟨taken, refused⟩ | ⟨free, recorded, stored⟩ := createComparison_along
    (package_committed clients sound schedule baselineFound baselineSealed)
    (package_committed clients sound schedule candidateFound candidateSealed) read
  · rw [refused]
    exact .inl ⟨taken, rfl⟩
  · rw [recorded, ← last]
    exact .inr ⟨free, rfl, stored⟩

omit clients [DecidableEq ι] in
/-- The comparison alone. -/
theorem comparison_alone :
    ((calls i).serve H initial).1 =
      if (initial.comparison? env.uuid).isSome then .error (.database .integrityError)
      else .ok (.comparison (contentRecord env baseline candidate
        (contentOf (initial.chunksOf baseline.id)) (contentOf (initial.chunksOf candidate.id)))) := by
  rw [request, serve_createComparison, run_createComparison_contents sound baselineFound
    candidateFound baselineSealed candidateSealed, (sound.rows _).chunksOf baselineFound,
    (sound.rows _).chunksOf candidateFound]
  split <;> rfl

end Comparison

omit clients sound in
/-- A reader waits for nobody, and has its answer after seven moves. -/
theorem reader_answers {i : ι}
    (reads : (∃ id rangeValues, (calls i).request = .downloadContent id rangeValues) ∨
      ∃ baseline candidate, (calls i).request = .createComparison baseline candidate)
    (moves : 7 ≤ schedule.count i) :
    ∃ answer, (runClients H calls initial schedule).Answered i answer := by
  have named : ∀ {α : Type} (wrap : α → Reply) {program : Db α}, program.Within 7 →
      (wrap <$> program).Within 7 := by
    intro α wrap program within
    change Program.Within (7 + 0) _
    exact within.bind fun _ => trivial
  have observes : (calls i).request.observes = true := by
    obtain ⟨_, _, request⟩ | ⟨_, _, request⟩ := reads <;> rw [request] <;> rfl
  have within : (clientProgram H calls i).Within 7 := by
    rw [clientProgram, Call.program]
    obtain ⟨id, rangeValues, request⟩ | ⟨baseline, candidate, request⟩ := reads
    · rw [request]
      exact named _ ((downloadContent_within id rangeValues).mono (by omega))
    · rw [request]
      exact named _ (createComparison_within _ baseline candidate)
  have lockFree : (clientProgram H calls i).LockFree := (Call.program_observer observes).lockFree
  exact System.answered_after lockFree within moves

end Among

variable (H) in
/-- What the readers of sealed packages find and answer along a schedule. -/
structure ReadersUndisturbed (calls : ι → Call) (initial : Store) (schedule : List ι) : Prop where
  /-- Every moment shows a complete layout of the bytes that were sealed. -/
  layouts : ∀ {session}, initial.session? session.id = some session → session.status = .sealed →
    ∀ t, Package H session (contentOf (initial.chunksOf session.id))
      (committedAt H calls initial schedule t)
  /-- A download answers with the bytes it asks for, as it does alone. -/
  download : ∀ {i env session rangeValues answer},
    calls i = ⟨env, .downloadContent session.id rangeValues⟩ →
      initial.session? session.id = some session → session.status = .sealed →
        (runClients H calls initial schedule).Answered i answer →
          answer = (packageDownload session (contentOf (initial.chunksOf session.id))
              rangeValues).map .content ∧
            answer = ((calls i).serve H initial).1
  /-- A comparison answers as it does alone, and its record is stored. -/
  comparison : ∀ {i env baseline candidate answer},
    calls i = ⟨env, .createComparison baseline.id candidate.id⟩ →
      initial.session? baseline.id = some baseline → baseline.status = .sealed →
        initial.session? candidate.id = some candidate → candidate.status = .sealed →
          (∀ j, j ≠ i → ∀ other left right,
            calls j = ⟨other, .createComparison left right⟩ → other.uuid ≠ env.uuid) →
            (runClients H calls initial schedule).Answered i answer →
              answer = ((calls i).serve H initial).1 ∧
                (initial.comparison? env.uuid = none →
                  let record := contentRecord env baseline candidate
                    (contentOf (initial.chunksOf baseline.id))
                    (contentOf (initial.chunksOf candidate.id))
                  answer = .ok (.comparison record) ∧
                    (runClients H calls initial schedule).committed.comparison? env.uuid =
                      some record)
  /-- Neither waits for anybody. -/
  answers : ∀ {i}, (∃ id rangeValues, (calls i).request = .downloadContent id rangeValues) ∨
      (∃ baseline candidate, (calls i).request = .createComparison baseline candidate) →
    7 ≤ schedule.count i → ∃ answer, (runClients H calls initial schedule).Answered i answer

/-- Readers of sealed packages do not notice puts and compactions. -/
theorem readers_undisturbed (reachable : Reachable H initial)
    (clients : ∀ i, (calls i).WritesTo (key i) ∨ (calls i).request.observes = true)
    (schedule : List ι) : ReadersUndisturbed H calls initial schedule := by
  have sound := reachable.sound
  refine ⟨package_committed clients sound schedule, ?_, ?_, reader_answers schedule⟩
  · intro i env session rangeValues answer request found isSealed answered
    have among := download_committed clients sound schedule request found isSealed answered
    exact ⟨among, among.trans (download_alone sound request found isSealed).symm⟩
  · intro i env baseline candidate answer request baselineFound baselineSealed candidateFound
      candidateSealed others answered
    have alone := comparison_alone sound request baselineFound baselineSealed candidateFound
      candidateSealed
    obtain ⟨taken, among⟩ | ⟨free, among, stored⟩ := comparison_committed clients sound schedule
      request baselineFound baselineSealed candidateFound candidateSealed others answered
    · rw [if_pos taken] at alone
      refine ⟨among.trans alone.symm, fun free => ?_⟩
      rw [free] at taken
      cases taken
    · rw [free] at alone
      exact ⟨among.trans alone.symm, fun _ => ⟨among, stored⟩⟩

/-- A package of three bytes, sealed in one chunk. -/
def sealedTriple : Store :=
  serveAll (fun _ => "d")
    [⟨⟨"s", 0, true⟩, .createSession 3 "d"⟩, ⟨⟨"", 0, true⟩, .putChunk "s" 0 3 "d" [1, 2, 3]⟩]
    Store.empty

/-- One client compares the package with itself, one compacts it, and one reads its tail. -/
def readersAndCompaction : Fin 3 → Call
  | 0 => ⟨⟨"c", 7, true⟩, .createComparison "s" "s"⟩
  | 1 => ⟨⟨"", 0, true⟩, .compactSealed "s" 1⟩
  | 2 => ⟨⟨"", 0, true⟩, .downloadContent "s" ["bytes=1-"]⟩

theorem readersAndCompaction_clients : ∀ i, (readersAndCompaction i).WritesTo "s" ∨
    (readersAndCompaction i).request.observes = true
  | 0 => .inr rfl
  | 1 => .inl (.compactSealed _ _)
  | 2 => .inr rfl

theorem readersAndCompaction_draws : ∀ j, j ≠ 0 → ∀ env left right,
    readersAndCompaction j = ⟨env, .createComparison left right⟩ → env.uuid ≠ "c"
  | 0, self, _, _, _, _ => absurd rfl self
  | 1, _, _, _, _, request => by cases request
  | 2, _, _, _, _, request => by cases request

/-- The compaction is committed between the two reads of the comparison, and between the two
    statements of the download. -/
def readsAround : List (Fin 3) :=
  [2, 0, 0, 0] ++ List.replicate 9 1 ++ [0, 0, 0, 0, 2]

theorem readers_undisturbed_compaction :
    let seen := committedAt (fun _ => "d") readersAndCompaction sealedTriple readsAround
    ReadersUndisturbed (fun _ => "d") readersAndCompaction sealedTriple readsAround ∧
      (seen 4).chunksOf "s" = [⟨"s", 0, 3, 3, "d", [1, 2, 3]⟩] ∧
      (seen 13).chunksOf "s" =
        [⟨"s", 0, 1, 1, "d", [1]⟩, ⟨"s", 1, 2, 1, "d", [2]⟩, ⟨"s", 2, 3, 1, "d", [3]⟩] ∧
      (runClients (fun _ => "d") readersAndCompaction sealedTriple readsAround).Answered 0
        (.ok (.comparison ⟨"c", "s", "s", 3, "d", 3, "d", 3, none, .identical, 7⟩)) := by
  intro seen
  have reachable : Reachable (fun _ => "d") sealedTriple := reachable_serveAll _ _
  have all := readers_undisturbed reachable readersAndCompaction_clients readsAround
  -- both sides are the package itself
  obtain ⟨answer, answered⟩ := @ReadersUndisturbed.answers _ _ _ _ _ _ all 0 (.inr ⟨"s", "s", rfl⟩)
    (by decide)
  have alone : ((readersAndCompaction 0).serve (fun _ => "d") sealedTriple).1 =
      .ok (.comparison ⟨"c", "s", "s", 3, "d", 3, "d", 3, none, .identical, 7⟩) := by decide
  let package : UploadSession := ⟨"s", 3, "d", 3, .sealed, some "d", none, 0⟩
  have found : sealedTriple.session? package.id = some package := by decide
  obtain ⟨same, -⟩ := @ReadersUndisturbed.comparison _ _ _ _ _ _ all 0 _ package package _ rfl found
    rfl found rfl readersAndCompaction_draws answered
  rw [same, alone] at answered
  exact ⟨all, by rfl, by rfl, answered⟩

end Runs

end

end SeismicIngest
