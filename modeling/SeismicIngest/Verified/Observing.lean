import SeismicIngest.Verified.Clients
import SeismicIngest.Transaction.Masking

/-! # Observers of the service

Reads and comparisons take no lock and change no row of a session
(`Call.program_observer`), so beside any number of them puts and compactions go on as they
would alone.  After every move of every schedule the committed rows of each session are
sound (`committedAt_sound`) and have come from the rows before it (`committedAt_evolves`),
and what no call writes stays as it is (`committedAt_keeps`).
-/

namespace SeismicIngest

open Transaction Spans

section

variable {H : Bytes → String} {ι : Type}

/-! ## Programs -/

/-- The request takes no lock and changes no row of a session. -/
def Request.observes : Request → Bool
  | .createSession _ _ | .putChunk _ _ _ _ _ | .compactSealed _ _ => false
  | _ => true

/-- The last statement of `create_comparison` reads the record back. -/
def readBack (record : Comparison) : Db Comparison := do
  match ← Program.select fun db => db.comparison? record.id with
  | some stored => pure stored
  | none => .raise (.database .invalidRequest)

/-- The end of `create_comparison`. -/
def keepRecord (record : Comparison) : Db Comparison := do
  Db.commit [.insertComparison record]
  readBack record

theorem verifiedArchiveChunks_quiet (session : UploadSession) (side : String) :
    (verifiedArchiveChunks H session side).Quiet :=
  (Program.Quiet.select _).bind fun _ => Program.Quiet.lift _

/-- A comparison reads, and then fails or keeps its record. -/
theorem createComparison_walk {holds : Db Comparison → Prop} {env : Env}
    (raises : ∀ exception, holds (.raise exception))
    (reads : ∀ {α : Type} {program : Db α} {next : α → Db Comparison}, program.Quiet →
      (∀ result, holds (next result)) → holds (program >>= next))
    (keeps : ∀ baseline candidate commonPrefix firstDifference,
      holds (keepRecord (comparisonRecord env baseline candidate commonPrefix firstDifference)))
    (baselineId candidateId : String) : holds (createComparison H env baselineId candidateId) := by
  refine reads (getSessionRow_quiet _) fun baseline => reads (getSessionRow_quiet _) fun candidate => ?_
  split
  · exact raises _
  · split
    · exact raises _
    · refine reads (verifiedArchiveChunks_quiet _ _) fun left =>
        reads (verifiedArchiveChunks_quiet _ _) fun right => ?_
      cases streamsFirstDifference (left.map Chunk.data) (right.map Chunk.data) with
      | none => exact raises _
      | some found => exact keeps _ _ _ _

theorem readBack_quiet (record : Comparison) : (readBack record).Quiet := by
  refine (Program.Quiet.select _).bind fun found => ?_
  cases found <;> exact trivial

theorem keepRecord_lockFree (record : Comparison) : (keepRecord record).LockFree := by
  refine Program.LockFree.bind (fun refusal => ?_) fun _ => (readBack_quiet record).lockFree
  cases refusal <;> exact trivial

theorem keepRecord_keeps {τ : Type} {part : Store → τ} {record : Comparison}
    (stays : ∀ db, part ((Write.insertComparison record).apply db) = part db) :
    (keepRecord record).Keeps part := by
  refine Program.Keeps.bind ⟨stays, fun refusal => ?_⟩ fun _ => (readBack_quiet record).keeps
  cases refusal <;> exact trivial

theorem createComparison_lockFree (env : Env) (baselineId candidateId : String) :
    (createComparison H env baselineId candidateId).LockFree :=
  createComparison_walk (fun _ => trivial) (fun quiet nextFree => quiet.lockFree.bind nextFree)
    (fun _ _ _ _ => keepRecord_lockFree _) baselineId candidateId

theorem createComparison_keeps {τ : Type} {part : Store → τ} {env : Env}
    (stays : ∀ record : Comparison, record.id = env.uuid → ∀ db,
      part ((Write.insertComparison record).apply db) = part db) (baselineId candidateId : String) :
    (createComparison H env baselineId candidateId).Keeps part :=
  createComparison_walk (fun _ => trivial) (fun quiet nextKeeps => quiet.keeps.bind nextKeeps)
    (fun _ _ _ _ => keepRecord_keeps (stays _ rfl)) baselineId candidateId

/-- Reads and comparisons are observers. -/
theorem Call.program_observer {call : Call} (observes : call.request.observes = true) :
    Observer rowsView (call.program H) := by
  have reading : call.request.reads = true → Observer rowsView (call.program H) := fun reads =>
    have quiet := Call.program_quiet (H := H) reads
    ⟨quiet.lockFree, fun _ => quiet.keeps⟩
  obtain ⟨env, request⟩ := call
  cases request with
  | createSession _ _ | putChunk _ _ _ _ _ | compactSealed _ _ => cases observes
  | createComparison baseline candidate =>
    exact {
      lockFree := (createComparison_lockFree env baseline candidate).bind fun _ => trivial
      keeps := fun _ => (createComparison_keeps (fun _ _ _ => rfl) baseline candidate).bind
        fun _ => trivial }
  | _ => exact reading rfl

theorem Call.WritesTo.keeps_comparisons {id : String} {call : Call} (writes : call.WritesTo id) :
    (call.program H).Keeps Store.comparisons := by
  obtain writer | quiet := writes.writer (H := H) sessionRowView
  · -- the comparisons are part of what every other session shows
    obtain ⟨other, different⟩ : ∃ other : String, other ≠ id := by
      by_cases empty : id = ""
      · exact ⟨"other", by rw [empty]; decide⟩
      · exact ⟨"", Ne.symm empty⟩
    exact (writer.isLocal.keeps different).map SessionView.comparisons
  · exact quiet.keeps

/-- No client but a comparison that draws the same id touches a record. -/
theorem Call.keeps_comparison {id uuid : String} {call : Call}
    (client : call.WritesTo id ∨ call.request.observes = true)
    (draws : ∀ env baseline candidate, call = ⟨env, .createComparison baseline candidate⟩ →
      env.uuid ≠ uuid) :
    (call.program H).Keeps fun db => db.comparison? uuid := by
  obtain writes | observes := client
  · exact (writes.keeps_comparisons (H := H)).map fun records => records.find? fun row => row.id = uuid
  · have reading : call.request.reads = true →
        (call.program H).Keeps fun db => db.comparison? uuid := fun reads =>
      (Call.program_quiet reads).keeps
    obtain ⟨env, request⟩ := call
    cases request with
    | createSession _ _ | putChunk _ _ _ _ _ | compactSealed _ _ => cases observes
    | createComparison baseline candidate =>
      refine Program.Keeps.bind (createComparison_keeps ?_ baseline candidate) fun _ => trivial
      intro record drawn db
      have other : record.id ≠ uuid := by
        rw [drawn]
        exact draws env baseline candidate rfl
      simp [Store.comparison?, Write.apply, List.find?_append, other]
    | _ => exact reading rfl

/-! ### Statements of an observer -/

theorem getSessionRow_within (id : String) : (getSessionRow id).Within 1 := by
  change Program.Within (1 + 0) _
  refine (Program.Within.select _).bind fun found => ?_
  cases found <;> exact trivial

theorem verifiedArchiveChunks_within (session : UploadSession) (side : String) :
    (verifiedArchiveChunks H session side).Within 1 :=
  (Program.Within.select _).bind fun _ => Program.Within.lift _

theorem verifiedSealedBytes_within (session : UploadSession) (begin stop : Int) :
    (verifiedSealedBytes H session begin stop).Within 1 :=
  (Program.Within.select _).bind fun _ => Program.Within.lift _

theorem downloadContent_within (id : String) (rangeValues : List String) :
    (downloadContent H id rangeValues).Within 2 := by
  change Program.Within (1 + 1) _
  refine (getSessionRow_within id).bind fun session => ?_
  split
  · trivial
  · match rangeValues with
    | [] =>
      change Program.Within (1 + 0) _
      exact (verifiedSealedBytes_within session _ _).bind fun _ => trivial
    | [header] =>
      change Program.Within (0 + (1 + 0)) _
      exact (Program.Within.lift _).bind fun _ =>
        (verifiedSealedBytes_within session _ _).bind fun _ => trivial
    | _ :: _ :: _ => trivial

theorem keepRecord_within (record : Comparison) : (keepRecord record).Within 3 := by
  change Program.Within (2 + (1 + 0)) _
  refine Program.Within.bind (fun refusal => ?_) fun _ => (Program.Within.select _).bind fun found => ?_
  · cases refusal <;> exact trivial
  · cases found <;> exact trivial

theorem createComparison_within (env : Env) (baselineId candidateId : String) :
    (createComparison H env baselineId candidateId).Within 7 := by
  change Program.Within (1 + (1 + 5)) _
  refine (getSessionRow_within _).bind fun baseline =>
    (getSessionRow_within _).bind fun candidate => ?_
  split
  · trivial
  · split
    · trivial
    · change Program.Within (1 + (1 + 3)) _
      refine (verifiedArchiveChunks_within _ _).bind fun left =>
        (verifiedArchiveChunks_within _ _).bind fun right => ?_
      cases streamsFirstDifference (left.map Chunk.data) (right.map Chunk.data) with
      | none => trivial
      | some found => exact keepRecord_within _

/-! ## Schedules -/

/-- Between two moments every session evolves, and `part` stays as it is. -/
structure Meanwhile {τ : Type} (part : Store → τ) (before after : Store) : Prop where
  evolves : ∀ id, RowsEvolve (before.rowsOf id) (after.rowsOf id)
  stays : part after = part before

theorem Meanwhile.refl {τ : Type} (part : Store → τ) (db : Store) : Meanwhile part db db :=
  ⟨fun _ => .refl _, rfl⟩

theorem Meanwhile.trans {τ : Type} {part : Store → τ} {first second third : Store}
    (earlier : Meanwhile part first second) (later : Meanwhile part second third) :
    Meanwhile part first third :=
  ⟨fun id => (earlier.evolves id).trans (later.evolves id), later.stays.trans earlier.stays⟩

section Schedules

variable [DecidableEq ι]

variable (H) in
/-- The committed data after the first `t` moves of a schedule. -/
def committedAt (calls : ι → Call) (initial : Store) (schedule : List ι) (t : Nat) : Store :=
  (System.start (clientProgram H calls) initial).moment sessionPresent schedule t

variable {calls : ι → Call} {key : ι → String} {initial : Store}
variable (clients : ∀ i, (calls i).WritesTo (key i) ∨ (calls i).request.observes = true)
variable (sound : ∀ id, RowsSound H (initial.rowsOf id)) (schedule : List ι)

include clients sound

omit [DecidableEq ι] in
theorem observed_workload :
    Workload rowsView sessionPresent (RowsSound H) DbError.integrityError
      (maskCall (fun i => (calls i).request.observes) (.database .operationalError)
        (clientProgram H calls)) key initial where
  present_congr same := present_congr rowsRowView same
  calls i := by
    rw [maskCall]
    obtain writes | observes := clients i
    · split
      · exact .inr trivial
      · exact writes.writer rowsRowView
    · rw [if_pos observes]
      exact .inr trivial
  initially := sound

theorem observed_masked :
    Masked (fun i => (calls i).request.observes) (Raised.database .operationalError) rowsView
      (clientProgram H calls) key initial DbError.integrityError
      ((System.start (clientProgram H calls) initial).runSchedule sessionPresent schedule) :=
  Masked.runSchedule (observed_workload clients sound) (fun _ => Call.program_observer) schedule

theorem committedAt_sound (t : Nat) (id : String) :
    RowsSound H ((committedAt H calls initial schedule t).rowsOf id) :=
  (observed_masked clients sound (schedule.take t)).sound (observed_workload clients sound) id

/-- From one move to the next the rows of a session stay, or are moved on by one call. -/
theorem committedAt_evolves {t : Nat} (inside : t < schedule.length) (id : String) :
    RowsEvolve ((committedAt H calls initial schedule t).rowsOf id)
      ((committedAt H calls initial schedule (t + 1)).rowsOf id) := by
  have before := committedAt_sound clients sound schedule t
  have masked := observed_masked clients sound (schedule.take t)
  rw [committedAt] at before
  rw [committedAt, committedAt, System.moment, System.moment,
    System.moment_succ sessionPresent (System.start (clientProgram H calls) initial) inside]
  rw [System.moment] at before
  generalize (System.start (clientProgram H calls) initial).runSchedule sessionPresent
    (schedule.take t) = sys at before masked ⊢
  cases moved : sys.step sessionPresent schedule[t] with
  | none => exact .refl _
  | some after =>
    obtain unchanged | ⟨writes, rfl, ran⟩ :=
      masked.step_committed (observed_workload clients sound) moved id
    · change after.committed.rowsOf id = sys.committed.rowsOf id at unchanged
      rw [Option.getD_some, unchanged]
      exact .refl _
    · -- the client whose turn it was has committed its call
      change after.committed.rowsOf _ = ((calls schedule[t]).serve H sys.committed).2.rowsOf _ at ran
      rw [Option.getD_some, ran]
      obtain writer | observes := clients schedule[t]
      · generalize calls schedule[t] = call at writer ⊢
        cases writer with
        | putChunk env start declaredLength chunkDigest payload =>
          exact (putChunk_rows before env _ _ start declaredLength chunkDigest payload).evolves
        | compactSealed env target => exact (compactSealed_rows before env _ _ target).evolves
      · rw [observes] at writes
        cases writes

/-- Every session is at every time what has become of it since the start. -/
theorem committedAt_since (t : Nat) (id : String) :
    RowsEvolve (initial.rowsOf id) ((committedAt H calls initial schedule t).rowsOf id) := by
  induction t with
  | zero => exact .refl _
  | succ t inductionHypothesis =>
    by_cases inside : t < schedule.length
    · exact inductionHypothesis.trans (committedAt_evolves clients sound schedule inside id)
    · -- the schedule is over
      have ended : schedule.take (t + 1) = schedule.take t := by
        rw [List.take_of_length_le (by omega), List.take_of_length_le (by omega)]
      rw [committedAt, System.moment, ended]
      exact inductionHypothesis

omit clients sound in
/-- What a call never writes, its moves leave alone. -/
theorem committedAt_keeps {τ : Type} {part : Store → τ} {t : Nat} (inside : t < schedule.length)
    (keeps : (clientProgram H calls schedule[t]).Keeps part) :
    part (committedAt H calls initial schedule (t + 1)) =
      part (committedAt H calls initial schedule t) := by
  have kept : (((System.start (clientProgram H calls) initial).runSchedule sessionPresent
      (schedule.take t)).client schedule[t]).Keeps part :=
    System.keeps_runSchedule keeps (schedule.take t)
  rw [committedAt, committedAt, System.moment, System.moment,
    System.moment_succ sessionPresent (System.start (clientProgram H calls) initial) inside]
  generalize (System.start (clientProgram H calls) initial).runSchedule sessionPresent
    (schedule.take t) = sys at kept ⊢
  cases moved : sys.step sessionPresent schedule[t] with
  | none => rfl
  | some after => exact ((System.step_self moved).keeps kept).2

/-- What an observer answers, it has found along the schedule. -/
theorem meanwhile_along {τ : Type} {part : Store → τ} {i : ι}
    (observes : (calls i).request.observes = true)
    (others : ∀ j, j ≠ i → (clientProgram H calls j).Keeps part) {answer : Except Raised Reply}
    (answered : ((System.start (clientProgram H calls) initial).runSchedule sessionPresent
      schedule).Answered i answer) :
    (clientProgram H calls i).AnswersAlong (Meanwhile part) (committedAt H calls initial schedule)
      answer schedule.length id 0 := by
  have lockFree : (clientProgram H calls i).LockFree := (Call.program_observer observes).lockFree
  refine System.observed (Meanwhile.refl part) (fun _ _ _ => Meanwhile.trans) lockFree schedule ?_
    answered
  intro t inside other
  exact ⟨committedAt_evolves clients sound schedule inside,
    committedAt_keeps schedule inside (others _ other)⟩

end Schedules

/-! ## What an observer finds -/

section Along

variable {rely : Store → Store → Prop} {moment : Nat → Store} {last t : Nat}

/-- The first statement of the session routes. -/
theorem getSessionRow_along {α : Type} {sessionId : String} {next : UploadSession → Db α}
    {answer : Except Raised α}
    (along : (getSessionRow sessionId >>= next).AnswersAlong rely moment answer last id t) :
    ∃ later, Program.Waits rely moment t later ∧
      (((moment later).session? sessionId = none ∧
          answer = .error (.upload (sessionNotFound sessionId)) ∧
          Program.Waits rely moment later last) ∨
        ∃ session, (moment later).session? sessionId = some session ∧
          (next session).AnswersAlong rely moment answer last id later) := by
  obtain ⟨later, waits, rest⟩ := along
  refine ⟨later, waits, ?_⟩
  cases found : (moment later).session? sessionId with
  | none =>
    simp only [id, Program.bind, found] at rest
    exact .inl ⟨rfl, rest⟩
  | some session =>
    simp only [id, Program.bind, found] at rest
    exact .inr ⟨session, rfl, rest⟩

/-- The end of a comparison: its record is refused, or stored for good. -/
theorem keepRecord_along {record : Comparison} {answer : Except Raised Comparison}
    (along : (keepRecord record).AnswersAlong (Meanwhile fun db => db.comparison? record.id) moment
      answer last id t) :
    ∃ first, Program.Waits (Meanwhile fun db => db.comparison? record.id) moment t first ∧
      ((∃ error, (Write.insertComparison record).rejects (moment first) = some error ∧
          answer = .error (.database error)) ∨
        (Write.insertComparison record).rejects (moment first) = none ∧ answer = .ok record ∧
          (moment last).comparison? record.id = some record) := by
  obtain ⟨first, waits, rest⟩ := along
  refine ⟨first, waits, ?_⟩
  have batch : (pending [.insertComparison record]).rejects (id (moment first)) =
      (Write.insertComparison record).rejects (moment first) := by
    change Write.rejectsAll [.insertComparison record] (moment first) = _
    rw [Write.rejectsAll]
    cases (Write.insertComparison record).rejects (moment first) <;> rfl
  rw [batch] at rest
  cases refused : (Write.insertComparison record).rejects (moment first) with
  | some error =>
    rw [refused] at rest
    exact .inl ⟨error, rfl, rest.1⟩
  | none =>
    rw [refused] at rest
    obtain ⟨second, toCommit, written, third, toRead, read⟩ := rest
    change moment (second + 1) = (Write.insertComparison record).apply (moment second) at written
    -- nobody else uses the id, so the row is the record until the end
    have fresh : (moment second).comparison? record.id = none :=
      toCommit.2.stays.trans (insertComparison_fresh refused)
    have stored : (moment (second + 1)).comparison? record.id = some record := by
      rw [Store.comparison?] at fresh
      rw [written]
      simp [Store.comparison?, Write.apply, List.find?_append, fresh]
    have found : (moment third).comparison? record.id = some record :=
      toRead.2.stays.trans stored
    simp only [id, Program.bind, found] at read
    exact .inr ⟨rfl, read.1, read.2.2.stays.trans found⟩

end Along

end

end SeismicIngest
