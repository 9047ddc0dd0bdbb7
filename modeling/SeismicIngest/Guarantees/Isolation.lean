import SeismicIngest.Verified.Steps

/-! # Sessions are isolated, and comparison records stand

Every call that is addressed to one session is local to its rows (`call_local`), so it
changes no other row, and its answer is a function of them.  A comparison writes its
record and nothing else, and no call touches a record that is there.
-/

namespace SeismicIngest

open Transaction

section

variable {H : Bytes → String}

/-! ## Locality of every call -/

/-- The session a call is addressed to; a creation is addressed to the id it draws. -/
def Call.addressee (call : Call) : Option String :=
  match call.request with
  | .createSession _ _ => some call.env.uuid
  | .putChunk sessionId _ _ _ _ | .compactSealed sessionId _ | .getSession sessionId
  | .listChunks sessionId | .getAuditTrail sessionId | .downloadContent sessionId _ => some sessionId
  | .createComparison _ _ | .listSessions _ _ _ _ | .getComparison _ => none

section Local

variable {ν : Type} {view : String → Store → ν} (isView : RowView view) {id : String}

include isView

theorem createSession_local (env : Env) (totalBytes : Int) (wholeSha256 : String) :
    (createSession H env totalBytes wholeSha256).LocalTo view env.uuid := by
  have inserts : ∀ session : UploadSession, session.id = env.uuid →
      Write.AllOf env.uuid [.insertSession session] :=
    fun session own => Write.allOf_singleton (congrArg some own)
  have audited : ∀ session : UploadSession, session.id = env.uuid →
      (addAudit env [.insertSession session] session .sealed 0 (emptySha256 H) none none
        none).LocalTo view env.uuid :=
    fun session own => addAudit_local isView own (inserts session own) _ _ _ _ _ _
  rw [createSession]
  split
  · split
    · refine (audited _ rfl).bind fun _ => ?_
      exact (commit_local isView Write.allOf_nil).bind fun _ => refresh_local isView rfl
    · exact (commit_local isView (inserts _ rfl)).bind fun _ => trivial
  · exact (commit_local isView (inserts _ rfl)).bind fun _ => refresh_local isView rfl

theorem getSessionRow_local : (getSessionRow id).LocalTo view id := by
  refine (Program.LocalTo.select fun _ _ same => isView.session_congr same).bind fun found => ?_
  cases found <;> exact trivial

omit isView in
theorem getSessionRow_returns : (getSessionRow id).Returns fun session => session.id = id := by
  have read : (Program.select fun db : Store => db.session? id : Db _).Returns
      fun found => ∀ session, found = some session → session.id = id :=
    fun _ _ found => session?_id found
  refine read.bind fun found own => ?_
  cases found with
  | none => trivial
  | some session => exact own session rfl

theorem verifiedSealedBytes_local {session : UploadSession} (own : session.id = id)
    (begin stop : Int) : (verifiedSealedBytes H session begin stop).LocalTo view id := by
  subst own
  exact (chunksOf_local isView).bind fun _ => Program.LocalTo.lift _

theorem downloadContent_local (rangeValues : List String) :
    (downloadContent H id rangeValues).LocalTo view id := by
  refine (getSessionRow_local isView).bind_returns getSessionRow_returns
    fun session own => ?_
  split
  · trivial
  · match rangeValues with
    | [] => exact (verifiedSealedBytes_local isView own _ _).bind fun _ => trivial
    | [_] =>
      exact (Program.LocalTo.lift _).bind fun _ =>
        (verifiedSealedBytes_local isView own _ _).bind fun _ => trivial
    | _ :: _ :: _ => trivial

theorem getAuditTrail_local : (getAuditTrail id).LocalTo view id := by
  refine (Program.LocalTo.select fun _ _ same => isView.session_congr same).bind fun found => ?_
  cases found with
  | none => trivial
  | some _ =>
    refine .select fun left right same => ?_
    have audits := congrArg SessionRows.audits (isView.rows_congr same)
    exact congrArg (List.insertionSort _) audits

/-- A call stays on the session it is addressed to. -/
theorem call_local {call : Call} (addressed : call.addressee = some id) :
    (call.program H).LocalTo view id := by
  have named : ∀ {α : Type} (wrap : α → Reply) {program : Db α}, program.LocalTo view id →
      (wrap <$> program).LocalTo view id := fun _ _ isLocal => isLocal.bind fun _ => trivial
  obtain ⟨env, request⟩ := call
  cases request with
  | createSession totalBytes wholeSha256 =>
    obtain rfl := Option.some.inj addressed
    exact named _ (createSession_local isView env _ _)
  | putChunk sessionId start declaredLength chunkDigest payload =>
    obtain rfl := Option.some.inj addressed
    exact named _ (putChunk_local isView env _ _ _ _)
  | compactSealed sessionId target =>
    obtain rfl := Option.some.inj addressed
    exact named _ (compactSealed_local isView env _)
  | getSession sessionId =>
    obtain rfl := Option.some.inj addressed
    exact named _ ((getSessionRow_local isView).bind fun _ => trivial)
  | listChunks sessionId =>
    obtain rfl := Option.some.inj addressed
    exact named _ ((getSessionRow_local isView).bind fun _ =>
      (chunksOf_local isView).bind fun _ => trivial)
  | getAuditTrail sessionId =>
    obtain rfl := Option.some.inj addressed
    exact named _ (getAuditTrail_local isView)
  | downloadContent sessionId rangeValues =>
    obtain rfl := Option.some.inj addressed
    exact named _ (downloadContent_local isView _)
  | createComparison _ _ | listSessions _ _ _ _ | getComparison _ => cases addressed

end Local

/-! ## What stays and what is read -/

variable (H) in
/-- A call addressed to session `id`. -/
structure Isolated (db : Store) (call : Call) (id : String) : Prop where
  others : ∀ other, other ≠ id → (call.serve H db).2.rowsOf other = db.rowsOf other ∧
    (call.serve H db).2.registered other = db.registered other
  comparisons : (call.serve H db).2.comparisons = db.comparisons
  /-- Whatever else is stored, the same own rows get the same answer and the same rows. -/
  response : ∀ elsewhere : Store, elsewhere.rowsOf id = db.rowsOf id →
    (call.serve H elsewhere).1 = (call.serve H db).1 ∧
      (call.serve H elsewhere).2.rowsOf id = (call.serve H db).2.rowsOf id

variable (H) in
/-- A comparison adds its record, or nothing. -/
inductive ComparisonAdds (db : Store) (env : Env) (baseline candidate : String) : Prop where
  | recorded (record : Comparison) (drawn : record.id = env.uuid)
    (fresh : db.comparison? record.id = none)
    (served : (Call.mk env (.createComparison baseline candidate)).serve H db =
      (.ok (.comparison record), { db with comparisons := db.comparisons ++ [record] }))
  | refused (exception : Raised)
    (served : (Call.mk env (.createComparison baseline candidate)).serve H db =
      (.error exception, db))

theorem isolated {db : Store} {call : Call} {id : String} (addressed : call.addressee = some id) :
    Isolated H db call id := by
  have frame : ∀ other, other ≠ id → sessionView other (call.serve H db).2 = sessionView other db :=
    fun other different => (call_local sessionRowView addressed).run_frame different db
  refine { others := ?_, comparisons := ?_, response := ?_ }
  · intro other different
    exact ⟨sessionView_rows (frame other different),
      congrArg SessionView.registered (frame other different)⟩
  · -- the comparisons are in the view of every other session
    have different : id ++ "." ≠ id := by
      intro same
      have lengths := congrArg String.length same
      simp at lengths
    exact congrArg SessionView.comparisons (frame _ different)
  · exact fun elsewhere same => (call_local rowsRowView addressed).run_congr same

/-! ## Records -/

theorem comparisonPlan_id {db : Store} {env : Env} {baseline candidate : String} {row : Comparison}
    (planned : comparisonPlan H env baseline candidate db = .record row) : row.id = env.uuid := by
  obtain ⟨_, _, -, -, paired⟩ := comparisonPlan_record planned
  obtain ⟨-, _, _, _, _, -, -, rfl⟩ := pairPlan_record paired
  rfl

theorem comparisonAdds (db : Store) (env : Env) (baseline candidate : String) :
    ComparisonAdds H db env baseline candidate := by
  have served := @serve_createComparison H env db baseline candidate
  rw [run_createComparison] at served
  cases planned : comparisonPlan H env baseline candidate db with
  | refuse exception =>
    rw [planned] at served
    exact .refused exception served
  | record row =>
    rw [planned] at served
    cases taken : (Write.insertComparison row).rejects db with
    | some error =>
      simp only [taken] at served
      exact .refused _ served
    | none =>
      simp only [taken] at served
      exact .recorded row (comparisonPlan_id planned) (insertComparison_fresh taken) served

/-- One call adds a record with a new id, or none. -/
theorem serve_comparisons (call : Call) (db : Store) :
    (call.serve H db).2.comparisons = db.comparisons ∨
      ∃ record, db.comparison? record.id = none ∧
        (call.serve H db).2.comparisons = db.comparisons ++ [record] := by
  cases addressed : call.addressee with
  | some id => exact .inl (isolated addressed).comparisons
  | none =>
    obtain ⟨env, request⟩ := call
    have reading : request.reads = true →
        ((Call.mk env request).serve H db).2.comparisons = db.comparisons := by
      intro reads
      rw [Call.serve, (Call.program_quiet reads).run_data]
    cases request with
    | createComparison baseline candidate =>
      cases comparisonAdds (H := H) db env baseline candidate with
      | recorded record _ fresh served => exact .inr ⟨record, fresh, by rw [served]⟩
      | refused exception served => exact .inl (by rw [served])
    | listSessions _ _ _ _ | getComparison _ => exact .inl (reading rfl)
    | _ => cases addressed

/-- The ids of the records are distinct. -/
theorem records_nodup {db : Store} (reachable : Reachable H db) :
    (db.comparisons.map Comparison.id).Nodup := by
  induction reachable with
  | refl => exact .nil
  | tail _ step inductionHypothesis =>
    obtain ⟨call, rfl⟩ := step
    obtain same | ⟨record, fresh, added⟩ := serve_comparisons (H := H) call _
    · rw [same]
      exact inductionHypothesis
    · rw [added, List.map_append, List.map_singleton]
      refine List.nodup_append.mpr ⟨inductionHypothesis, List.pairwise_singleton _ _, ?_⟩
      rintro earlier listed last final rfl
      obtain ⟨stored, member, same⟩ := List.mem_map.mp listed
      have absent := List.find?_eq_none.mp fresh stored member
      rw [List.mem_singleton.mp final] at same
      simp [same] at absent

theorem records_kept {before after : Store} (later : Later H before after) :
    before.comparisons <+: after.comparisons := by
  induction later with
  | refl => exact List.prefix_refl _
  | tail _ step inductionHypothesis =>
    obtain ⟨call, rfl⟩ := step
    refine inductionHypothesis.trans ?_
    obtain same | ⟨record, -, added⟩ := serve_comparisons (H := H) call _
    · rw [same]
    · rw [added]
      exact List.prefix_append _ _

/-- A record of a reachable store is found under its id. -/
theorem record_found {db : Store} (reachable : Reachable H db) {record : Comparison}
    (stored : record ∈ db.comparisons) : db.comparison? record.id = some record := by
  have present := List.find?_isSome (p := fun row : Comparison => decide (row.id = record.id)).mpr
    ⟨record, stored, by simp⟩
  obtain ⟨first, isFirst⟩ := Option.isSome_iff_exists.mp present
  have sameId : first.id = record.id := by simpa using List.find?_some isFirst
  rw [Store.comparison?, isFirst, List.inj_on_of_nodup_map (records_nodup reachable)
    (List.mem_of_find?_eq_some isFirst) stored sameId]

theorem run_getComparison {db : Store} {record : Comparison}
    (found : db.comparison? record.id = some record) :
    (getComparison record.id).run db = (.ok record, db) := by
  have read : (Program.select fun db : Store => db.comparison? record.id : Db _).settle (.opened db) =
      (.returned (some record), .opened db) := by
    rw [Program.settle_select, Connection.opened_working, found]
  exact Program.run_bind_of_returned read

/-! ## Every store -/

variable (H) in
structure SessionsIsolated (db : Store) : Prop where
  session : ∀ {call : Call} {id}, call.addressee = some id → Isolated H db call id
  comparison : ∀ env baseline candidate, ComparisonAdds H db env baseline candidate
  /-- A record is read back unchanged for ever. -/
  records : ∀ record ∈ db.comparisons, ∀ after, Later H db after →
    record ∈ after.comparisons ∧ ((getComparison record.id).run after).1 = .ok record

/-- No session sees or changes another, and no record changes. -/
theorem sessions_isolated {db : Store} (reachable : Reachable H db) : SessionsIsolated H db where
  session addressed := isolated addressed
  comparison env baseline candidate := comparisonAdds db env baseline candidate
  records record stored after later := by
    have kept := (records_kept later).subset stored
    exact ⟨kept, congrArg Prod.fst
      (run_getComparison (record_found (reachable.later later) kept))⟩

/-- Two sealed packages with rows at the same offsets, one of them compacted, and a record
    of the two. -/
theorem sessions_isolated_compaction :
    let uploads : List Call :=
      [⟨⟨"s", 0, true⟩, .createSession 3 "d"⟩, ⟨⟨"", 0, true⟩, .putChunk "s" 0 3 "d" [1, 2, 3]⟩,
        ⟨⟨"t", 0, true⟩, .createSession 3 "d"⟩, ⟨⟨"", 0, true⟩, .putChunk "t" 0 3 "d" [1, 2, 4]⟩,
        ⟨⟨"c", 0, true⟩, .createComparison "s" "t"⟩]
    let db := serveAll (fun _ => "d") uploads Store.empty
    let compaction : Call := ⟨⟨"", 0, true⟩, .compactSealed "s" 1⟩
    let record : Comparison := ⟨"c", "s", "t", 3, "d", 3, "d", 2, some 2, .contentDiffers, 0⟩
    Isolated (fun _ => "d") db compaction "s" ∧ record ∈ db.comparisons ∧
      ((getComparison record.id).run (compaction.serve (fun _ => "d") db).2).1 = .ok record := by
  intro uploads db compaction record
  have reachable : Reachable (fun _ => "d") db := reachable_serveAll _ uploads
  have all := sessions_isolated reachable
  have stored : record ∈ db.comparisons := by decide
  exact ⟨all.session rfl, stored, (all.records record stored _ (.single ⟨compaction, rfl⟩)).2⟩

end

end SeismicIngest
