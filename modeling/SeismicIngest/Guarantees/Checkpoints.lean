import SeismicIngest.Guarantees.Serialisable
import SeismicIngest.Verified.Observing

/-! # Checkpoint listings

A listing is read in two statements without a lock, so it can show the session row of one
moment and the chunk rows of a later one.  It never shows less than was confirmed, and the
rows tile the prefix confirmed at the later moment (`ListedBetween`).  It describes one
state of the session exactly when no chunk was confirmed between the two statements.
-/

namespace SeismicIngest

open Transaction Spans

section

variable {H : Bytes → String} {ι : Type}

/-! ## Listings -/

/-- The listing of a session row and chunk rows. -/
def checkpointListing (session : UploadSession) (chunks : List Chunk) : ChunkListing where
  id := session.id
  status := session.status
  confirmedOffset := session.confirmedOffset
  totalBytes := session.totalBytes
  chunks := chunks.map Chunk.layoutRow

/-- The spans of a listing; it carries no bytes. -/
def listedLayout : Layout LayoutRow UInt8 :=
  ⟨LayoutRow.startOffset, LayoutRow.endOffset, fun _ => []⟩

/-- The body is the listing of one state. -/
def Lists (db : Store) (sessionId : String) (body : ChunkListing) : Prop :=
  ∃ session, db.session? sessionId = some session ∧
    body = checkpointListing session (db.chunksOf sessionId)

theorem listed_tiles {lo hi : Int} {chunks : List Chunk} :
    listedLayout.Tiles lo (chunks.map Chunk.layoutRow) hi ↔ Tiles lo chunks hi := by
  induction chunks generalizing lo with
  | nil => rfl
  | cons chunk chunks inductionHypothesis =>
    rw [List.map_cons, listedLayout.tiles_cons, tiles_cons, ← inductionHypothesis]
    rfl

/-- The listing of a sound state. -/
theorem RowsSound.listing {db : Store} {sessionId : String} {session : UploadSession}
    (sound : RowsSound H (db.rowsOf sessionId)) (found : db.session? sessionId = some session) :
    listedLayout.Tiles 0 ((db.chunksOf sessionId).map Chunk.layoutRow) session.confirmedOffset ∧
      ∀ row ∈ (db.chunksOf sessionId).map Chunk.layoutRow,
        row.length = row.endOffset - row.startOffset := by
  have consistent := sound.consistent found
  rw [sound.chunksOf found]
  refine ⟨listed_tiles.mpr consistent.tiles, ?_⟩
  intro row member
  obtain ⟨chunk, stored, rfl⟩ := List.mem_map.mp member
  exact (consistent.intact chunk stored).span

/-! ## Two moments -/

/-- A listing of the session row at time `first` and of the chunk rows at time `second`. -/
structure ListedBetween (seen : Nat → Store) (first second : Nat) (sessionId : String)
    (body : ChunkListing) : Prop where
  ordered : first ≤ second
  row : ∃ session, (seen first).session? sessionId = some session ∧
    body = checkpointListing session ((seen second).chunksOf sessionId)
  /-- The rows tile what was confirmed when they were read, and are not torn themselves. -/
  confirmed : ∃ later, (seen second).session? sessionId = some later ∧
    listedLayout.Tiles 0 body.chunks later.confirmedOffset ∧
    body.confirmedOffset ≤ later.confirmedOffset ∧ later.confirmedOffset ≤ body.totalBytes
  lengths : ∀ row ∈ body.chunks, row.length = row.endOffset - row.startOffset
  /-- One state is described exactly when the rows end at the confirmed offset. -/
  oneState : (∃ t, Lists (seen t) sessionId body) ↔
    listedLayout.Tiles 0 body.chunks body.confirmedOffset
  terminal : body.status ≠ .active →
    body.confirmedOffset = body.totalBytes ∧ Lists (seen second) sessionId body

/-- The row of a session at two moments, when nothing was confirmed in between. -/
theorem Evolves.same_listing {session later : UploadSession} {chunks laterChunks rows : List Chunk}
    {audits : List AuditEvent} (evolves : Evolves session chunks later laterChunks)
    (sameId : later.id = session.id) (consistent : Consistent H session chunks audits)
    {laterAudits : List AuditEvent} (laterConsistent : Consistent H later laterChunks laterAudits)
    (same : later.confirmedOffset = session.confirmedOffset) :
    checkpointListing session rows = checkpointListing later rows := by
  have status : later.status = session.status := by
    by_cases active : session.status = .active
    · -- an open session has bytes to come, so the later one is open as well
      have open' := (consistent.whenActive active).1
      rw [active]
      by_contra terminal
      have complete := laterConsistent.complete terminal
      have total := evolves.total
      omega
    · rw [(evolves.frozen active).1]
  rw [checkpointListing, checkpointListing, sameId, status, same, evolves.total]

/-- What two sound states, one after the other, make of a listing. -/
theorem listedBetween {seen : Nat → Store} (sound : ∀ t id, RowsSound H ((seen t).rowsOf id))
    {first second : Nat} {sessionId : String} (ordered : first ≤ second)
    (evolves : RowsEvolve ((seen first).rowsOf sessionId) ((seen second).rowsOf sessionId))
    {session : UploadSession} (found : (seen first).session? sessionId = some session) :
    ListedBetween seen first second sessionId
      (checkpointListing session ((seen second).chunksOf sessionId)) := by
  obtain ⟨later, laterFound, evolves⟩ := evolves session found
  have consistent := (sound first sessionId).consistent found
  have laterConsistent := (sound second sessionId).consistent laterFound
  obtain ⟨tiles, lengths⟩ := (sound second sessionId).listing laterFound
  have sameId : later.id = session.id :=
    (session?_id laterFound).trans (session?_id found).symm
  have whole : later.confirmedOffset = session.confirmedOffset →
      Lists (seen second) sessionId
        (checkpointListing session ((seen second).chunksOf sessionId)) := fun same =>
    ⟨later, laterFound, evolves.same_listing sameId consistent laterConsistent same⟩
  exact {
    ordered := ordered
    row := ⟨session, found, rfl⟩
    confirmed := ⟨later, laterFound, tiles, evolves.confirmed,
      by rw [checkpointListing, ← evolves.total]; exact laterConsistent.bounded⟩
    lengths := lengths
    oneState := by
      constructor
      · rintro ⟨t, other, otherFound, same⟩
        rw [same]
        exact ((sound t sessionId).listing otherFound).1
      · intro ends
        exact ⟨second, whole (tiles.unique ends)⟩
    terminal := by
      intro closed
      exact ⟨consistent.complete closed,
        whole (congrArg UploadSession.confirmedOffset (evolves.frozen closed).1)⟩ }

/-! ## Every schedule -/

section Runs

variable [DecidableEq ι] {calls : ι → Call} {key : ι → String} {initial : Store}

/-- The answers `list_chunks` can give along a schedule. -/
theorem listChunks_along {rely : Store → Store → Prop} {moment : Nat → Store} {last : Nat}
    {sessionId : String} {answer : Except Raised ChunkListing}
    (along : (listChunks sessionId).AnswersAlong rely moment answer last id 0) :
    (∃ t ≤ last, (moment t).session? sessionId = none ∧
        answer = .error (.upload (sessionNotFound sessionId))) ∨
      ∃ first second session, Program.Waits rely moment first second ∧ second ≤ last ∧
        (moment first).session? sessionId = some session ∧
        answer = .ok (checkpointListing session ((moment second).chunksOf sessionId)) := by
  obtain ⟨first, -, ⟨missing, refused, waits⟩ | ⟨session, found, rest⟩⟩ := getSessionRow_along along
  · exact .inl ⟨first, waits.1, missing, refused⟩
  · obtain ⟨second, waits, answered, ended⟩ := Program.answersAlong_select.mp rest
    refine .inr ⟨first, second, session, waits, ended.1, found, ?_⟩
    rw [answered, checkpointListing, session?_id found]
    rfl

/-- A package of one byte, registered. -/
def registeredByte : Store :=
  serveAll (fun _ => "d") [⟨⟨"s", 0, true⟩, .createSession 1 "d"⟩] Store.empty

/-- One client lists the chunks of the package, another puts its byte. -/
def listingAndPut : Bool → Call
  | false => ⟨⟨"", 0, true⟩, .listChunks "s"⟩
  | true => ⟨⟨"", 0, true⟩, .putChunk "s" 0 1 "d" [1]⟩

theorem listingAndPut_clients : ∀ puts, (listingAndPut puts).WritesTo "s" ∨
    (listingAndPut puts).request.observes = true
  | false => .inr rfl
  | true => .inl (.putChunk _ _ _ _ _)

/-- The put is committed between the two statements of the listing. -/
def betweenStatements : List Bool :=
  false :: List.replicate 8 true ++ [false]

/-- The session row before the byte, and the chunk row of the byte. -/
def tornListing : ChunkListing :=
  ⟨"s", .active, 0, 1, [⟨0, 1, 1, "d"⟩]⟩

theorem tornListing_answered :
    (runClients (fun _ => "d") listingAndPut registeredByte betweenStatements).Answered false
      (.ok (.checkpoints tornListing)) := by
  rfl

/-- What a listing answers among any number of clients. -/
theorem checkpoints_listed (reachable : Reachable H initial)
    (clients : ∀ i, (calls i).WritesTo (key i) ∨ (calls i).request.observes = true)
    (schedule : List ι) {i : ι} {env : Env} {sessionId : String}
    (request : calls i = ⟨env, .listChunks sessionId⟩) {answer : Except Raised Reply}
    (answered : (runClients H calls initial schedule).Answered i answer) :
    (∃ t ≤ schedule.length, (committedAt H calls initial schedule t).session? sessionId = none ∧
        answer = .error (.upload (sessionNotFound sessionId))) ∨
      ∃ first second body, second ≤ schedule.length ∧ answer = .ok (.checkpoints body) ∧
        ListedBetween (committedAt H calls initial schedule) first second sessionId body := by
  have sound := reachable.sound.rows
  have observes : (calls i).request.observes = true := by rw [request]; rfl
  have along := meanwhile_along clients sound schedule observes
    (fun _ _ => Program.Keeps.const () _) answered
  rw [clientProgram, request] at along
  obtain ⟨listing, read, rfl⟩ := Program.answersAlong_map along
  obtain ⟨t, within, missing, rfl⟩ | ⟨first, second, session, waits, within, found, rfl⟩ :=
    listChunks_along read
  · exact .inl ⟨t, within, missing, rfl⟩
  · exact .inr ⟨first, second, _, within, rfl,
      listedBetween (committedAt_sound clients sound schedule) waits.1
        (waits.2.evolves sessionId) found⟩

theorem checkpoints_listed_between :
    ∃ first second, second ≤ betweenStatements.length ∧
      ListedBetween (committedAt (fun _ => "d") listingAndPut registeredByte betweenStatements) first
        second "s" tornListing := by
  have reachable : Reachable (fun _ => "d") registeredByte := reachable_serveAll _ _
  obtain ⟨_, -, -, refused⟩ | ⟨first, second, body, within, same, listed⟩ :=
    checkpoints_listed reachable listingAndPut_clients betweenStatements rfl tornListing_answered
  · cases refused
  · cases same
    exact ⟨first, second, within, listed⟩

/-- The body describes one state, its rows tile the confirmed prefix, and they are not all
    there while the session is active. -/
structure SnapshotListing (seen : Nat → Store) (last : Nat) (sessionId : String)
    (body : ChunkListing) : Prop where
  state : ∃ t ≤ last, Lists (seen t) sessionId body
  tiles : listedLayout.Tiles 0 body.chunks body.confirmedOffset
  unfinished : body.status = .active → ¬ listedLayout.Tiles 0 body.chunks body.totalBytes

/-- A listing can report an active session and all its bytes, which no state does. -/
theorem checkpoints_torn :
    Reachable (fun _ => "d") registeredByte ∧
      (runClients (fun _ => "d") listingAndPut registeredByte betweenStatements).Answered false
        (.ok (.checkpoints tornListing)) ∧
      tornListing.status = .active ∧
      listedLayout.Tiles 0 tornListing.chunks tornListing.totalBytes ∧
      (∀ t, ¬ Lists (committedAt (fun _ => "d") listingAndPut registeredByte betweenStatements t) "s"
        tornListing) ∧
      ¬ SnapshotListing (committedAt (fun _ => "d") listingAndPut registeredByte betweenStatements)
        betweenStatements.length "s" tornListing := by
  have reachable : Reachable (fun _ => "d") registeredByte := reachable_serveAll _ _
  have untiled : ¬ listedLayout.Tiles 0 tornListing.chunks tornListing.confirmedOffset :=
    fun tiles => Int.one_ne_zero tiles.2
  refine ⟨reachable, tornListing_answered, rfl, ⟨rfl, rfl⟩, ?_, fun snapshot => untiled snapshot.tiles⟩
  rintro t ⟨session, found, same⟩
  have sound := committedAt_sound listingAndPut_clients reachable.sound.rows betweenStatements t "s"
  have tiles := (sound.listing found).1
  rw [same] at untiled
  exact untiled tiles

end Runs

end

end SeismicIngest
