import SeismicIngest.Guarantees.Coexistence
import SeismicIngest.Guarantees.ReplyBodies

/-! # Every request beside every other

Requests of every kind arrive at one server and run beside each other, under any schedule;
each connection may break off between any two statements.  Some are refused by their route
or by the driver, the others make a call of the service.  The committed tables are those
of a server that serves the requests that have committed one after another, in the order of
their commits (`requestCommits`), and what a client has read from the response to its own request holds in them
(`requests_coexist`).
-/

namespace SeismicIngest

open Transaction Text

/-! ## Requests as clients -/

/-- A request, and what the interpreter draws for it. -/
structure Arrival where
  env : Env
  request : HttpRequest

/-- The request stores a row under an id that the server draws. -/
def HttpRequest.draws : HttpRequest → Bool
  | .createSession _ _ | .createComparison _ _ => true
  | _ => false

section

variable (H : Bytes → String) (framework : Framework) (fromisoformat : String → Option Nat)

def Arrival.program (arrival : Arrival) : Db Response :=
  arrival.request.program H framework arrival.env

/-- The store after a sequence of requests. -/
def serveRequests (arrivals : List Arrival) (db : Store) : Store :=
  arrivals.foldl (fun data arrival => (arrival.request.serve H framework arrival.env data).2) db

/-- The call of the request; one that makes none stands beside the others as a look. -/
def Arrival.call (arrival : Arrival) : Call :=
  ⟨arrival.env, (arrival.request.call? framework).getD (.getSession "")⟩

/-- What a client that has read `told` from the response can count on from then on. -/
def HttpRequest.Promises (request : HttpRequest) (told : Reply) (db : Store) : Prop :=
  match request, told with
  | .createSession totalBytes wholeSha256, .described body =>
    ∃ payload, SessionCreate.validate framework.endsWord totalBytes wholeSha256 = .ok payload ∧
      Registered db body.id totalBytes payload.wholeSha256.text
  | .uploadChunk id start length sha256 blocks, .ack _ =>
    ∃ session, Archived H (db.rowsOf id) session start length
      (String.ofList (lower framework.endsWord sha256.toList)) blocks.flatten
  | .createComparison _ _, .comparison record => db.comparison? record.id = some record
  | _, _ => True

variable {ι : Type}

def serverRules (arrivals : ι → Arrival) : Rules ι Store Raised Response :=
  (serviceRules H fun i => (arrivals i).call framework).telling fun i outcome db =>
    ∀ told, (answered outcome).reply? fromisoformat (arrivals i).request = some told →
      (arrivals i).request.Promises H framework told db

variable {H framework fromisoformat}

/-- A request leaves what its call leaves. -/
theorem Arrival.serve_call (arrival : Arrival) (db : Store) :
    (arrival.request.serve H framework arrival.env db).2 = ((arrival.call framework).serve H db).2 := by
  obtain ⟨env, request⟩ := arrival
  rw [Arrival.call]
  cases called : request.call? framework with
  | some call => exact congrArg Prod.snd (request_let called db)
  | none =>
    obtain ⟨answer, run, -⟩ := @request_stopped H framework env request called db
    exact (congrArg Prod.snd run).trans (serve_reads rfl).symm

theorem serveRequests_calls (arrivals : List Arrival) (db : Store) :
    serveRequests H framework arrivals db = serveAll H (arrivals.map (Arrival.call framework)) db := by
  induction arrivals generalizing db with
  | nil => rfl
  | cons arrival arrivals inductionHypothesis =>
    change serveRequests H framework arrivals (arrival.request.serve H framework arrival.env db).2 = _
    rw [inductionHypothesis, arrival.serve_call]
    rfl

/-! ## What has been read holds -/

theorem Counts.compared {call : Call} {held : Bool} {before after : Store}
    (counts : Counts H call held before after) {id : String} {record : Comparison}
    (stored : before.comparison? id = some record) : after.comparison? id = some record := by
  obtain ⟨stage, later, same⟩ := counts.stage
  obtain ⟨added, grown⟩ := records_kept later
  rw [Store.comparison?, same.comparisons, ← grown, List.find?_append]
  rw [Store.comparison?] at stored
  rw [stored]
  rfl

/-- What has been read stays true. -/
theorem Counts.told {call : Call} {held : Bool} {before after : Store} (sound : Sound H before)
    (counts : Counts H call held before after) {request : HttpRequest} {told : Reply}
    (promised : request.Promises H framework told before) : request.Promises H framework told after := by
  cases request with
  | createSession totalBytes wholeSha256 =>
    cases told with
    | described body =>
      obtain ⟨payload, validated, registered⟩ := promised
      exact ⟨payload, validated, counts.registered sound registered⟩
    | _ => trivial
  | uploadChunk id start length sha256 blocks =>
    cases told with
    | ack body => exact counts.archived sound promised
    | _ => trivial
  | createComparison baselineId candidateId =>
    cases told with
    | comparison record => exact counts.compared promised
    | _ => trivial
  | _ => trivial

section Told

variable (dates : ∀ time, fromisoformat (framework.isoformat time) = some time)

include dates

/-- What is read from the response to a reply is what the reply promises. -/
theorem Routed.told {env : Env} {request : HttpRequest} {call : Request}
    (routed : Routed framework request call) {db : Store} {reply told : Reply}
    (promised : (Call.mk env call).Promises H reply db)
    (read : (reply.respond framework request).reply? fromisoformat request = some told) :
    request.Promises H framework told db := by
  cases routed with
  | @createSession totalBytes wholeSha256 payload validated =>
    cases reply with
    | session row =>
      rw [reply?_respond dates (.created row)] at read
      obtain rfl := Option.some.inj read
      obtain ⟨own, registered⟩ := promised
      have total : ((payload.totalBytes.toNat : Nat) : Int) = totalBytes :=
        (Int.toNat_of_nonneg payload.nonneg).trans (SessionCreate.validate_totalBytes validated)
      rw [total, ← own] at registered
      exact ⟨payload, validated, registered⟩
    | _ => exact promised.elim
  | @uploadChunk id start length sha256 blocks payload received admitted sent =>
    cases reply with
    | ack body =>
      rw [reply?_respond dates (.acknowledged body)] at read
      obtain rfl := Option.some.inj read
      have whole : payload = blocks.flatten := chunkPayload_flatten received
      rw [whole] at promised
      exact promised
    | _ => exact promised.elim
  | createComparison filled baselineSent candidateSent =>
    cases reply with
    | comparison record =>
      rw [reply?_respond dates (.compared record)] at read
      obtain rfl := Option.some.inj read
      have stored : db.comparison? env.uuid = some record := promised
      have own : record.id = env.uuid := by simpa using List.find?_some stored
      rw [← own] at stored
      exact stored
    | _ => exact promised.elim
  | _ => trivial

end Told

/-! ## Every request is safe -/

section Safe

variable {arrivals : ι → Arrival} {i : ι} {db : Store}

/-- An error tells nothing. -/
theorem told_error (exception : Raised) (db : Store) :
    (serverRules H framework fromisoformat arrivals).answers i (.error exception) db := by
  intro told read
  rw [reply?_error] at read
  cases read

/-- A request that makes no call is safe. -/
theorem stopped_safe {row : String} (stopped : (arrivals i).request.call? framework = none) :
    ((arrivals i).program H framework).Safe (serverRules H framework fromisoformat arrivals) i
      sessionPresent row false id db := by
  have stops : Stopped framework (arrivals i).request ((arrivals i).program H framework) :=
    stopped_program stopped
  generalize (arrivals i).program H framework = program at stops
  cases stops with
  | invalid report names =>
    intro told read
    rw [answered, reply?_validationResponse] at read
    cases read
  | unrendered | refused | unsent => exact told_error _ _
  | candidate =>
    exact getSessionRow_safe (fun _ _ => told_error _ _) fun _ _ _ _ => told_error _ _

theorem request_safe (dates : ∀ time, fromisoformat (framework.isoformat time) = some time)
    (apart : DrawApart fun i => (arrivals i).call framework) (db : Store) :
    ((arrivals i).program H framework).Safe (serverRules H framework fromisoformat arrivals) i
      sessionPresent ((arrivals i).call framework).row false id db := by
  cases called : (arrivals i).request.call? framework with
  | none => exact stopped_safe called
  | some call =>
    have own : (arrivals i).call framework = ⟨(arrivals i).env, call⟩ := by rw [Arrival.call, called]; rfl
    have runs : Runs H framework (arrivals i).env (arrivals i).request call := (routed called).runs
    rw [Arrival.program, runs, ← own]
    refine Program.Safe.map (Program.Safe.telling (fun answer data promised => ?_) (call_safe apart db))
    cases answer with
    | error exception => exact told_error exception data
    | ok reply =>
      have promised := promised reply rfl
      dsimp only at promised
      rw [own] at promised
      exact fun told read => (routed called).told dates promised read

end Safe

/-! ## Every schedule -/

/-- No two requests draw the same id. -/
def RequestsApart (arrivals : ι → Arrival) : Prop :=
  ∀ i j, i ≠ j → (arrivals i).request.draws = true → (arrivals j).request.draws = true →
    (arrivals i).env.uuid ≠ (arrivals j).env.uuid

theorem Arrival.call_draws {arrival : Arrival}
    (draws : (arrival.call framework).request.draws = true) : arrival.request.draws = true := by
  obtain ⟨env, request⟩ := arrival
  rw [Arrival.call] at draws
  cases called : request.call? framework with
  | none =>
    rw [called] at draws
    cases draws
  | some call =>
    rw [called] at draws
    cases routed called with
    | createSession _ | createComparison _ _ _ => rfl
    | _ => cases draws

theorem RequestsApart.calls {arrivals : ι → Arrival} (apart : RequestsApart arrivals) :
    DrawApart fun i => (arrivals i).call framework :=
  fun i j different draws others => apart i j different (Arrival.call_draws draws) (Arrival.call_draws others)

section Clients

variable {lost : Raised} [DecidableEq ι]

variable (H framework lost) in
/-- The clients after a schedule, when connection `i` breaks off after `life i` statements. -/
def runRequests (arrivals : ι → Arrival) (life : ι → Option Nat) (initial : Store) (schedule : List ι) :
    System ι Store String DbError Raised Response :=
  (System.start (mortals lost (fun i => (arrivals i).program H framework) life) initial).runSchedule
    sessionPresent schedule

variable (H framework lost) in
/-- One life of a server. -/
inductive RequestLife (before : Store) : Store → Prop where
  | clients {ι : Type} [DecidableEq ι] (arrivals : ι → Arrival) (apart : RequestsApart arrivals)
    (life : ι → Option Nat) (schedule : List ι) :
    RequestLife before (runRequests H framework lost arrivals life before schedule).committed

variable (H framework lost) in
/-- The requests that commit under a schedule, in the order of their commits. -/
def requestCommits (arrivals : ι → Arrival) (life : ι → Option Nat) (initial : Store)
    (schedule : List ι) : List ι :=
  (System.start (mortals lost (fun i => (arrivals i).program H framework) life) initial).commitOrder
    sessionPresent schedule

variable (H framework fromisoformat) in
/-- What holds of requests when these have committed, in this order. -/
structure RequestsCoexist (arrivals : ι → Arrival) (initial : Store) (order : List ι)
    (sys : System ι Store String DbError Raised Response) : Prop where
  /-- A request commits once. -/
  nodup : order.Nodup
  tables : SameViews sys.committed (serveRequests H framework (order.map arrivals) initial)
  accounted : Accounted H (order.map fun i => (arrivals i).call framework) initial sys.committed
  /-- Whatever a client has read from its response holds. -/
  told : ∀ {i outcome told}, sys.Answered i outcome →
    (answered outcome).reply? fromisoformat (arrivals i).request = some told →
      (arrivals i).request.Promises H framework told sys.committed

section Run

variable {arrivals : ι → Arrival} {initial : Store}
variable (dates : ∀ time, fromisoformat (framework.isoformat time) = some time)

include dates

variable (lost) in
theorem requests_guarded (sound : Sound H initial) (apart : RequestsApart arrivals)
    (life : ι → Option Nat) (schedule : List ι) :
    Guarded (serverRules H framework fromisoformat arrivals) sessionPresent
      (fun i => ((arrivals i).call framework).row) initial
      (requestCommits H framework lost arrivals life initial schedule)
      (runRequests H framework lost arrivals life initial schedule) := by
  have lawful : (serverRules H framework fromisoformat arrivals).Lawful sessionPresent
      fun i => ((arrivals i).call framework).row :=
    (serviceRules_lawful apart.calls).telling fun finds promised told read =>
      finds.counts.told finds.valid (promised told read)
  exact Guarded.runSchedule lawful sound
    (fun i => (request_safe dates apart.calls initial).mortal (told_error lost) (life i)) schedule

/-- What one life of a server leaves, a service could have left that serves one call after
    another. -/
theorem RequestLife.served {before after : Store} (life : RequestLife H framework lost before after)
    (sound : Sound H before) : ∃ calls, SameViews after (serveAll H calls before) := by
  cases life with
  | clients arrivals apart life schedule =>
    exact ⟨_, commits_serial And.left (requests_guarded lost dates sound apart life schedule).commits⟩

/-- After any history of crashes, requests of every kind coexist. -/
theorem requests_coexist
    (history : Relation.ReflTransGen (RequestLife H framework lost) Store.empty initial)
    (apart : RequestsApart arrivals) (life : ι → Option Nat) (schedule : List ι) :
    RequestsCoexist H framework fromisoformat arrivals initial
      (requestCommits H framework lost arrivals life initial schedule)
      (runRequests H framework lost arrivals life initial schedule) := by
  obtain ⟨earlier, same⟩ := lives_served (RequestLife.served dates) history
  have sound : Sound H initial := same.tables.sound (reachable_serveAll H earlier).sound
  have guarded := requests_guarded lost dates sound apart life schedule
  have serial := commits_serial And.left guarded.commits
  refine {
    nodup := guarded.nodup
    tables := ?_
    accounted := accounted same serial
    told := fun ended read => guarded.answered ended _ read }
  rw [serveRequests_calls, List.map_map]
  exact serial

end Run

end Clients

/-- The digest of everything. -/
def oneDigest : String := "aaaaaaaaaaaaaaaaaaaaaaaaaaaaaaaaaaaaaaaaaaaaaaaaaaaaaaaaaaaaaaaa"

/-- A package of one byte, its comparison with itself and its compaction; a creation without
    a digest. -/
def arrived : Fin 5 → Arrival
  | 0 => ⟨⟨"s", 0, true⟩, .createSession 1 oneDigest⟩
  | 1 => ⟨⟨"", 0, true⟩, .uploadChunk "s" 0 1 oneDigest [[], [7]]⟩
  | 2 => ⟨⟨"c", 0, true⟩, .createComparison "s" "s"⟩
  | 3 => ⟨⟨"t", 0, true⟩, .createSession 1 "d"⟩
  | 4 => ⟨⟨"", 0, true⟩, .compactSession "s" 1⟩

theorem arrived_apart : RequestsApart arrived := by
  rw [RequestsApart]
  decide

/-- The connection of the compaction breaks off. -/
def compactionDies : Fin 5 → Option Nat
  | 4 => some 2
  | _ => none

theorem requests_coexist_mixed :
    let framework : Framework := ⟨4, fun _ _ => false, epochText, fun _ => .null⟩
    let schedule := [0, 3, 0, 0, 0, 1] ++ List.replicate 12 1 ++ [4, 4, 4, 4] ++ List.replicate 12 2
    let order := requestCommits (fun _ => oneDigest) framework nobody arrived compactionDies Store.empty
      schedule
    let sys := runRequests (fun _ => oneDigest) framework nobody arrived compactionDies Store.empty
      schedule
    RequestsCoexist (fun _ => oneDigest) framework epochOf arrived Store.empty order sys ∧
      order = [0, 1, 2] ∧ sys.committed.comparisons.length = 1 ∧
        sys.committed.auditEvents.length = 1 := by
  intro framework schedule order sys
  exact ⟨requests_coexist epochOf_epochText .refl arrived_apart compactionDies _, by decide +kernel⟩

end

end SeismicIngest
