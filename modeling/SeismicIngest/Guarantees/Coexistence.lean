import SeismicIngest.Guarantees.CallRules
import SeismicIngest.Guarantees.ComparisonRecords

/-! # Every kind of call beside every other

Clients create sessions, put, compact, compare and read beside each other, under any
schedule, and each may die between any two statements.  All that is asked of them is that
no two draw the same id.  The committed tables are then those of a service that serves the
calls that have committed one after another, in the order of their commits
(`mortalCommits`); they are sound,
lose nothing and hold what the answers have promised (`calls_coexist`), also after any
number of restarts of the process.
-/

namespace SeismicIngest

open Transaction Spans

section

variable {H : Bytes → String} {lost : Raised}

/-- A record of two packages is one on every store that looks the same. -/
theorem RecordedFrom.congr {left right : Store} (same : SameViews left right) {env : Env}
    {baseline candidate : UploadSession} {record : Comparison}
    (recorded : RecordedFrom right env baseline candidate record) :
    RecordedFrom left env baseline candidate record where
  baselineFound := (sessionView_session (same _)).trans recorded.baselineFound
  candidateFound := (sessionView_session (same _)).trans recorded.candidateFound
  baselineSealed := recorded.baselineSealed
  candidateSealed := recorded.candidateSealed
  contents := by
    rw [same.chunksOf, same.chunksOf]
    exact recorded.contents

variable (H lost) in
/-- One life of a process that serves any calls. -/
inductive ServerLife (before : Store) : Store → Prop where
  | clients {ι : Type} [DecidableEq ι] (calls : ι → Call) (apart : DrawApart calls)
    (life : ι → Option Nat) (schedule : List ι) :
    ServerLife before (runMortals H lost calls life before schedule).committed

variable (H) in
/-- What holds of the tables when these calls have committed, in this order. -/
structure Accounted (calls : List Call) (initial committed : Store) : Prop where
  /-- The tables are those of a service that has served the calls one after another. -/
  serial : SameViews committed (serveAll H calls initial)
  sound : Sound H committed
  kept : ∀ {id session}, initial.session? id = some session →
    ∃ ended, committed.session? id = some ended ∧
      Evolves session (initial.rowsOf id).chunks ended (committed.rowsOf id).chunks
  records : initial.comparisons <+: committed.comparisons
  truthful : ∀ record ∈ committed.comparisons,
    ∃ env baseline candidate, RecordedFrom committed env baseline candidate record

theorem accounted {earlier calls : List Call} {initial committed : Store}
    (history : SameViews initial (serveAll H earlier Store.empty))
    (serial : SameViews committed (serveAll H calls initial)) : Accounted H calls initial committed := by
  have sound : Sound H initial := history.tables.sound (reachable_serveAll H earlier).sound
  have later := Later.serveAll H calls initial
  refine {
    serial := serial
    sound := serial.tables.sound (sound.later later)
    kept := ?_
    records := ?_
    truthful := ?_ }
  · intro id session found
    obtain ⟨ended, endedFound, evolves⟩ := evolves_of_later sound later found
    refine ⟨ended, (sessionView_session (serial id)).trans endedFound, ?_⟩
    rw [sessionView_rows (serial id)]
    exact evolves
  · rw [serial.comparisons]
    exact records_kept later
  · -- the calls of all lives, one after another
    have whole : SameViews committed (serveAll H (earlier ++ calls) Store.empty) := by
      intro id
      rw [serveAll_append]
      exact (serial id).trans (history.serveAll _ id)
    intro record stored
    rw [whole.comparisons] at stored
    obtain ⟨env, baseline, candidate, recorded⟩ :=
      recorded_contents (reachable_serveAll H (earlier ++ calls)) stored
    exact ⟨env, baseline, candidate, recorded.congr whole⟩

/-- When one life leaves what a service could have left that serves one call after another, so
    does any number of lives. -/
theorem lives_served {life : Store → Store → Prop} (served : ∀ {before after},
      life before after → Sound H before → ∃ calls, SameViews after (serveAll H calls before))
    {after : Store} (history : Relation.ReflTransGen life Store.empty after) :
    ∃ calls, SameViews after (serveAll H calls Store.empty) := by
  induction history with
  | refl => exact ⟨[], fun _ => rfl⟩
  | tail _ ends inductionHypothesis =>
    obtain ⟨calls, same⟩ := inductionHypothesis
    have sound := same.tables.sound (reachable_serveAll H calls).sound
    obtain ⟨last, sameLast⟩ := served ends sound
    refine ⟨calls ++ last, fun id => ?_⟩
    rw [serveAll_append]
    exact (sameLast id).trans (same.serveAll last id)

section Clients

variable {ι : Type} {calls : ι → Call} {initial : Store}

/-- Clients that commit what their calls would leave. -/
theorem commits_serial {α : Type} {rules : Rules ι Store Raised α} (serves : ∀ {i held before after},
      rules.guarantee i held before after → SameViews after ((calls i).serve H before).2)
    {order : List ι} {db : Store} (commits : rules.Commits initial order db) :
    SameViews db (serveAll H (order.map calls) initial) := by
  induction commits with
  | nothing => exact fun _ => rfl
  | commit _ guarantees inductionHypothesis =>
    intro id
    rw [List.map_append, serveAll_append]
    exact (serves guarantees id).trans (inductionHypothesis.serve _ id)

variable [DecidableEq ι]

variable (H) in
/-- What holds of clients of every kind when these have committed, in this order. -/
structure Coexist (calls : ι → Call) (initial : Store) (order : List ι) (sys : Clients ι) : Prop where
  /-- A client commits once. -/
  nodup : order.Nodup
  tables : Accounted H (order.map calls) initial sys.committed
  /-- Whatever has been answered with a result holds. -/
  promises : ∀ {i reply}, sys.Answered i (.ok reply) → (calls i).Promises H reply sys.committed

variable (H lost) in
/-- The clients that commit under a schedule, in the order of their commits. -/
def mortalCommits (calls : ι → Call) (life : ι → Option Nat) (initial : Store) (schedule : List ι) :
    List ι :=
  (System.start (mortals lost (clientProgram H calls) life) initial).commitOrder sessionPresent schedule

variable (H lost) in
theorem mortals_guarded (sound : Sound H initial) (apart : DrawApart calls) (life : ι → Option Nat)
    (schedule : List ι) :
    Guarded (serviceRules H calls) sessionPresent (fun i => (calls i).row) initial
      (mortalCommits H lost calls life initial schedule)
      (runMortals H lost calls life initial schedule) :=
  Guarded.runSchedule (serviceRules_lawful apart) sound
    (fun i => (call_safe apart initial).mortal (fun _ _ => nofun) (life i)) schedule

end Clients

/-- What one life leaves, a service could have left that serves one call after another. -/
theorem ServerLife.served {before after : Store} (life : ServerLife H lost before after)
    (sound : Sound H before) : ∃ calls, SameViews after (serveAll H calls before) := by
  cases life with
  | clients calls apart life schedule =>
    exact ⟨_, commits_serial And.left (mortals_guarded H lost sound apart life schedule).commits⟩

/-- After any history of crashes, calls of every kind coexist. -/
theorem calls_coexist {ι : Type} [DecidableEq ι] {calls : ι → Call} {initial : Store}
    (history : Relation.ReflTransGen (ServerLife H lost) Store.empty initial) (apart : DrawApart calls)
    (life : ι → Option Nat) (schedule : List ι) :
    Coexist H calls initial (mortalCommits H lost calls life initial schedule)
      (runMortals H lost calls life initial schedule) := by
  obtain ⟨earlier, same⟩ := lives_served ServerLife.served history
  have sound : Sound H initial := same.tables.sound (reachable_serveAll H earlier).sound
  have guarded := mortals_guarded H lost sound apart life schedule
  exact {
    nodup := guarded.nodup
    tables := accounted same (commits_serial And.left guarded.commits)
    promises := fun answered => guarded.answered answered _ rfl }

/-- Two creations, a put, a comparison and a look; the second creation dies. -/
def allKinds : Fin 5 → Call
  | 0 => ⟨⟨"s", 0, true⟩, .createSession 1 "d"⟩
  | 1 => ⟨⟨"t", 0, true⟩, .createSession 1 "d"⟩
  | 2 => ⟨⟨"", 0, true⟩, .putChunk "s" 0 1 "d" [1]⟩
  | 3 => ⟨⟨"c", 0, true⟩, .createComparison "s" "s"⟩
  | 4 => ⟨⟨"", 0, true⟩, .getSession "t"⟩

theorem allKinds_apart : DrawApart allKinds := by
  rw [DrawApart]
  decide

/-- The second creation dies between its flush and its commit. -/
def secondDies : Fin 5 → Option Nat
  | 1 => some 1
  | _ => none

theorem calls_coexist_mixed :
    let schedule := [1, 0, 3, 0, 0, 2, 1] ++ List.replicate 12 2 ++ [4, 4, 3, 3]
    let order := mortalCommits (fun _ => "d") nobody allKinds secondDies Store.empty schedule
    let sys := runMortals (fun _ => "d") nobody allKinds secondDies Store.empty schedule
    Coexist (fun _ => "d") allKinds Store.empty order sys ∧ order = [0, 2] ∧
      sys.committed.session? "t" = none ∧
      sys.Answered 2 (.ok (.ack ⟨"s", .sealed, 0, 1, "d", 1, 1, 1, false⟩)) := by
  intro schedule order sys
  exact ⟨calls_coexist .refl allKinds_apart secondDies _, by decide, by decide, rfl⟩

end

end SeismicIngest
