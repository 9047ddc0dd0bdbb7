import SeismicIngest.Transaction.Serializability

/-! # Clients that lock nothing

An observer reads without a lock, and what it writes, if anything, belongs to no row of
the writers.  Its statements find what was committed at some moments of the schedule, each
no earlier than the one before, and between two of its moves the data changes only as the
other clients change it (`System.observed`).  It waits for nobody, so that enough moves of
its own give it an answer (`System.answered_after`).
-/

namespace SeismicIngest.Transaction

section

variable {ι σ κ δ ε α β τ ν : Type}

/-! ## Programs -/

namespace Program

/-- No row is locked. -/
def LockFree : Program σ κ δ ε α → Prop
  | .pure _ | .raise _ => True
  | .lock _ _ => False
  | .query next => ∀ data, (next data).LockFree
  | .flush _ next => ∀ answer, (next answer).LockFree
  | .commit rest | .rollback rest => rest.LockFree

/-- No batch of the program changes `part`. -/
def Keeps (part : σ → τ) : Program σ κ δ ε α → Prop
  | .pure _ | .raise _ => True
  | .lock _ next | .query next => ∀ data, (next data).Keeps part
  | .flush batch next =>
    (∀ data, part (batch.apply data) = part data) ∧ ∀ answer, (next answer).Keeps part
  | .commit rest | .rollback rest => rest.Keeps part

/-- The program has ended after `count` statements at the latest. -/
def Within : Nat → Program σ κ δ ε α → Prop
  | _, .pure _ | _, .raise _ => True
  | 0, _ => False
  | count + 1, .lock _ next | count + 1, .query next => ∀ data, (next data).Within count
  | count + 1, .flush _ next => ∀ answer, (next answer).Within count
  | count + 1, .commit rest | count + 1, .rollback rest => rest.Within count

theorem LockFree.bind {program : Program σ κ δ ε α} {next : α → Program σ κ δ ε β}
    (lockFree : program.LockFree) (nextFree : ∀ result, (next result).LockFree) :
    (program >>= next).LockFree := by
  change (program.bind next).LockFree
  induction program with
  | pure result => exact nextFree result
  | raise _ => trivial
  | lock _ _ _ => exact lockFree.elim
  | query _ inductionHypothesis | flush _ _ inductionHypothesis =>
    exact fun found => inductionHypothesis found (lockFree found)
  | commit _ inductionHypothesis | rollback _ inductionHypothesis =>
    exact inductionHypothesis lockFree

theorem Within.mono {program : Program σ κ δ ε α} {count more : Nat} (within : program.Within count)
    (le : count ≤ more) : program.Within more := by
  induction program generalizing count more with
  | pure _ | raise _ => cases more <;> trivial
  | lock _ _ inductionHypothesis | query _ inductionHypothesis | flush _ _ inductionHypothesis =>
    cases count with
    | zero => exact within.elim
    | succ count =>
      cases more with
      | zero => exact absurd le (Nat.not_succ_le_zero count)
      | succ more =>
        exact fun found => inductionHypothesis found (within found) (Nat.le_of_succ_le_succ le)
  | commit _ inductionHypothesis | rollback _ inductionHypothesis =>
    cases count with
    | zero => exact within.elim
    | succ count =>
      cases more with
      | zero => exact absurd le (Nat.not_succ_le_zero count)
      | succ more => exact inductionHypothesis within (Nat.le_of_succ_le_succ le)

theorem Within.bind {program : Program σ κ δ ε α} {next : α → Program σ κ δ ε β} {first second : Nat}
    (within : program.Within first) (nextWithin : ∀ result, (next result).Within second) :
    (program >>= next).Within (first + second) := by
  change (program.bind next).Within (first + second)
  induction program generalizing first with
  | pure result => exact (nextWithin result).mono (Nat.le_add_left _ _)
  | raise _ => cases first + second <;> trivial
  | lock _ _ inductionHypothesis | query _ inductionHypothesis | flush _ _ inductionHypothesis =>
    cases first with
    | zero => exact within.elim
    | succ first =>
      rw [Nat.add_right_comm]
      exact fun found => inductionHypothesis found (within found)
  | commit _ inductionHypothesis | rollback _ inductionHypothesis =>
    cases first with
    | zero => exact within.elim
    | succ first =>
      rw [Nat.add_right_comm]
      exact inductionHypothesis within

theorem Within.select (view : σ → α) : (select view : Program σ κ δ ε α).Within 1 :=
  fun _ => trivial

theorem Within.lift (outcome : Except ε α) : (lift outcome : Program σ κ δ ε α).Within 0 := by
  cases outcome <;> trivial

theorem Quiet.lockFree {program : Program σ κ δ ε α} (quiet : program.Quiet) : program.LockFree := by
  induction program with
  | pure _ | raise _ => trivial
  | query _ inductionHypothesis => exact fun data => inductionHypothesis data (quiet data)
  | rollback _ inductionHypothesis => exact inductionHypothesis quiet
  | lock _ _ _ | flush _ _ _ | commit _ _ => exact quiet.elim

section Keeps

variable {part : σ → τ}

theorem Keeps.bind {program : Program σ κ δ ε α} {next : α → Program σ κ δ ε β}
    (keeps : program.Keeps part) (nextKeeps : ∀ result, (next result).Keeps part) :
    (program >>= next).Keeps part := by
  change (program.bind next).Keeps part
  induction program with
  | pure result => exact nextKeeps result
  | raise _ => trivial
  | lock _ _ inductionHypothesis | query _ inductionHypothesis =>
    exact fun data => inductionHypothesis data (keeps data)
  | flush _ _ inductionHypothesis =>
    exact ⟨keeps.1, fun answer => inductionHypothesis answer (keeps.2 answer)⟩
  | commit _ inductionHypothesis | rollback _ inductionHypothesis =>
    exact inductionHypothesis keeps

theorem Quiet.keeps {program : Program σ κ δ ε α} (quiet : program.Quiet) : program.Keeps part := by
  induction program with
  | pure _ | raise _ => trivial
  | query _ inductionHypothesis => exact fun data => inductionHypothesis data (quiet data)
  | rollback _ inductionHypothesis => exact inductionHypothesis quiet
  | lock _ _ _ | flush _ _ _ | commit _ _ => exact quiet.elim

/-- A local program keeps every other row. -/
theorem LocalTo.keeps {view : κ → σ → ν} {key other : κ} {program : Program σ κ δ ε α}
    (isLocal : program.LocalTo view key) (different : other ≠ key) :
    program.Keeps (view other) := by
  induction program with
  | pure _ | raise _ => trivial
  | lock _ _ inductionHypothesis => exact fun data => inductionHypothesis data (isLocal.2.2 data)
  | query _ inductionHypothesis => exact fun data => inductionHypothesis data (isLocal.2 data)
  | flush _ _ inductionHypothesis =>
    exact ⟨isLocal.1.frame different, fun answer => inductionHypothesis answer (isLocal.2 answer)⟩
  | commit _ inductionHypothesis | rollback _ inductionHypothesis =>
    exact inductionHypothesis isLocal

/-- What is the same in all data is kept. -/
theorem Keeps.const (value : τ) (program : Program σ κ δ ε α) : program.Keeps fun _ => value := by
  induction program with
  | pure _ | raise _ => trivial
  | lock _ _ inductionHypothesis | query _ inductionHypothesis => exact inductionHypothesis
  | flush _ _ inductionHypothesis => exact ⟨fun _ => rfl, inductionHypothesis⟩
  | commit _ inductionHypothesis | rollback _ inductionHypothesis => exact inductionHypothesis

/-- What is kept entirely is kept in every part. -/
theorem Keeps.map {υ : Type} (of : τ → υ) {program : Program σ κ δ ε α} (keeps : program.Keeps part) :
    program.Keeps fun data => of (part data) := by
  induction program with
  | pure _ | raise _ => trivial
  | lock _ _ inductionHypothesis | query _ inductionHypothesis =>
    exact fun data => inductionHypothesis data (keeps data)
  | flush _ _ inductionHypothesis =>
    exact ⟨fun data => congrArg of (keeps.1 data),
      fun answer => inductionHypothesis answer (keeps.2 answer)⟩
  | commit _ inductionHypothesis | rollback _ inductionHypothesis =>
    exact inductionHypothesis keeps

end Keeps

/-! ## Answers along a schedule -/

section Along

variable (rely : σ → σ → Prop) (moment : Nat → σ)

/-- Time passes from `t` to `later` while the client waits. -/
def Waits (t later : Nat) : Prop :=
  t ≤ later ∧ rely (moment t) (moment later)

/-- The answers a program can give from time `t` on, when `moment` is the committed data at
    each time and `rely` what the other clients do to it.  A commit takes one unit of time,
    and is the next data. -/
def AnswersAlong (answer : Except ε α) (last : Nat) :
    Program σ κ δ ε α → (σ → σ) → Nat → Prop
  | .pure result, _, t => answer = .ok result ∧ Waits rely moment t last
  | .raise exception, _, t => answer = .error exception ∧ Waits rely moment t last
  | .lock _ _, _, _ => False
  | .query next, staged, t => ∃ later, Waits rely moment t later ∧
    (next (staged (moment later))).AnswersAlong answer last staged later
  | .flush batch next, staged, t => ∃ later, Waits rely moment t later ∧
    (next (batch.rejects (staged (moment later)))).AnswersAlong answer last
      (System.stage batch (batch.rejects (staged (moment later))) staged) later
  | .commit rest, staged, t => ∃ later, Waits rely moment t later ∧
    moment (later + 1) = staged (moment later) ∧ rest.AnswersAlong answer last id (later + 1)
  | .rollback rest, _, t => rest.AnswersAlong answer last id t

/-- What a client has come to by time `t`: the rest of its program and what it has staged. -/
inductive Along (program : Program σ κ δ ε α) : Program σ κ δ ε α → (σ → σ) → Nat → Prop where
  | start : Along program program id 0
  | wait {current : Program σ κ δ ε α} {staged : σ → σ} {t : Nat} :
    Along program current staged t → rely (moment t) (moment (t + 1)) →
      Along program current staged (t + 1)
  | query {next : σ → Program σ κ δ ε α} {staged : σ → σ} {t : Nat} :
    Along program (.query next) staged t → moment (t + 1) = moment t →
      Along program (next (staged (moment t))) staged (t + 1)
  | flush {batch : Batch σ δ} {next : Option δ → Program σ κ δ ε α} {staged : σ → σ} {t : Nat} :
    Along program (.flush batch next) staged t → moment (t + 1) = moment t →
      Along program (next (batch.rejects (staged (moment t))))
        (System.stage batch (batch.rejects (staged (moment t))) staged) (t + 1)
  | commit {rest : Program σ κ δ ε α} {staged : σ → σ} {t : Nat} :
    Along program (.commit rest) staged t → moment (t + 1) = staged (moment t) →
      Along program rest id (t + 1)
  | rollback {rest : Program σ κ δ ε α} {staged : σ → σ} {t : Nat} :
    Along program (.rollback rest) staged t → moment (t + 1) = moment t →
      Along program rest id (t + 1)
  | close (answer : Except ε α) {staged : σ → σ} {t : Nat} :
    Along program (.lift answer) staged t → moment (t + 1) = moment t →
      Along program (.lift answer) id (t + 1)

variable {rely moment}

theorem Waits.refl (refl : ∀ data, rely data data) (t : Nat) : Waits rely moment t t :=
  ⟨Nat.le_refl t, refl _⟩

theorem Waits.trans (trans : ∀ first second third, rely first second → rely second third →
    rely first third) {first second third : Nat} (earlier : Waits rely moment first second)
    (later : Waits rely moment second third) : Waits rely moment first third :=
  ⟨Nat.le_trans earlier.1 later.1, trans _ _ _ earlier.2 later.2⟩

/-- A query is answered from one moment, and the program goes on from there. -/
theorem answersAlong_select {view : σ → β} {next : β → Program σ κ δ ε α} {answer : Except ε α}
    {last : Nat} {staged : σ → σ} {t : Nat} :
    (select view >>= next).AnswersAlong rely moment answer last staged t ↔
      ∃ later, Waits rely moment t later ∧
        (next (view (staged (moment later)))).AnswersAlong rely moment answer last staged later :=
  Iff.rfl

section Compose

variable (refl : ∀ data, rely data data)
  (trans : ∀ first second third, rely first second → rely second third → rely first third)
  {answer : Except ε α} {last : Nat}

include trans

/-- Waiting first does no harm. -/
theorem AnswersAlong.wait {program : Program σ κ δ ε α} {staged : σ → σ} {t later : Nat}
    (waits : Waits rely moment t later)
    (answers : program.AnswersAlong rely moment answer last staged later) :
    program.AnswersAlong rely moment answer last staged t := by
  induction program generalizing staged with
  | pure _ | raise _ => exact ⟨answers.1, waits.trans trans answers.2⟩
  | lock _ _ _ => exact answers.elim
  | query _ _ | flush _ _ _ | commit _ _ =>
    obtain ⟨moved, waitsOn, rest⟩ := answers
    exact ⟨moved, waits.trans trans waitsOn, rest⟩
  | rollback _ inductionHypothesis => exact inductionHypothesis answers

omit trans in
/-- The answers of a program whose result is renamed. -/
theorem answersAlong_map {rename : α → β} {program : Program σ κ δ ε α} {answer : Except ε β}
    {staged : σ → σ} {t : Nat}
    (answers : (rename <$> program).AnswersAlong rely moment answer last staged t) :
    ∃ result, program.AnswersAlong rely moment result last staged t ∧
      answer = result.map rename := by
  induction program generalizing staged t with
  | pure result => exact ⟨.ok result, ⟨rfl, answers.2⟩, answers.1⟩
  | raise exception => exact ⟨.error exception, ⟨rfl, answers.2⟩, answers.1⟩
  | lock _ _ _ => exact answers.elim
  | query _ inductionHypothesis | flush _ _ inductionHypothesis =>
    obtain ⟨later, waits, rest⟩ := answers
    obtain ⟨result, found, renamed⟩ := inductionHypothesis _ rest
    exact ⟨result, ⟨later, waits, found⟩, renamed⟩
  | commit _ inductionHypothesis =>
    obtain ⟨later, waits, next, rest⟩ := answers
    obtain ⟨result, found, renamed⟩ := inductionHypothesis rest
    exact ⟨result, ⟨later, waits, next, found⟩, renamed⟩
  | rollback _ inductionHypothesis => exact inductionHypothesis answers

include refl

/-- What can be answered from here on can be answered from the start. -/
theorem Along.answers {program current : Program σ κ δ ε α} {staged : σ → σ} {t : Nat}
    (along : program.Along rely moment current staged t)
    (answers : current.AnswersAlong rely moment answer last staged t) :
    program.AnswersAlong rely moment answer last id 0 := by
  -- a move that commits nothing is also a moment of waiting
  have passes : ∀ {time : Nat}, moment (time + 1) = moment time → Waits rely moment time (time + 1) :=
    fun same => ⟨Nat.le_succ _, by rw [same]; exact refl _⟩
  induction along with
  | start => exact answers
  | wait _ others inductionHypothesis =>
    exact inductionHypothesis (answers.wait trans ⟨Nat.le_succ _, others⟩)
  | query _ same inductionHypothesis =>
    exact inductionHypothesis ⟨_, Waits.refl refl _, answers.wait trans (passes same)⟩
  | flush _ same inductionHypothesis =>
    exact inductionHypothesis ⟨_, Waits.refl refl _, answers.wait trans (passes same)⟩
  | commit _ staged inductionHypothesis =>
    exact inductionHypothesis ⟨_, Waits.refl refl _, staged, answers⟩
  | rollback _ same inductionHypothesis =>
    exact inductionHypothesis (answers.wait trans (passes same))
  | close outcome _ same inductionHypothesis =>
    -- a connection that is closed has answered already
    cases outcome <;> exact inductionHypothesis (answers.wait trans (passes same))

end Compose

end Along

end Program

/-! ## Moves -/

/-- One move of a client that finds `data` committed: the client afterwards, and what is
    committed then. -/
inductive Client.Moves (data : σ) : Client σ κ δ ε α → Client σ κ δ ε α → σ → Prop where
  | close (answer : Except ε α) {staged : σ → σ} :
    Moves data ⟨.lift answer, staged⟩ ⟨.lift answer, id⟩ data
  | lock {key : κ} {next : σ → Program σ κ δ ε α} {staged : σ → σ} :
    Moves data ⟨.lock key next, staged⟩ ⟨next (staged data), staged⟩ data
  | query {next : σ → Program σ κ δ ε α} {staged : σ → σ} :
    Moves data ⟨.query next, staged⟩ ⟨next (staged data), staged⟩ data
  | flush {batch : Batch σ δ} {next : Option δ → Program σ κ δ ε α} {staged : σ → σ} :
    Moves data ⟨.flush batch next, staged⟩
      ⟨next (batch.rejects (staged data)),
        System.stage batch (batch.rejects (staged data)) staged⟩ data
  | commit {rest : Program σ κ δ ε α} {staged : σ → σ} :
    Moves data ⟨.commit rest, staged⟩ ⟨rest, id⟩ (staged data)
  | rollback {rest : Program σ κ δ ε α} {staged : σ → σ} :
    Moves data ⟨.rollback rest, staged⟩ ⟨rest, id⟩ data

structure Client.Keeps (part : σ → τ) (client : Client σ κ δ ε α) : Prop where
  program : client.program.Keeps part
  staged : ∀ data, part (client.staged data) = part data

namespace Client.Moves

variable {client next : Client σ κ δ ε α} {data committed : σ}

theorem lockFree (moves : client.Moves data next committed) (free : client.program.LockFree) :
    next.program.LockFree := by
  cases moves with
  | close answer => exact free
  | lock => exact free.elim
  | query | flush => exact free _
  | commit | rollback => exact free

/-- Each move of a program brings it nearer to its answer. -/
theorem within {count : Nat} (moves : client.Moves data next committed)
    (before : client.program.Within count) : next.program.Within (count - 1) := by
  cases moves with
  | close answer => exact (Program.Within.lift answer).mono (Nat.zero_le _)
  | lock | query | flush =>
    cases count with
    | zero => exact before.elim
    | succ count => exact before _
  | commit | rollback =>
    cases count with
    | zero => exact before.elim
    | succ count => exact before

/-- A client keeps keeping what it keeps, and so does what it commits. -/
theorem keeps {part : σ → τ} (moves : client.Moves data next committed)
    (keeps : client.Keeps part) : next.Keeps part ∧ part committed = part data := by
  obtain ⟨program, staged⟩ := keeps
  have clean : ∀ data : σ, part (id data) = part data := fun _ => rfl
  cases moves with
  | close answer => exact ⟨⟨program, clean⟩, rfl⟩
  | lock | query => exact ⟨⟨program _, staged⟩, rfl⟩
  | commit => exact ⟨⟨program, clean⟩, staged _⟩
  | rollback => exact ⟨⟨program, clean⟩, rfl⟩
  | @flush batch _ before =>
    refine ⟨⟨program.2 _, fun found => ?_⟩, rfl⟩
    -- the batch is staged or refused
    cases batch.rejects (before data) with
    | none => exact (program.1 _).trans (staged found)
    | some _ => exact staged found

/-- A move of a client that locks nothing, along a schedule. -/
theorem along {call : Program σ κ δ ε α} {rely : σ → σ → Prop} {moment : Nat → σ} {t : Nat}
    (moves : client.Moves data next committed) (now : moment t = data)
    (afterwards : moment (t + 1) = committed) (free : client.program.LockFree)
    (along : call.Along rely moment client.program client.staged t) :
    call.Along rely moment next.program next.staged (t + 1) := by
  subst now
  cases moves with
  | close answer => exact .close answer along afterwards
  | lock => exact free.elim
  | query => exact .query along afterwards
  | flush => exact .flush along afterwards
  | commit => exact .commit along afterwards
  | rollback => exact .rollback along afterwards

end Client.Moves

namespace System

variable [DecidableEq ι] [DecidableEq κ] {present : κ → σ → Bool}
variable {sys after : System ι σ κ δ ε α} {i j : ι}

theorem runSchedule_snoc (sys : System ι σ κ δ ε α) (schedule : List ι) (i : ι) :
    sys.runSchedule present (schedule ++ [i]) =
      ((sys.runSchedule present schedule).step present i).getD (sys.runSchedule present schedule) := by
  rw [runSchedule, List.foldl_append]
  rfl

/-- What one step does: its client moves, and no other client moves or takes a lock. -/
theorem step_moves (moved : sys.step present i = some after) :
    ∃ client, (sys.client i).Moves sys.committed client after.committed ∧
      after.client = Function.update sys.client i client ∧
      ∀ k j, after.owner k = some j → j = i ∨ sys.owner k = some j := by
  have kept : ∀ k j, sys.owner k = some j → j = i ∨ sys.owner k = some j := fun _ _ => .inr
  have released : ∀ k j, (if sys.owner k = some i then none else sys.owner k) = some j →
      j = i ∨ sys.owner k = some j := by
    intro k j owns
    split at owns
    · cases owns
    · exact .inr owns
  have seen : sys.working i = (sys.client i).staged sys.committed := rfl
  cases left : sys.client i with
  | mk program staged =>
    rw [left] at seen
    cases program with
    | pure result =>
      simp only [step, left, Option.some.injEq] at moved
      subst moved
      exact ⟨_, .close (.ok result), rfl, released⟩
    | raise exception =>
      simp only [step, left, Option.some.injEq] at moved
      subst moved
      exact ⟨_, .close (.error exception), rfl, released⟩
    | lock key next =>
      cases owned : sys.owner key with
      | some holder =>
        by_cases own : holder = i
        · simp only [step, left, owned, own, if_true, proceed, seen, Option.some.injEq] at moved
          subst moved
          exact ⟨_, .lock, rfl, kept⟩
        · simp [step, left, owned, own] at moved
      | none =>
        simp only [step, left, owned, proceed, seen, Option.some.injEq] at moved
        subst moved
        refine ⟨_, .lock, rfl, ?_⟩
        intro k j owns
        -- only the row that was asked for can have a new holder
        by_cases here : present key (staged sys.committed) = true
        · simp only [here, if_true] at owns
          by_cases same : k = key
          · subst same
            rw [Function.update_self] at owns
            exact .inl (Option.some.inj owns).symm
          · rw [Function.update_of_ne same] at owns
            exact .inr owns
        · rw [if_neg here] at owns
          exact .inr owns
    | query next =>
      simp only [step, left, proceed, seen, Option.some.injEq] at moved
      subst moved
      exact ⟨_, .query, rfl, kept⟩
    | flush batch next =>
      simp only [step, left, seen, Option.some.injEq] at moved
      subst moved
      exact ⟨_, .flush, rfl, kept⟩
    | commit rest =>
      simp only [step, left, finish, seen, Option.some.injEq] at moved
      subst moved
      exact ⟨_, .commit, rfl, released⟩
    | rollback rest =>
      simp only [step, left, finish, Option.some.injEq] at moved
      subst moved
      exact ⟨_, .rollback, rfl, released⟩

/-- The other clients do not move. -/
theorem step_other (moved : sys.step present j = some after) (different : i ≠ j) :
    after.client i = sys.client i := by
  obtain ⟨client, -, clients, -⟩ := step_moves moved
  rw [clients, Function.update_of_ne different]

theorem step_self (moved : sys.step present i = some after) :
    (sys.client i).Moves sys.committed (after.client i) after.committed := by
  obtain ⟨client, moves, clients, -⟩ := step_moves moved
  rw [clients, Function.update_self]
  exact moves

/-- Only the one that moves can take a lock. -/
theorem step_owner (moved : sys.step present j = some after) (different : i ≠ j) {k : κ}
    (owns : after.owner k = some i) : sys.owner k = some i := by
  obtain ⟨-, -, -, owners⟩ := step_moves moved
  exact (owners k i owns).resolve_left different

variable (present) in
/-- A client that locks nothing never waits. -/
theorem step_lockFree_some (free : (sys.client i).program.LockFree) :
    ∃ after, sys.step present i = some after := by
  cases left : (sys.client i).program with
  | lock _ _ =>
    rw [left] at free
    exact free.elim
  | _ =>
    simp only [step, left]
    exact ⟨_, rfl⟩

theorem keeps_runSchedule {part : σ → τ} {call : ι → Program σ κ δ ε α} {initial : σ}
    (keeps : (call i).Keeps part) (schedule : List ι) :
    (((start call initial).runSchedule present schedule).client i).Keeps part := by
  have preserved : ∀ (sys : System ι σ κ δ ε α) j after, (sys.client i).Keeps part →
      sys.step present j = some after → (after.client i).Keeps part := by
    intro sys j after holds moved
    by_cases own : i = j
    · subst own
      exact ((step_self moved).keeps holds).1
    · rw [step_other moved own]
      exact holds
  exact runSchedule_induction preserved ⟨keeps, fun _ => rfl⟩ schedule

/-! ### What an observer finds -/

/-- The committed data after the first `t` moves. -/
def moment (present : κ → σ → Bool) (sys : System ι σ κ δ ε α) (schedule : List ι) (t : Nat) : σ :=
  (sys.runSchedule present (schedule.take t)).committed

theorem moment_last (sys : System ι σ κ δ ε α) (schedule : List ι) :
    sys.moment present schedule schedule.length = (sys.runSchedule present schedule).committed := by
  rw [moment, List.take_length]

variable (present) in
theorem moment_succ (sys : System ι σ κ δ ε α) {schedule : List ι} {t : Nat}
    (inside : t < schedule.length) :
    sys.runSchedule present (schedule.take (t + 1)) =
      ((sys.runSchedule present (schedule.take t)).step present schedule[t]).getD
        (sys.runSchedule present (schedule.take t)) := by
  rw [List.take_succ_eq_append_getElem inside, runSchedule_snoc]

/-- How far a client that locks nothing has come after `t` moves. -/
theorem along_schedule {call : ι → Program σ κ δ ε α} {initial : σ} {rely : σ → σ → Prop}
    (refl : ∀ data, rely data data) (lockFree : (call i).LockFree) (schedule : List ι)
    (others : ∀ t (inside : t < schedule.length), schedule[t] ≠ i →
      rely ((start call initial).moment present schedule t)
        ((start call initial).moment present schedule (t + 1))) (t : Nat)
    (within : t ≤ schedule.length) :
    (((start call initial).runSchedule present (schedule.take t)).client i).program.LockFree ∧
      (call i).Along rely ((start call initial).moment present schedule)
        (((start call initial).runSchedule present (schedule.take t)).client i).program
        (((start call initial).runSchedule present (schedule.take t)).client i).staged t := by
  induction t with
  | zero => exact ⟨lockFree, .start⟩
  | succ t inductionHypothesis =>
    have inside : t < schedule.length := within
    obtain ⟨free, along⟩ := inductionHypothesis (Nat.le_of_lt inside)
    have passed := moment_succ present (start call initial) inside
    have then' := congrArg System.committed passed
    change (start call initial).moment present schedule (t + 1) = _ at then'
    rw [passed]
    cases moved : ((start call initial).runSchedule present (schedule.take t)).step present
        schedule[t] with
    | none =>
      -- the client whose turn it is waits for a lock
      rw [moved] at then'
      exact ⟨free, along.wait (by rw [then']; exact refl _)⟩
    | some after =>
      rw [moved] at then'
      by_cases own : schedule[t] = i
      · rw [own] at moved
        have moves := step_self moved
        exact ⟨moves.lockFree free, moves.along rfl then' free along⟩
      · rw [Option.getD_some, step_other moved (Ne.symm own)]
        exact ⟨free, along.wait (others t inside own)⟩

/-- An answer of a client that locks nothing is made of what it found along the schedule. -/
theorem observed {call : ι → Program σ κ δ ε α} {initial : σ} {rely : σ → σ → Prop}
    (refl : ∀ data, rely data data)
    (trans : ∀ first second third, rely first second → rely second third → rely first third)
    (lockFree : (call i).LockFree) (schedule : List ι)
    (others : ∀ t (inside : t < schedule.length), schedule[t] ≠ i →
      rely ((start call initial).moment present schedule t)
        ((start call initial).moment present schedule (t + 1)))
    {answer : Except ε α}
    (answered : ((start call initial).runSchedule present schedule).Answered i answer) :
    (call i).AnswersAlong rely ((start call initial).moment present schedule) answer
      schedule.length id 0 := by
  obtain ⟨-, along⟩ := along_schedule refl lockFree schedule others schedule.length (Nat.le_refl _)
  rw [List.take_length] at along
  apply along.answers refl trans
  rw [answered]
  cases answer <;> exact ⟨rfl, Program.Waits.refl refl _⟩

/-! ### Progress -/

theorem within_schedule {count : Nat} (schedule : List ι)
    (lockFree : (sys.client i).program.LockFree) (within : (sys.client i).program.Within count) :
    ((sys.runSchedule present schedule).client i).program.Within
      (count - schedule.count i) := by
  induction schedule generalizing sys count with
  | nil => exact within
  | cons j schedule inductionHypothesis =>
    change ((((sys.step present j).getD sys).runSchedule present schedule).client i).program.Within _
    by_cases own : j = i
    · subst own
      obtain ⟨after, moved⟩ := step_lockFree_some present lockFree
      have moves := step_self moved
      rw [moved, List.count_cons_self, Nat.add_comm, Nat.sub_add_eq]
      exact inductionHypothesis (moves.lockFree lockFree) (moves.within within)
    · rw [List.count_cons_of_ne own]
      cases moved : sys.step present j with
      | none => exact inductionHypothesis lockFree within
      | some after =>
        have stays := step_other moved (Ne.symm own)
        exact inductionHypothesis (by rw [Option.getD_some, stays]; exact lockFree)
          (by rw [Option.getD_some, stays]; exact within)

/-- Enough moves of its own give a client that locks nothing its answer. -/
theorem answered_after {call : ι → Program σ κ δ ε α} {initial : σ} {count : Nat}
    (lockFree : (call i).LockFree) (within : (call i).Within count) {schedule : List ι}
    (enough : count ≤ schedule.count i) :
    ∃ answer, ((start call initial).runSchedule present schedule).Answered i answer := by
  have ended : (((start call initial).runSchedule present schedule).client i).program.Within
      (count - schedule.count i) := within_schedule schedule lockFree within
  rw [Nat.sub_eq_zero_of_le enough] at ended
  cases left : (((start call initial).runSchedule present schedule).client i).program with
  | pure result => exact ⟨.ok result, left⟩
  | raise exception => exact ⟨.error exception, left⟩
  | _ =>
    rw [left] at ended
    exact ended.elim

end System

end

end SeismicIngest.Transaction
