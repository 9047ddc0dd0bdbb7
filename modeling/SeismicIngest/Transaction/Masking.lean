import SeismicIngest.Transaction.Observers

/-! # Writers among observers

To the writers an observer is not there.  The system in which every observer has ended
(`System.mask`) makes the writers' moves, and a move of an observer changes no row of it, so
that all of `Linear` stays true (`Masked.runSchedule`).  Every move then changes the data at
a row by nothing, or by one call run alone (`Masked.step_committed`), and each committed
state is sound at every row (`Masked.sound`).
-/

namespace SeismicIngest.Transaction

section

variable {ι σ κ δ ε α ν : Type} [DecidableEq ι]

/-! ## One move among writers -/

section Moves

variable {view : κ → σ → ν} {present : κ → σ → Bool} {invariant : ν → Prop} {unwanted : δ}
variable {call : ι → Program σ κ δ ε α} {key : ι → κ} {initial : σ}
variable {sys next : System ι σ κ δ ε α} {i : ι}

omit [DecidableEq ι] in
/-- Only the rows matter. -/
theorem Linear.disturb (linear : Linear view call key initial unwanted sys) {data : σ}
    (same : ∀ k, view k data = view k sys.committed) :
    Linear view call key initial unwanted { sys with committed := data } where
  nodup := linear.nodup
  free := fun k free => (same k).trans (linear.free k free)
  held := fun k j owns =>
    ⟨(linear.held k j owns).1, (linear.held k j owns).2.congr (same (key j)).symm⟩
  idle := linear.idle

omit [DecidableEq ι] in
theorem Linear.sound (linear : Linear view call key initial unwanted sys)
    (workload : Workload view present invariant unwanted call key initial) (k : κ) :
    invariant (view k sys.committed) := by
  obtain ⟨earlier, -, -, same⟩ := linear.snapshot k
  rw [same]
  exact workload.serial_invariant earlier k

variable [DecidableEq κ]

/-- Without a lock nothing is committed. -/
theorem Linear.step_idle (linear : Linear view call key initial unwanted sys)
    (workload : Workload view present invariant unwanted call key initial)
    (idle : sys.owner (key i) ≠ some i) (moved : sys.step present i = some next) :
    next.committed = sys.committed := by
  have quietly : (sys.client i).program.Quiet → (sys.client i).staged = id →
      next.committed = sys.committed := by
    intro quiet clean
    obtain ⟨rest, -, rfl⟩ := System.step_quiet quiet clean (linear.unlocked idle) moved
    rfl
  obtain ⟨-, clean, untouched | ⟨quiet, reads⟩⟩ | ⟨-, clean, before, after, -, leads⟩ :=
    linear.idle i idle
  · obtain writer | quiet := workload.calls i
    · -- the first statement locks the row, and writes nothing
      obtain ⟨rest, starts, -⟩ := writer.locksFirst
      have left := untouched.trans starts
      cases owned : sys.owner (key i) with
      | some holder =>
        have other : holder ≠ i := by
          rintro rfl
          exact idle owned
        simp [System.step, left, owned, other] at moved
      | none =>
        simp only [System.step, left, owned, Option.some.injEq] at moved
        rw [← moved]
        rfl
    · exact quietly (by rw [untouched]; exact quiet) clean
  · exact quietly (reads.quiet quiet) clean
  · exact quietly leads.quiet clean

/-- Each move changes nothing, or commits the call of its client as if run alone. -/
theorem Linear.step_committed (linear : Linear view call key initial unwanted sys)
    (workload : Workload view present invariant unwanted call key initial)
    (moved : sys.step present i = some next) (k : κ) :
    view k next.committed = view k sys.committed ∨
      key i = k ∧ view k next.committed = view k ((call i).run sys.committed).2 := by
  by_cases owns : sys.owner (key i) = some i
  · obtain ⟨-, midway, -⟩ := linear.held _ _ owns
    cases left : (sys.client i).program with
    | commit rest =>
      have ending := midway.ending
      have working := midway.working
      simp only [System.step, left, Option.some.injEq] at moved
      rw [left] at ending working
      rw [← moved]
      by_cases own : key i = k
      · subst own
        have quiet := workload.quietAfter i (linear.sound workload _) rest (.inl ending.symm)
        rw [Program.run_of_committed ending.symm, quiet.run_data]
        exact .inr ⟨rfl, working⟩
      · exact .inl (midway.staged_frame k (Ne.symm own) _)
    | lock row rest =>
      have isLocal := midway.isLocal
      rw [left] at isLocal
      obtain ⟨rfl, -⟩ := isLocal
      simp only [System.step, left, owns, if_true, Option.some.injEq] at moved
      rw [← moved]
      exact .inl rfl
    | _ =>
      -- any other statement commits nothing
      simp only [System.step, left, Option.some.injEq] at moved
      rw [← moved]
      exact .inl rfl
  · rw [linear.step_idle workload owns moved]
    exact .inl rfl

end Moves

/-! ## The system without its observers -/

variable (apart : ι → Bool) (exception : ε)

/-- The calls of the writers; an observer is a client that has failed at once. -/
def maskCall (call : ι → Program σ κ δ ε α) (i : ι) : Program σ κ δ ε α :=
  if apart i then .raise exception else call i

def System.mask (sys : System ι σ κ δ ε α) : System ι σ κ δ ε α :=
  { sys with client := fun i => if apart i then ⟨.raise exception, id⟩ else sys.client i }

namespace System

variable {apart exception} {sys after : System ι σ κ δ ε α} {i : ι}

omit [DecidableEq ι] in
theorem mask_start (call : ι → Program σ κ δ ε α) (initial : σ) :
    (start call initial).mask apart exception = start (maskCall apart exception call) initial := by
  rw [mask, start, start]
  congr 1
  funext i
  rw [maskCall]
  split <;> rfl

omit [DecidableEq ι] in
theorem mask_client (writes : apart i = false) :
    (sys.mask apart exception).client i = sys.client i := by
  simp only [mask, writes, Bool.false_eq_true, if_false]

/-- What a writer goes on with, it goes on with among masked observers. -/
theorem mask_update (writes : apart i = false) (client : Client σ κ δ ε α) :
    ({ sys with client := Function.update sys.client i client }).mask apart exception =
      { sys.mask apart exception with
        client := Function.update (sys.mask apart exception).client i client } := by
  simp only [mask]
  congr 1
  funext j
  by_cases own : j = i
  · subst own
    simp only [writes, Bool.false_eq_true, if_false, Function.update_self]
  · simp only [Function.update_of_ne own]

/-- What an observer goes on with is masked. -/
theorem mask_update_apart (observes : apart i = true) (client : Client σ κ δ ε α) :
    ({ sys with client := Function.update sys.client i client }).mask apart exception =
      sys.mask apart exception := by
  simp only [mask]
  congr 1
  funext j
  by_cases own : j = i
  · subst own
    simp only [observes, if_true]
  · simp only [Function.update_of_ne own]

variable [DecidableEq κ] {present : κ → σ → Bool}

/-- A writer moves as if there were no observers. -/
theorem step_mask (writes : apart i = false) (moved : sys.step present i = some after) :
    (sys.mask apart exception).step present i = some (after.mask apart exception) := by
  have client : (sys.mask apart exception).client i = sys.client i := mask_client writes
  have working : (sys.mask apart exception).working i = sys.working i := by
    rw [System.working, System.working, client]
    rfl
  have finishes : ∀ program, (sys.finish i program).mask apart exception =
      (sys.mask apart exception).finish i program := fun program =>
    congrArg (fun masked : System ι σ κ δ ε α =>
      { masked with owner := fun k => if sys.owner k = some i then none else sys.owner k })
      (mask_update writes ⟨program, id⟩)
  have proceeds : ∀ program, (sys.proceed i program).mask apart exception =
      (sys.mask apart exception).proceed i program := by
    intro program
    rw [proceed, proceed, mask_update writes, client]
  cases left : (sys.client i).program with
  | pure _ | raise _ | rollback _ =>
    simp only [step, left, Option.some.injEq] at moved
    simp only [step, client, left, ← moved, finishes]
  | commit rest =>
    simp only [step, left, Option.some.injEq] at moved
    simp only [step, client, left, ← moved, working]
    exact congrArg (fun masked : System ι σ κ δ ε α =>
      some { masked with committed := sys.working i }) (finishes rest).symm
  | query next =>
    simp only [step, left, Option.some.injEq] at moved
    simp only [step, client, left, ← moved, working, proceeds]
  | flush batch next =>
    simp only [step, left, Option.some.injEq] at moved
    simp only [step, client, left, ← moved, working, mask_update writes]
  | lock row next =>
    have owner : (sys.mask apart exception).owner row = sys.owner row := rfl
    cases owned : sys.owner row with
    | some holder =>
      by_cases own : holder = i
      · simp only [step, left, owned, own, if_true, Option.some.injEq] at moved
        simp only [step, client, left, owner, owned, own, if_true, ← moved, working, proceeds]
      · simp [step, left, owned, own] at moved
    | none =>
      simp only [step, left, owned, Option.some.injEq] at moved
      simp only [step, client, left, owner, owned, ← moved, working]
      exact congrArg (fun masked : System ι σ κ δ ε α =>
        some { masked with
          owner := if present row (sys.working i) then Function.update sys.owner row (some i)
            else sys.owner
          lockOrder := sys.lockOrder ++ [i] }) (proceeds (next (sys.working i))).symm

omit [DecidableEq κ] in
/-- A change to the client of an observer, and to the data, is a change to the data. -/
theorem mask_disturb (observes : apart i = true) (committed : σ) (client : Client σ κ δ ε α) :
    ({ sys with committed, client := Function.update sys.client i client }).mask apart exception =
      { sys.mask apart exception with committed } :=
  congrArg (fun masked : System ι σ κ δ ε α => { masked with committed })
    (mask_update_apart observes client)

/-- A client that locks nothing changes only the data and itself. -/
theorem step_lockFree (lockFree : (sys.client i).program.LockFree)
    (unlocked : ∀ k, sys.owner k ≠ some i) (moved : sys.step present i = some after) :
    ∃ committed client, client.program.LockFree ∧
      after = { sys with committed, client := Function.update sys.client i client } := by
  have finishes : ∀ program, sys.finish i program =
      { sys with client := Function.update sys.client i ⟨program, id⟩ } := by
    intro program
    -- there is no lock to release
    simp only [finish, unlocked, if_false]
  cases left : (sys.client i).program with
  | pure result =>
    simp only [step, left, finishes, Option.some.injEq] at moved
    exact ⟨_, ⟨.pure result, id⟩, trivial, moved.symm⟩
  | raise exception =>
    simp only [step, left, finishes, Option.some.injEq] at moved
    exact ⟨_, ⟨.raise exception, id⟩, trivial, moved.symm⟩
  | lock _ _ =>
    rw [left] at lockFree
    exact lockFree.elim
  | query next =>
    rw [left] at lockFree
    simp only [step, left, proceed, Option.some.injEq] at moved
    exact ⟨_, ⟨next (sys.working i), _⟩, lockFree _, moved.symm⟩
  | flush batch next =>
    rw [left] at lockFree
    simp only [step, left, Option.some.injEq] at moved
    exact ⟨_, ⟨next (batch.rejects (sys.working i)), _⟩, lockFree _, moved.symm⟩
  | commit rest | rollback rest =>
    rw [left] at lockFree
    simp only [step, left, finishes, Option.some.injEq] at moved
    exact ⟨_, ⟨rest, id⟩, lockFree, moved.symm⟩

end System

/-! ## Every schedule -/

section Masked

variable {apart exception}
variable (view : κ → σ → ν) (call : ι → Program σ κ δ ε α) (key : ι → κ) (initial : σ) (unwanted : δ)

/-- A client of which no writer learns: it locks nothing and changes no row. -/
structure Observer (program : Program σ κ δ ε α) : Prop where
  lockFree : program.LockFree
  keeps : ∀ k, program.Keeps (view k)

variable (apart exception) in
structure Masked (sys : System ι σ κ δ ε α) : Prop where
  writers : Linear view (maskCall apart exception call) key initial unwanted
    (sys.mask apart exception)
  lockFree : ∀ i, apart i = true → (sys.client i).program.LockFree
  keeps : ∀ i, apart i = true → ∀ k, (sys.client i).Keeps (view k)
  unlocked : ∀ i, apart i = true → ∀ k, sys.owner k ≠ some i

variable {view call key initial unwanted} [DecidableEq κ] {present : κ → σ → Bool}
variable {invariant : ν → Prop} {sys after : System ι σ κ δ ε α} {i : ι}

/-- The observers stay observers. -/
theorem Masked.observers (masked : Masked apart exception view call key initial unwanted sys)
    (moved : sys.step present i = some after)
    (unlocked : apart i = true → ∀ k, after.owner k ≠ some i)
    (lockFree : apart i = true → (after.client i).program.LockFree)
    (writers : Linear view (maskCall apart exception call) key initial unwanted
      (after.mask apart exception)) :
    Masked apart exception view call key initial unwanted after where
  writers := writers
  lockFree := by
    intro j observes
    by_cases own : j = i
    · subst own
      exact lockFree observes
    · rw [System.step_other moved own]
      exact masked.lockFree j observes
  keeps := by
    intro j observes k
    by_cases own : j = i
    · subst own
      exact ((System.step_self moved).keeps (masked.keeps j observes k)).1
    · rw [System.step_other moved own]
      exact masked.keeps j observes k
  unlocked := by
    intro j observes k owns
    by_cases own : j = i
    · subst own
      exact unlocked observes k owns
    · exact masked.unlocked j observes k (System.step_owner moved own owns)

theorem Masked.step (masked : Masked apart exception view call key initial unwanted sys)
    (workload : Workload view present invariant unwanted (maskCall apart exception call) key initial)
    (moved : sys.step present i = some after) :
    Masked apart exception view call key initial unwanted after := by
  cases observes : apart i with
  | false =>
    refine masked.observers moved (by simp [observes]) (by simp [observes]) ?_
    exact masked.writers.step workload (System.step_mask observes moved)
  | true =>
    obtain ⟨committed, client, free, rfl⟩ :=
      System.step_lockFree (masked.lockFree i observes) (masked.unlocked i observes) moved
    refine masked.observers moved (fun _ => masked.unlocked i observes) ?_ ?_
    · intro _
      simpa only [Function.update_self] using free
    · rw [System.mask_disturb observes]
      exact masked.writers.disturb fun k =>
        ((System.step_self moved).keeps (masked.keeps i observes k)).2

theorem Masked.runSchedule
    (workload : Workload view present invariant unwanted (maskCall apart exception call) key initial)
    (observing : ∀ i, apart i = true → Observer view (call i)) (schedule : List ι) :
    Masked apart exception view call key initial unwanted
      ((System.start call initial).runSchedule present schedule) := by
  refine System.runSchedule_induction (fun _ _ _ masked moved => masked.step workload moved) ?_
    schedule
  exact {
    writers := by
      rw [System.mask_start]
      exact .start
    lockFree := fun i observes => (observing i observes).lockFree
    keeps := fun i observes k => ⟨(observing i observes).keeps k, fun _ => rfl⟩
    unlocked := fun _ _ _ owns => by cases owns }

omit [DecidableEq ι] [DecidableEq κ] in
/-- Every committed state is sound at every row. -/
theorem Masked.sound (masked : Masked apart exception view call key initial unwanted sys)
    (workload : Workload view present invariant unwanted (maskCall apart exception call) key initial)
    (k : κ) : invariant (view k sys.committed) :=
  masked.writers.sound workload k

/-- A move changes a row by nothing, or by the call of a writer run alone. -/
theorem Masked.step_committed (masked : Masked apart exception view call key initial unwanted sys)
    (workload : Workload view present invariant unwanted (maskCall apart exception call) key initial)
    (moved : sys.step present i = some after) (k : κ) :
    view k after.committed = view k sys.committed ∨
      apart i = false ∧ key i = k ∧
        view k after.committed = view k ((call i).run sys.committed).2 := by
  cases observes : apart i with
  | true => exact .inl ((System.step_self moved).keeps (masked.keeps i observes k)).2
  | false =>
    obtain unchanged | ⟨own, ran⟩ :=
      masked.writers.step_committed workload (System.step_mask observes moved) k
    · exact .inl unchanged
    · rw [maskCall, observes] at ran
      exact .inr ⟨rfl, own, ran⟩

end Masked

end

end SeismicIngest.Transaction
