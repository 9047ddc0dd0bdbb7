import SeismicIngest.Transaction.Interleaving
import Mathlib.Data.List.Induction

/-! # Writers that lock first are serialisable

A writer locks one row before anything else, is local to it, and once its first
transaction has ended it only reads.  Under every schedule, the writers behave as
if each ran alone, one after another in the order in which they obtained their
locks:

* at every row that no client holds, the committed data is that of the serial
  execution (`Linear.free`);
* a client that has ended its transaction answers what it would answer in the
  serial execution, up to what it still reads afterwards, and each such read finds
  its row as some later stage of the same serial execution left it (`Answering`).

The invariant is `Linear`.  Its core is `Holding`: a client in the middle of its
transaction will end it as if it had started on the data committed now, because
nobody else can have changed its row since it took the lock.
-/

namespace SeismicIngest.Transaction

section

variable {ι σ κ δ ε α β ν : Type}

/-- Every program of the order run alone, one after another. -/
def serial (call : ι → Program σ κ δ ε α) (order : List ι) (data : σ) : σ :=
  order.foldl (fun data i => ((call i).run data).2) data

theorem serial_append (call : ι → Program σ κ δ ε α) (first second : List ι) (data : σ) :
    serial call (first ++ second) data = serial call second (serial call first data) := by
  rw [serial, List.foldl_append]; rfl

theorem serial_snoc (call : ι → Program σ κ δ ε α) (order : List ι) (i : ι) (data : σ) :
    serial call (order ++ [i]) data = ((call i).run (serial call order data)).2 := by
  rw [serial_append]; rfl

/-! ## After the end of a transaction -/

/-- `program` is what is left to do after a transaction has ended. -/
def Ending.LeadsTo (seen : σ → Prop) : Ending σ κ δ ε α → Program σ κ δ ε α → Prop
  | .returned result, program => program = .pure result
  | .raised exception, program => program = .raise exception
  | .committed rest, program | .rolledBack rest, program => rest.Quiet ∧ rest.Reads seen program

namespace Ending.LeadsTo

variable {seen later : σ → Prop} {ending : Ending σ κ δ ε α} {program next : Program σ κ δ ε α}

theorem mono (leads : ending.LeadsTo seen program) (weaker : ∀ data, seen data → later data) :
    ending.LeadsTo later program := by
  cases ending with
  | returned _ | raised _ => exact leads
  | committed _ | rolledBack _ => exact ⟨leads.1, leads.2.mono weaker⟩

theorem step {data : σ} (leads : ending.LeadsTo seen program) (found : seen data)
    (moved : program.ReadStep data next) : ending.LeadsTo seen next := by
  cases ending with
  | returned _ | raised _ =>
    cases leads
    cases moved
    rfl
  | committed _ | rolledBack _ => exact ⟨leads.1, leads.2.step found moved⟩

theorem quiet (leads : ending.LeadsTo seen program) : program.Quiet := by
  cases ending with
  | returned _ | raised _ => cases leads; trivial
  | committed _ | rolledBack _ => exact leads.2.quiet leads.1

end Ending.LeadsTo

/-! ## Writers -/

variable (view : κ → σ → ν) (present : κ → σ → Bool) (invariant : ν → Prop) (unwanted : δ)

structure Writer (key : κ) (program : Program σ κ δ ε α) : Prop where
  isLocal : program.LocalTo view key
  locksFirst : ∃ next, program = .lock key next ∧
    ∀ data, present key data = false → ∃ exception, next data = .raise exception
  quietAfter : ∀ data, invariant (view key data) → ∀ rest,
    (program.settle (.opened data)).1 = .committed rest ∨
      (program.settle (.opened data)).1 = .rolledBack rest → rest.Quiet
  avoids : ∀ data, invariant (view key data) → program.Avoids unwanted (.opened data)
  preserves : ∀ data, invariant (view key data) → invariant (view key (program.run data).2)

variable {view present invariant unwanted} in
/-- Renaming the result of a writer. -/
theorem Writer.map {key : κ} {program : Program σ κ δ ε α}
    (writer : Writer view present invariant unwanted key program) (rename : α → β) :
    Writer view present invariant unwanted key (rename <$> program) where
  isLocal := writer.isLocal.bind fun _ => trivial
  locksFirst := by
    obtain ⟨next, starts, absent⟩ := writer.locksFirst
    refine ⟨fun data => rename <$> next data, by rw [starts]; rfl, ?_⟩
    intro data missing
    obtain ⟨exception, raises⟩ := absent data missing
    exact ⟨exception, congrArg (rename <$> ·) raises⟩
  quietAfter := by
    intro data holds rest ending
    change ((program >>= fun result => Pure.pure (rename result)).settle (.opened data)).1 = _ ∨
      ((program >>= fun result => Pure.pure (rename result)).settle (.opened data)).1 = _ at ending
    rw [Program.settle_bind] at ending
    have quiet := writer.quietAfter data holds
    cases settled : program.settle (.opened data) with
    | mk first after =>
      rw [settled] at ending quiet
      cases first with
      | returned _ | raised _ => obtain ending | ending := ending <;> cases ending
      | committed left =>
        obtain ending | ending := ending <;> cases ending
        exact (quiet left (.inl rfl)).bind fun _ => trivial
      | rolledBack left =>
        obtain ending | ending := ending <;> cases ending
        exact (quiet left (.inr rfl)).bind fun _ => trivial
  avoids := fun data holds => (writer.avoids data holds).bind fun _ _ => trivial
  preserves := by
    intro data holds
    rw [Program.run_map]
    exact writer.preserves data holds

/-- Clients that write to the row `key i`, or only read. -/
structure Workload (call : ι → Program σ κ δ ε α) (key : ι → κ) (initial : σ) : Prop where
  present_congr : ∀ {k left right}, view k left = view k right → present k left = present k right
  calls : ∀ i, Writer view present invariant unwanted (key i) (call i) ∨ (call i).Quiet
  initially : ∀ k, invariant (view k initial)

variable {view present invariant unwanted}
variable {call : ι → Program σ κ δ ε α} {key : ι → κ} {initial : σ}

namespace Workload

variable (workload : Workload view present invariant unwanted call key initial)

include workload

/-- A call changes no row but its own. -/
theorem call_frame {i : ι} {k : κ} (different : key i ≠ k) (data : σ) :
    view k ((call i).run data).2 = view k data := by
  obtain writer | quiet := workload.calls i
  · exact writer.isLocal.run_frame (Ne.symm different) data
  · rw [quiet.run_data]

theorem serial_frame {order : List ι} {k : κ} (different : ∀ i ∈ order, key i ≠ k) (data : σ) :
    view k (serial call order data) = view k data := by
  induction order generalizing data with
  | nil => rfl
  | cons i order inductionHypothesis =>
    have tail := inductionHypothesis (fun j member => different j (List.mem_cons_of_mem _ member))
      ((call i).run data).2
    exact tail.trans (workload.call_frame (different i List.mem_cons_self) data)

theorem call_invariant {data : σ} {k : κ} (i : ι) (holds : invariant (view k data)) :
    invariant (view k ((call i).run data).2) := by
  obtain writer | quiet := workload.calls i
  · by_cases own : key i = k
    · subst own
      exact writer.preserves data holds
    · rw [workload.call_frame own]
      exact holds
  · rw [quiet.run_data]
    exact holds

theorem call_congr (i : ι) {k : κ} {left right : σ} (same : view k left = view k right) :
    view k ((call i).run left).2 = view k ((call i).run right).2 := by
  by_cases own : key i = k
  · subst own
    obtain writer | quiet := workload.calls i
    · exact (writer.isLocal.run_congr same).2
    · rw [quiet.run_data, quiet.run_data]
      exact same
  · rw [workload.call_frame own, workload.call_frame own]
    exact same

/-- Calls of other rows can be dropped from a serial execution. -/
theorem serial_filter {keep : ι → Bool} {order : List ι} {k : κ}
    (dropped : ∀ i ∈ order, keep i = false → key i ≠ k) {left right : σ}
    (same : view k left = view k right) :
    view k (serial call (order.filter keep) left) = view k (serial call order right) := by
  induction order generalizing left right with
  | nil => exact same
  | cons i order inductionHypothesis =>
    have rest := fun j member => dropped j (List.mem_cons_of_mem i member)
    cases kept : keep i with
    | true =>
      rw [List.filter_cons_of_pos kept]
      exact inductionHypothesis rest (workload.call_congr i same)
    | false =>
      have other := dropped i List.mem_cons_self kept
      rw [List.filter_cons_of_neg (by simp [kept])]
      exact inductionHypothesis rest (same.trans (workload.call_frame other right).symm)

/-- Whatever a call still does after its first transaction, it only reads. -/
theorem quietAfter (i : ι) {data : σ} (holds : invariant (view (key i) data))
    (rest : Program σ κ δ ε α)
    (ending : ((call i).settle (.opened data)).1 = .committed rest ∨
      ((call i).settle (.opened data)).1 = .rolledBack rest) : rest.Quiet := by
  obtain writer | quiet := workload.calls i
  · exact writer.quietAfter data holds rest ending
  · exact quiet.settle_rest ending

theorem serial_invariant (order : List ι) (k : κ) :
    invariant (view k (serial call order initial)) := by
  -- from the right: the last call runs on a stage that keeps the invariant
  induction order using List.reverseRecOn with
  | nil => exact workload.initially k
  | append_singleton order i inductionHypothesis =>
    rw [serial_snoc]
    exact workload.call_invariant i inductionHypothesis

end Workload

/-! ## The invariant -/

variable (view call key initial)

/-- The data looks, row by row, like stages of the serial execution. -/
def Snapshot (order : List ι) (data : σ) : Prop :=
  ∀ k, ∃ earlier later, order = earlier ++ later ∧ view k data = view k (serial call earlier initial)

/-- The data shows row `key i` as a stage of the serial execution left it, at or
    after call `i`. -/
def SeenAfter (before : List ι) (i : ι) (after : List ι) (data : σ) : Prop :=
  ∃ middle later, after = middle ++ later ∧
    view (key i) data = view (key i) (serial call (before ++ i :: middle) initial)

/-- Client `i` is inside its transaction, and will end it as if it had started on
    the data committed now. -/
structure Midway (unwanted : δ) (committed : σ) (client : Client σ κ δ ε α) (i : ι) : Prop where
  callLocal : (call i).LocalTo view (key i)
  isLocal : client.program.LocalTo view (key i)
  staged_congr : ∀ left right, view (key i) left = view (key i) right →
    view (key i) (client.staged left) = view (key i) (client.staged right)
  staged_frame : ∀ other, other ≠ key i → ∀ data, view other (client.staged data) = view other data
  avoids : client.program.Avoids unwanted ⟨committed, client.staged committed⟩
  ending : (client.program.settle ⟨committed, client.staged committed⟩).1 =
    ((call i).settle (.opened committed)).1
  working : view (key i) (client.program.settle ⟨committed, client.staged committed⟩).2.working =
    view (key i) ((call i).settle (.opened committed)).2.working

/-- Client `i` holds its lock; the clients that locked the same row before it have
    all ended. -/
def Holding (unwanted : δ) (committed : σ) (order : List ι) (client : Client σ κ δ ε α) (i : ι) :
    Prop :=
  Midway view call key unwanted committed client i ∧
    ∃ before after, order = before ++ i :: after ∧ (∀ j ∈ after, key j ≠ key i) ∧
      view (key i) committed = view (key i) (serial call before initial)

/-- Client `i` has ended its transaction. -/
def Answering (order : List ι) (client : Client σ κ δ ε α) (i : ι) : Prop :=
  client.staged = id ∧ ∃ before after, order = before ++ i :: after ∧
    ((call i).settle (.opened (serial call before initial))).1.LeadsTo
      (SeenAfter view call key initial before i after) client.program

/-- Client `i` has locked nothing: a writer that has not moved, or a reader. -/
def Lockless (order : List ι) (client : Client σ κ δ ε α) (i : ι) : Prop :=
  client.staged = id ∧
    (client.program = call i ∨
      (call i).Quiet ∧ (call i).Reads (Snapshot view call initial order) client.program)

structure Linear (unwanted : δ) (sys : System ι σ κ δ ε α) : Prop where
  nodup : sys.lockOrder.Nodup
  free : ∀ k, sys.owner k = none →
    view k sys.committed = view k (serial call sys.lockOrder initial)
  held : ∀ k i, sys.owner k = some i →
    key i = k ∧ Holding view call key initial unwanted sys.committed sys.lockOrder (sys.client i) i
  idle : ∀ i, sys.owner (key i) ≠ some i →
    (i ∉ sys.lockOrder ∧ Lockless view call initial sys.lockOrder (sys.client i) i) ∨
      (i ∈ sys.lockOrder ∧ Answering view call key initial sys.lockOrder (sys.client i) i)

/-! ## Moves that keep the invariant -/

variable {view call key initial}

theorem Snapshot.snoc {order : List ι} {data : σ} (snapshot : Snapshot view call initial order data)
    (i : ι) : Snapshot view call initial (order ++ [i]) data := by
  intro k
  obtain ⟨earlier, later, rfl, same⟩ := snapshot k
  exact ⟨earlier, later ++ [i], List.append_assoc _ _ _, same⟩

theorem SeenAfter.snoc {before after : List ι} {i : ι} {data : σ}
    (seen : SeenAfter view call key initial before i after data) (j : ι) :
    SeenAfter view call key initial before i (after ++ [j]) data := by
  obtain ⟨middle, later, rfl, same⟩ := seen
  exact ⟨middle, later ++ [j], List.append_assoc _ _ _, same⟩

theorem Lockless.snoc {order : List ι} {client : Client σ κ δ ε α} {i : ι}
    (lockless : Lockless view call initial order client i) (j : ι) :
    Lockless view call initial (order ++ [j]) client i := by
  obtain ⟨clean, untouched | ⟨quiet, reads⟩⟩ := lockless
  · exact ⟨clean, .inl untouched⟩
  · exact ⟨clean, .inr ⟨quiet, reads.mono fun _ snapshot => snapshot.snoc j⟩⟩

theorem Answering.snoc {order : List ι} {client : Client σ κ δ ε α} {i : ι}
    (answering : Answering view call key initial order client i) (j : ι) :
    Answering view call key initial (order ++ [j]) client i := by
  obtain ⟨clean, before, after, rfl, leads⟩ := answering
  exact ⟨clean, before, after ++ [j], by simp, leads.mono fun _ seen => seen.snoc j⟩

theorem Holding.snoc {committed : σ} {order : List ι} {client : Client σ κ δ ε α} {i j : ι}
    (holding : Holding view call key initial unwanted committed order client i)
    (different : key j ≠ key i) :
    Holding view call key initial unwanted committed (order ++ [j]) client i := by
  obtain ⟨midway, before, after, rfl, others, same⟩ := holding
  refine ⟨midway, before, after ++ [j], by simp, ?_, same⟩
  intro other member
  obtain earlier | last := List.mem_append.mp member
  · exact others other earlier
  · rw [List.mem_singleton.mp last]
    exact different

theorem Holding.mem {committed : σ} {order : List ι} {client : Client σ κ δ ε α} {i : ι}
    (holding : Holding view call key initial unwanted committed order client i) : i ∈ order := by
  obtain ⟨-, before, after, rfl, -⟩ := holding
  simp

/-- Inside a transaction only the data at its own row matters. -/
theorem Midway.congr {committed other : σ} {client : Client σ κ δ ε α} {i : ι}
    (midway : Midway view call key unwanted committed client i)
    (same : view (key i) committed = view (key i) other) :
    Midway view call key unwanted other client i := by
  have staged := midway.staged_congr _ _ same
  have program := midway.isLocal.settle_congr
    ⟨committed, client.staged committed⟩ ⟨other, client.staged other⟩ staged
  have alone := midway.callLocal.settle_congr (.opened committed) (.opened other) same
  exact {
    callLocal := midway.callLocal
    isLocal := midway.isLocal
    staged_congr := midway.staged_congr
    staged_frame := midway.staged_frame
    avoids := midway.isLocal.avoids_congr staged midway.avoids
    ending := by rw [← program.1, midway.ending, alone.1]
    working := by rw [← program.2, midway.working, alone.2] }

theorem Holding.congr {committed other : σ} {order : List ι} {client : Client σ κ δ ε α} {i : ι}
    (holding : Holding view call key initial unwanted committed order client i)
    (same : view (key i) committed = view (key i) other) :
    Holding view call key initial unwanted other order client i := by
  obtain ⟨midway, before, after, split, others, started⟩ := holding
  exact ⟨midway.congr same, before, after, split, others, same.symm.trans started⟩

variable {sys after : System ι σ κ δ ε α} {i : ι}

theorem Linear.unlocked (linear : Linear view call key initial unwanted sys)
    (idle : sys.owner (key i) ≠ some i) (k : κ) : sys.owner k ≠ some i := by
  intro owns
  obtain ⟨rfl, -⟩ := linear.held k i owns
  exact idle owns

/-- Row by row, the committed data is a stage of the serial execution. -/
theorem Linear.snapshot (linear : Linear view call key initial unwanted sys) :
    Snapshot view call initial sys.lockOrder sys.committed := by
  intro k
  cases owned : sys.owner k with
  | none => exact ⟨sys.lockOrder, [], (List.append_nil _).symm, linear.free k owned⟩
  | some j =>
    obtain ⟨rfl, -, before, after, split, -, started⟩ := linear.held k j owned
    exact ⟨before, j :: after, split, started⟩

/-- A client that has ended its transaction finds its row at a stage that includes
    its own call: whoever holds the row now locked it later. -/
theorem Linear.seenAfter (linear : Linear view call key initial unwanted sys)
    (idle : sys.owner (key i) ≠ some i) {before after : List ι}
    (split : sys.lockOrder = before ++ i :: after) :
    SeenAfter view call key initial before i after sys.committed := by
  cases owned : sys.owner (key i) with
  | none =>
    refine ⟨after, [], (List.append_nil _).symm, ?_⟩
    rw [linear.free (key i) owned, split]
  | some j =>
    obtain ⟨sameKey, -, earlier, later, otherSplit, others, started⟩ := linear.held (key i) j owned
    have different : i ≠ j := by
      rintro rfl
      exact idle owned
    rw [sameKey] at others started
    have cut := split.symm.trans otherSplit
    obtain ⟨gap, rfl, rest⟩ | ⟨gap, rfl, rest⟩ := List.append_eq_append_iff.mp cut
    · -- `i` is among the clients before `j`
      cases gap with
      | nil =>
        cases rest
        exact absurd rfl different
      | cons head middle =>
        simp only [List.cons_append, List.cons.injEq] at rest
        obtain ⟨rfl, rfl⟩ := rest
        exact ⟨middle, j :: later, rfl, started⟩
    · -- `i` after `j` would be another client of the same row
      cases gap with
      | nil =>
        simp only [List.nil_append, List.cons.injEq] at rest
        exact absurd rest.1.symm different
      | cons head middle =>
        simp only [List.cons_append, List.cons.injEq] at rest
        exact absurd rfl (others i (by rw [rest.2]; simp))

/-! ### One more client in the order -/

/-- While the row of `i` is free, every holder is another client on another row. -/
theorem Linear.held_other (linear : Linear view call key initial unwanted sys)
    (unowned : sys.owner (key i) = none) {k : κ} {j : ι} (owns : sys.owner k = some j) :
    key j = k ∧ key i ≠ key j ∧ j ≠ i := by
  obtain ⟨rfl, -⟩ := linear.held k j owns
  have different : key i ≠ key j := by
    intro same
    rw [same, owns] at unowned
    cases unowned
  exact ⟨rfl, different, fun same => different (by rw [same])⟩

theorem Linear.free_snoc (linear : Linear view call key initial unwanted sys)
    (workload : Workload view present invariant unwanted call key initial) {k : κ}
    (different : key i ≠ k) (free : sys.owner k = none) :
    view k sys.committed = view k (serial call (sys.lockOrder ++ [i]) initial) := by
  rw [serial_snoc, workload.call_frame different]
  exact linear.free k free

theorem Linear.idle_snoc (linear : Linear view call key initial unwanted sys) {j : ι}
    (other : j ≠ i) (idle : sys.owner (key j) ≠ some j) :
    (j ∉ sys.lockOrder ++ [i] ∧
        Lockless view call initial (sys.lockOrder ++ [i]) (sys.client j) j) ∨
      (j ∈ sys.lockOrder ++ [i] ∧
        Answering view call key initial (sys.lockOrder ++ [i]) (sys.client j) j) := by
  obtain ⟨waiting, lockless⟩ | ⟨ended, answering⟩ := linear.idle j idle
  · exact .inl ⟨by simp [waiting, other], lockless.snoc i⟩
  · exact .inr ⟨List.mem_append_left _ ended, answering.snoc i⟩

/-! ### Moves -/

section Moves

variable [DecidableEq ι]

/-- A move of client `i` that leaves data and locks alone. -/
theorem Linear.replace (linear : Linear view call key initial unwanted sys)
    {client : Client σ κ δ ε α}
    (held : sys.owner (key i) = some i →
      Holding view call key initial unwanted sys.committed sys.lockOrder client i)
    (idle : sys.owner (key i) ≠ some i →
      (i ∉ sys.lockOrder ∧ Lockless view call initial sys.lockOrder client i) ∨
        (i ∈ sys.lockOrder ∧ Answering view call key initial sys.lockOrder client i)) :
    Linear view call key initial unwanted
      { sys with client := Function.update sys.client i client } where
  nodup := linear.nodup
  free := linear.free
  held := by
    intro k j owns
    obtain ⟨rfl, holding⟩ := linear.held k j owns
    refine ⟨rfl, ?_⟩
    by_cases own : j = i
    · subst own
      simpa using held owns
    · simpa [Function.update_of_ne own] using holding
  idle := by
    intro j free
    by_cases own : j = i
    · subst own
      simpa using idle free
    · simpa [Function.update_of_ne own] using linear.idle j free

/-- The end of the transaction of client `i`: the lock is released, the data at its
    row is that of the serial execution, and all other rows are as they were. -/
theorem Linear.finish [DecidableEq κ] (linear : Linear view call key initial unwanted sys)
    (workload : Workload view present invariant unwanted call key initial)
    (owns : sys.owner (key i) = some i) {data : σ} {rest : Program σ κ δ ε α}
    (frame : ∀ k, k ≠ key i → view k data = view k sys.committed)
    {before after : List ι} (split : sys.lockOrder = before ++ i :: after)
    (others : ∀ j ∈ after, key j ≠ key i)
    (own : view (key i) data = view (key i) ((call i).run (serial call before initial)).2)
    (leads : ((call i).settle (.opened (serial call before initial))).1.LeadsTo
      (SeenAfter view call key initial before i after) rest) :
    Linear view call key initial unwanted { sys.finish i rest with committed := data } where
  nodup := linear.nodup
  free := by
    intro k free
    by_cases ownKey : k = key i
    · subst ownKey
      rw [own]
      change _ = view (key i) (serial call sys.lockOrder initial)
      -- nobody who locked after `i` has this row
      rw [split, serial_append]
      exact (workload.serial_frame others _).symm
    · -- a row that is free now was free before, or held by `i`, whose row it is not
      rw [frame k ownKey]
      apply linear.free
      by_cases released : sys.owner k = some i
      · exact absurd (linear.held k i released).1.symm ownKey
      · simpa [System.finish, released] using free
  held := by
    intro k j owned
    -- another holder keeps its lock, and its row is not written
    have notReleased : sys.owner k ≠ some i := by
      intro released
      simp [System.finish, released] at owned
    have owned : sys.owner k = some j := by simpa [System.finish, notReleased] using owned
    obtain ⟨rfl, holding⟩ := linear.held k j owned
    have different : key j ≠ key i := by
      intro same
      rw [same, owns] at owned
      exact notReleased (by rw [same, owns])
    have otherClient : j ≠ i := fun same => different (congrArg key same)
    refine ⟨rfl, ?_⟩
    simpa [System.finish, Function.update_of_ne otherClient] using
      holding.congr (frame _ different).symm
  idle := by
    intro j free
    by_cases same : j = i
    · -- client `i` itself is answering from now on
      subst same
      refine .inr ⟨by change j ∈ sys.lockOrder; rw [split]; simp, ?_⟩
      exact ⟨by simp [System.finish], before, after, split, by simpa [System.finish] using leads⟩
    · have idle : sys.owner (key j) ≠ some j := by
        intro owned
        exact free (by simp [System.finish, owned, same])
      simpa [System.finish, Function.update_of_ne same] using linear.idle j idle

omit [DecidableEq ι] in
/-- The next statement of a client inside its transaction. -/
theorem Midway.advance {committed : σ} {client next : Client σ κ δ ε α}
    (midway : Midway view call key unwanted committed client i)
    (isLocal : next.program.LocalTo view (key i))
    (staged_congr : ∀ left right, view (key i) left = view (key i) right →
      view (key i) (next.staged left) = view (key i) (next.staged right))
    (staged_frame : ∀ other, other ≠ key i → ∀ data, view other (next.staged data) = view other data)
    (avoids : next.program.Avoids unwanted ⟨committed, next.staged committed⟩)
    (settles : client.program.settle ⟨committed, client.staged committed⟩ =
      next.program.settle ⟨committed, next.staged committed⟩) :
    Midway view call key unwanted committed next i where
  callLocal := midway.callLocal
  isLocal := isLocal
  staged_congr := staged_congr
  staged_frame := staged_frame
  avoids := avoids
  ending := by rw [← settles, midway.ending]
  working := by rw [← settles, midway.working]

omit [DecidableEq ι] in
/-- A batch is staged or refused as a whole, and either way stays on the row. -/
theorem Midway.flush {committed : σ} {client : Client σ κ δ ε α} {batch : Batch σ δ}
    {rest : Option δ → Program σ κ δ ε α}
    (midway : Midway view call key unwanted committed client i)
    (left : client.program = .flush batch rest) :
    Midway view call key unwanted committed
      ⟨rest (batch.rejects (client.staged committed)),
        System.stage batch (batch.rejects (client.staged committed)) client.staged⟩ i := by
  have isLocal := midway.isLocal
  have avoids := midway.avoids
  rw [left] at isLocal avoids
  obtain ⟨batchLocal, restLocal⟩ := isLocal
  have staged := System.stage_rejects batch client.staged committed
  refine midway.advance (restLocal _) ?_ ?_ ?_ ?_
  · intro first second same
    cases batch.rejects (client.staged committed) with
    | none => exact batchLocal.apply_congr (midway.staged_congr first second same)
    | some _ => exact midway.staged_congr first second same
  · intro other different data
    cases batch.rejects (client.staged committed) with
    | none => exact (batchLocal.frame different _).trans (midway.staged_frame other different data)
    | some _ => exact midway.staged_frame other different data
  · simp only [staged]
    exact avoids.2
  · simp only [staged, left]
    rfl

variable [DecidableEq κ] {next : System ι σ κ δ ε α}

/-- Every move of a client that holds its lock keeps the invariant. -/
theorem Linear.step_holding (linear : Linear view call key initial unwanted sys)
    (workload : Workload view present invariant unwanted call key initial)
    (owns : sys.owner (key i) = some i) (moved : sys.step present i = some next) :
    Linear view call key initial unwanted next := by
  obtain ⟨-, midway, before, after, split, others, started⟩ := linear.held _ _ owns
  have replaced : ∀ client, Midway view call key unwanted sys.committed client i →
      Linear view call key initial unwanted
        { sys with client := Function.update sys.client i client } := fun client midway =>
    linear.replace (fun _ => ⟨midway, before, after, split, others, started⟩)
      (fun idle => absurd owns idle)
  -- the call run alone ends as the client does
  have alone := midway.callLocal.settle_congr (.opened sys.committed)
    (.opened (serial call before initial)) started
  rw [← midway.ending, ← midway.working] at alone
  have holds := workload.serial_invariant before (key i)
  cases left : (sys.client i).program with
  | lock k rest =>
    -- the lock is already held, so the statement is a query
    have isLocal := midway.isLocal
    have avoids := midway.avoids
    rw [left] at isLocal avoids
    obtain ⟨rfl, -, restLocal⟩ := isLocal
    simp only [System.step, left, owns, if_true, Option.some.injEq] at moved
    rw [← moved]
    exact replaced _ (midway.advance (restLocal _) midway.staged_congr midway.staged_frame avoids
      (by rw [left]; rfl))
  | query rest =>
    have isLocal := midway.isLocal
    have avoids := midway.avoids
    rw [left] at isLocal avoids
    simp only [System.step, left, Option.some.injEq] at moved
    rw [← moved]
    exact replaced _ (midway.advance (isLocal.2 _) midway.staged_congr midway.staged_frame avoids
      (by rw [left]; rfl))
  | flush batch rest =>
    simp only [System.step, left, Option.some.injEq] at moved
    rw [← moved]
    exact replaced _ (midway.flush left)
  | pure result =>
    simp only [System.step, left, Option.some.injEq] at moved
    rw [left] at alone
    rw [← moved]
    exact linear.finish workload owns (fun _ _ => rfl) split others
      (by rw [Program.run_of_returned alone.1.symm]; exact started)
      (by rw [← alone.1]; rfl)
  | raise exception =>
    simp only [System.step, left, Option.some.injEq] at moved
    rw [left] at alone
    rw [← moved]
    exact linear.finish workload owns (fun _ _ => rfl) split others
      (by rw [Program.run_of_raised alone.1.symm]; exact started)
      (by rw [← alone.1]; rfl)
  | commit rest =>
    -- what is staged becomes the row of the serial execution
    simp only [System.step, left, Option.some.injEq] at moved
    rw [left] at alone
    rw [← moved]
    have quiet := workload.quietAfter i holds rest (.inl alone.1.symm)
    exact linear.finish workload owns
      (fun k different => midway.staged_frame k different _) split others
      (by rw [Program.run_of_committed alone.1.symm, quiet.run_data]; exact alone.2)
      (by rw [← alone.1]; exact ⟨quiet, .nothing⟩)
  | rollback rest =>
    -- nothing is written, here or in the serial execution
    simp only [System.step, left, Option.some.injEq] at moved
    rw [left] at alone
    rw [← moved]
    have quiet := workload.quietAfter i holds rest (.inr alone.1.symm)
    exact linear.finish workload owns (fun _ _ => rfl) split others
      (by rw [Program.run_of_rolledBack alone.1.symm, quiet.run_data]; exact started)
      (by rw [← alone.1]; exact ⟨quiet, .nothing⟩)

section Lock

variable {rest : σ → Program σ κ δ ε α}

omit [DecidableEq ι] [DecidableEq κ] in
theorem Linear.nodup_snoc (linear : Linear view call key initial unwanted sys)
    (fresh : i ∉ sys.lockOrder) : (sys.lockOrder ++ [i]).Nodup := by
  refine List.nodup_append.mpr ⟨linear.nodup, List.pairwise_singleton _ _, ?_⟩
  rintro j member k last rfl
  rw [List.mem_singleton.mp last] at member
  exact fresh member

omit [DecidableEq ι] [DecidableEq κ] in
/-- A writer that has its lock and has done nothing yet. -/
theorem Midway.start (writer : Writer view present invariant unwanted (key i) (call i))
    (starts : call i = .lock (key i) rest) {committed : σ}
    (sound : invariant (view (key i) committed)) :
    Midway view call key unwanted committed ⟨rest committed, id⟩ i := by
  have isLocal := writer.isLocal
  have avoids := writer.avoids committed sound
  rw [starts] at isLocal avoids
  exact {
    callLocal := writer.isLocal
    isLocal := isLocal.2.2 _
    staged_congr := fun _ _ same => same
    staged_frame := fun _ _ _ => rfl
    avoids := avoids
    ending := by rw [starts]; rfl
    working := by rw [starts]; rfl }

/-- The first statement of a writer finds its row, and locks it. -/
theorem Linear.lock_present (linear : Linear view call key initial unwanted sys)
    (workload : Workload view present invariant unwanted call key initial)
    (writer : Writer view present invariant unwanted (key i) (call i))
    (starts : call i = .lock (key i) rest) (unowned : sys.owner (key i) = none)
    (fresh : i ∉ sys.lockOrder) :
    Linear view call key initial unwanted
      { sys with
        owner := Function.update sys.owner (key i) (some i)
        lockOrder := sys.lockOrder ++ [i]
        client := Function.update sys.client i ⟨rest sys.committed, id⟩ } where
  nodup := linear.nodup_snoc fresh
  free := by
    intro k free
    by_cases own : k = key i
    · subst own
      simp at free
    · exact linear.free_snoc workload (Ne.symm own) (by simpa [own] using free)
  held := by
    intro k j owns
    by_cases own : k = key i
    · subst own
      obtain rfl : i = j := by simpa using owns
      have started := linear.free _ unowned
      refine ⟨rfl, ?_, sys.lockOrder, [], rfl, by simp, started⟩
      simp only [Function.update_self]
      exact Midway.start writer starts (by rw [started]; exact workload.serial_invariant _ _)
    · have owns : sys.owner k = some j := by simpa [own] using owns
      obtain ⟨rfl, different, other⟩ := linear.held_other unowned owns
      refine ⟨rfl, ?_⟩
      simp only [Function.update_of_ne other]
      exact (linear.held _ j owns).2.snoc different
  idle := by
    intro j idle
    by_cases same : j = i
    · subst same
      simp at idle
    · simp only [Function.update_of_ne same]
      apply linear.idle_snoc same
      intro owns
      obtain ⟨-, different, -⟩ := linear.held_other unowned owns
      exact idle (by simpa [Function.update_of_ne (Ne.symm different)] using owns)

omit [DecidableEq κ] in
/-- The first statement of a writer finds no row: the call fails, here and in the serial
    execution. -/
theorem Linear.lock_missing (linear : Linear view call key initial unwanted sys)
    (workload : Workload view present invariant unwanted call key initial)
    (starts : call i = .lock (key i) rest) (unowned : sys.owner (key i) = none)
    (fresh : i ∉ sys.lockOrder) {exception : ε} (raises : rest sys.committed = .raise exception)
    (alone : rest (serial call sys.lockOrder initial) = .raise exception) :
    Linear view call key initial unwanted
      { sys with
        lockOrder := sys.lockOrder ++ [i]
        client := Function.update sys.client i ⟨rest sys.committed, id⟩ } := by
  have ending : ((call i).settle (.opened (serial call sys.lockOrder initial))).1 =
      .raised exception := by
    rw [starts]
    change ((rest (serial call sys.lockOrder initial)).settle _).1 = _
    rw [alone]
    rfl
  exact {
    nodup := linear.nodup_snoc fresh
    free := by
      intro k free
      by_cases own : k = key i
      · subst own
        rw [serial_snoc, Program.run_of_raised ending]
        exact linear.free _ unowned
      · exact linear.free_snoc workload (Ne.symm own) free
    held := by
      intro k j owns
      obtain ⟨rfl, different, other⟩ := linear.held_other unowned owns
      refine ⟨rfl, ?_⟩
      simp only [Function.update_of_ne other]
      exact (linear.held _ j owns).2.snoc different
    idle := by
      intro j idle
      by_cases same : j = i
      · subst same
        refine .inr ⟨by simp, by simp, sys.lockOrder, [], rfl, ?_⟩
        rw [ending]
        simp only [Function.update_self]
        exact raises
      · simp only [Function.update_of_ne same]
        exact linear.idle_snoc same idle }

end Lock

/-- A writer whose first statement is answered. -/
theorem Linear.step_lock (linear : Linear view call key initial unwanted sys)
    (workload : Workload view present invariant unwanted call key initial)
    (writer : Writer view present invariant unwanted (key i) (call i))
    (untouched : (sys.client i).program = call i) (clean : (sys.client i).staged = id)
    (idle : sys.owner (key i) ≠ some i) (fresh : i ∉ sys.lockOrder)
    (moved : sys.step present i = some next) : Linear view call key initial unwanted next := by
  obtain ⟨rest, starts, absent⟩ := writer.locksFirst
  have left := untouched.trans starts
  have seen : sys.working i = sys.committed := by rw [System.working, clean]; rfl
  cases owned : sys.owner (key i) with
  | some holder =>
    -- the row is taken: the client waits, and there is no move
    have other : holder ≠ i := by
      rintro rfl
      exact idle owned
    simp [System.step, left, owned, other] at moved
  | none =>
    simp only [System.step, left, owned, seen, System.proceed, clean, Option.some.injEq] at moved
    rw [← moved]
    by_cases here : present (key i) sys.committed = true
    · simp only [here, if_true]
      exact linear.lock_present workload writer starts owned fresh
    · rw [if_neg here]
      obtain ⟨exception, raises⟩ := absent _ (Bool.not_eq_true _ ▸ here)
      have reads := writer.isLocal
      rw [starts] at reads
      -- the serial execution finds what is committed at a free row
      have same := reads.2.1 _ _ (linear.free _ owned)
      exact linear.lock_missing workload starts owned fresh raises (same ▸ raises)

/-- Every move keeps the invariant. -/
theorem Linear.step (linear : Linear view call key initial unwanted sys)
    (workload : Workload view present invariant unwanted call key initial)
    (moved : sys.step present i = some next) : Linear view call key initial unwanted next := by
  by_cases owns : sys.owner (key i) = some i
  · exact linear.step_holding workload owns moved
  · -- without a lock a client is a writer at its first statement, or only reads
    obtain ⟨fresh, clean, state⟩ | ⟨ended, clean, before, after, split, leads⟩ := linear.idle i owns
    · obtain writer | quiet := workload.calls i
      · obtain untouched | ⟨quiet, -⟩ := state
        · exact linear.step_lock workload writer untouched clean owns fresh moved
        · obtain ⟨rest, starts, -⟩ := writer.locksFirst
          rw [starts] at quiet
          exact quiet.elim
      · have reads : (call i).Reads (Snapshot view call initial sys.lockOrder)
            (sys.client i).program := by
          obtain untouched | ⟨-, reads⟩ := state
          · rw [untouched]
            exact .nothing
          · exact reads
        obtain ⟨rest, read, rfl⟩ :=
          System.step_quiet (reads.quiet quiet) clean (linear.unlocked owns) moved
        exact linear.replace (fun held => absurd held owns)
          (fun _ => .inl ⟨fresh, rfl, .inr ⟨quiet, reads.step linear.snapshot read⟩⟩)
    · obtain ⟨rest, read, rfl⟩ :=
        System.step_quiet leads.quiet clean (linear.unlocked owns) moved
      refine linear.replace (fun held => absurd held owns) (fun _ => .inr ⟨ended, rfl, ?_⟩)
      exact ⟨before, after, split, leads.step (linear.seenAfter owns split) read⟩

end Moves

/-! ## Every schedule -/

section Runs

variable [DecidableEq ι] [DecidableEq κ]

omit [DecidableEq ι] [DecidableEq κ] in
theorem Linear.start :
    Linear view call key initial unwanted (System.start call initial) where
  nodup := .nil
  free := fun _ _ => rfl
  held := by
    intro k i owns
    cases owns
  idle := fun i _ => .inl ⟨List.not_mem_nil, rfl, .inl rfl⟩

/-- The invariant holds after every schedule. -/
theorem Linear.runSchedule (workload : Workload view present invariant unwanted call key initial)
    (schedule : List ι) :
    Linear view call key initial unwanted
      ((System.start call initial).runSchedule present schedule) :=
  System.runSchedule_induction (fun _ _ _ linear moved => linear.step workload moved)
    Linear.start schedule

end Runs

/-! ## What clients and observers see -/

section Consequences

variable {sys : System ι σ κ δ ε α} {i : ι} {answer : Except ε α}

/-- The answers a call can give from the end of its transaction on. -/
def Ending.MayAnswer (seen : σ → Prop) : Ending σ κ δ ε α → Except ε α → Prop
  | .returned result, answer => answer = .ok result
  | .raised exception, answer => answer = .error exception
  | .committed rest, answer | .rolledBack rest, answer => rest.MayAnswer seen answer

theorem Ending.mayAnswer_map {seen : σ → Prop} {rename : α → β} {program : Program σ κ δ ε α}
    {conn : Connection σ} {answer : Except ε β}
    (answers : ((rename <$> program).settle conn).1.MayAnswer seen answer) :
    ∃ result, (program.settle conn).1.MayAnswer seen result ∧ answer = result.map rename := by
  change ((program >>= fun result => Pure.pure (rename result)).settle conn).1.MayAnswer _ _ at answers
  rw [Program.settle_bind] at answers
  cases settled : program.settle conn with
  | mk ending after =>
    rw [settled] at answers
    cases ending with
    | returned result => exact ⟨.ok result, rfl, answers⟩
    | raised exception => exact ⟨.error exception, rfl, answers⟩
    | committed rest | rolledBack rest => exact Program.mayAnswer_map answers

theorem Ending.LeadsTo.mayAnswer {seen : σ → Prop} {ending : Ending σ κ δ ε α}
    (leads : ending.LeadsTo seen (.lift answer)) : ending.MayAnswer seen answer := by
  cases ending with
  | returned _ =>
    cases answer with
    | ok _ => cases leads; rfl
    | error _ => cases leads
  | raised _ =>
    cases answer with
    | ok _ => cases leads
    | error _ => cases leads; rfl
  | committed _ | rolledBack _ => exact leads.2.mayAnswer (Program.mayAnswer_lift answer)

/-- The committed data is, row by row, that of the serial execution of the clients
    that hold no lock. -/
theorem Linear.committed [DecidableEq ι] (linear : Linear view call key initial unwanted sys)
    (workload : Workload view present invariant unwanted call key initial) (k : κ) :
    view k sys.committed = view k
      (serial call (sys.lockOrder.filter fun i => sys.owner (key i) ≠ some i) initial) := by
  cases owned : sys.owner k with
  | none =>
    rw [linear.free k owned]
    refine (workload.serial_filter ?_ rfl).symm
    rintro i - held rfl
    simp [owned] at held
  | some j =>
    -- the holder is dropped, and the stage before it is what its row shows
    obtain ⟨rfl, -, before, after, split, others, started⟩ := linear.held k j owned
    have distinct := linear.nodup
    rw [split] at distinct
    rw [started, split, List.filter_append, List.filter_cons_of_neg (by simp [owned]), serial_append,
      workload.serial_frame fun i member => others i (List.mem_filter.mp member).1]
    refine (workload.serial_filter ?_ rfl).symm
    intro i member held same
    rw [same, owned] at held
    obtain rfl : j = i := by simpa using held
    exact (List.nodup_append.mp distinct).2.2 j member j List.mem_cons_self rfl

/-- A client that has locked its row answers what it would answer in the serial
    execution, up to its reads after the end of its transaction. -/
theorem Linear.answers (linear : Linear view call key initial unwanted sys)
    (answered : sys.Answered i answer) (ordered : i ∈ sys.lockOrder) :
    ∃ before after, sys.lockOrder = before ++ i :: after ∧
      ((call i).settle (.opened (serial call before initial))).1.MayAnswer
        (SeenAfter view call key initial before i after) answer := by
  by_cases owns : sys.owner (key i) = some i
  · -- the answer is there, the connection is not closed yet
    obtain ⟨-, midway, before, after, split, -, started⟩ := linear.held _ _ owns
    refine ⟨before, after, split, ?_⟩
    have alone := midway.callLocal.settle_congr (.opened sys.committed)
      (.opened (serial call before initial)) started
    rw [← alone.1, ← midway.ending, answered]
    cases answer <;> rfl
  · obtain ⟨absent, -⟩ | ⟨-, -, before, after, split, leads⟩ := linear.idle i owns
    · exact absurd ordered absent
    · rw [answered] at leads
      exact ⟨before, after, split, leads.mayAnswer⟩

/-- A client that has its answer and never locked a row is a reader. -/
theorem Linear.answers_unordered (linear : Linear view call key initial unwanted sys)
    (answered : sys.Answered i answer) (unordered : i ∉ sys.lockOrder) :
    (call i).Quiet ∧ (call i).MayAnswer (Snapshot view call initial sys.lockOrder) answer := by
  have idle : sys.owner (key i) ≠ some i := by
    intro owns
    exact unordered (linear.held _ _ owns).2.mem
  obtain ⟨-, -, state⟩ | ⟨ordered, -⟩ := linear.idle i idle
  · rw [answered] at state
    obtain untouched | ⟨quiet, reads⟩ := state
    · rw [← untouched]
      cases answer <;> exact ⟨trivial, rfl⟩
    · exact ⟨quiet, reads.mayAnswer (Program.mayAnswer_lift answer)⟩
  · exact absurd ordered unordered

/-- No flush is answered with the unwanted error. -/
theorem Linear.accepts (linear : Linear view call key initial unwanted sys)
    (workload : Workload view present invariant unwanted call key initial)
    {batch : Batch σ δ} {next : Option δ → Program σ κ δ ε α}
    (flushes : (sys.client i).program = .flush batch next) :
    batch.rejects (sys.working i) ≠ some unwanted := by
  by_cases owns : sys.owner (key i) = some i
  · obtain ⟨-, midway, -⟩ := linear.held _ _ owns
    have avoids := midway.avoids
    rw [flushes] at avoids
    exact avoids.1
  · -- a client without a lock sends no batch
    have quiet : (sys.client i).program.Quiet := by
      obtain ⟨-, -, untouched | ⟨quiet, reads⟩⟩ | ⟨-, -, before, after, -, leads⟩ :=
        linear.idle i owns
      · obtain writer | quiet := workload.calls i
        · obtain ⟨rest, starts, -⟩ := writer.locksFirst
          rw [untouched, starts] at flushes
          cases flushes
        · rw [untouched]
          exact quiet
      · exact reads.quiet quiet
      · exact leads.quiet
    rw [flushes] at quiet
    exact quiet.elim

end Consequences

end

end SeismicIngest.Transaction
