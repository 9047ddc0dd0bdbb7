import SeismicIngest.Transaction.Crashes
import SeismicIngest.Transaction.Observers

/-! # What clients count on

Between two statements of a client the others move.  `Rules` says of each client what it
counts on from the others (`rely`), what it commits itself (`guarantee`) and what its
answer promises (`answers`); while it holds the lock of its row it may count on more.
A program is `Safe` when, whatever the others do within its `rely`, it commits at most
once, by its `guarantee`, and answers with what the rules promise.

Clients whose programs are safe may be of any kind, writers that lock, writers of rows
that nobody else can see, and readers; when each `guarantee` is within the `rely` of
everybody else (`Rules.Lawful`), every schedule keeps the invariant, takes the data from
commit to commit by the guarantees, in the order of the commits, and keeps what has been
answered (`Guarded.runSchedule`).
-/

namespace SeismicIngest.Transaction

section

variable {ι σ κ δ ε α β ν τ : Type}

/-- The flag tells whether the client holds the lock of its row. -/
structure Rules (ι σ ε α : Type) where
  invariant : σ → Prop
  rely : ι → Bool → σ → σ → Prop
  guarantee : ι → Bool → σ → σ → Prop
  answers : ι → Except ε α → σ → Prop

/-- After what the others have done, client `i` finds `after`. -/
structure Rules.Finds (rules : Rules ι σ ε α) (i : ι) (held : Bool) (before after : σ) : Prop where
  valid : rules.invariant before
  found : rules.invariant after
  counts : rules.rely i held before after

structure Rules.Lawful (rules : Rules ι σ ε α) (present : κ → σ → Bool) (key : ι → κ) : Prop where
  refl : ∀ {i held data}, rules.invariant data → rules.rely i held data data
  trans : ∀ {i held first second third}, rules.rely i held first second →
    rules.rely i held second third → rules.rely i held first third
  weaken : ∀ {i held before after}, rules.rely i held before after → rules.rely i false before after
  stays : ∀ {i before after}, rules.rely i true before after → present (key i) before = true →
    present (key i) after = true
  kept : ∀ {i before after answer}, rules.Finds i false before after →
    rules.answers i answer before → rules.answers i answer after
  preserved : ∀ {i held before after}, rules.invariant before →
    rules.guarantee i held before after → rules.invariant after
  /-- What one client does, the others count on; two locks are on different rows. -/
  others : ∀ {i j held other before after}, i ≠ j → rules.invariant before →
    (held = true → present (key i) before = true) → (held = true → other = true → key i ≠ key j) →
      rules.guarantee j other before after → rules.rely i held before after

section

variable {rules : Rules ι σ ε α} {present : κ → σ → Bool} {key : ι → κ} {i : ι} {held : Bool}
variable {first second third : σ} (lawful : rules.Lawful present key)

include lawful

theorem Rules.Finds.refl (valid : rules.invariant first) : rules.Finds i held first first :=
  ⟨valid, valid, lawful.refl valid⟩

theorem Rules.Finds.trans (earlier : rules.Finds i held first second)
    (later : rules.Finds i held second third) : rules.Finds i held first third :=
  ⟨earlier.valid, later.found, lawful.trans earlier.counts later.counts⟩

theorem Rules.Finds.weaken (finds : rules.Finds i held first second) : rules.Finds i false first second :=
  ⟨finds.valid, finds.found, lawful.weaken finds.counts⟩

end

/-! ## Safe programs -/

namespace Program

section

variable (rules : Rules ι σ ε α) (i : ι)

/-- A program after its transaction: it only reads, and answers with what the rules promise. -/
def Reports : Program σ κ δ ε α → σ → Prop
  | .pure result, data => rules.answers i (.ok result) data
  | .raise exception, data => rules.answers i (.error exception) data
  | .query next, data => ∀ found, rules.Finds i false data found → (next found).Reports found
  | .rollback rest, data => rest.Reports data
  | .lock _ _, _ | .flush _ _, _ | .commit _, _ => False

/-- A program in its transaction, with these writes staged. -/
def Safe (present : κ → σ → Bool) (key : κ) (held : Bool) :
    Program σ κ δ ε α → (σ → σ) → σ → Prop
  | .pure result, _, data => rules.answers i (.ok result) data
  | .raise exception, _, data => rules.answers i (.error exception) data
  | .lock locked next, staged, data =>
    locked = key ∧ (held = false → staged = id) ∧ ∀ found, rules.Finds i held data found →
      Safe present key (held || present key found) (next (staged found)) staged found
  | .query next, staged, data =>
    ∀ found, rules.Finds i held data found → Safe present key held (next (staged found)) staged found
  | .flush batch next, staged, data =>
    ∀ found, rules.Finds i held data found →
      Safe present key held (next (batch.rejects (staged found)))
        (System.stage batch (batch.rejects (staged found)) staged) found
  | .commit rest, staged, data =>
    ∀ found, rules.Finds i held data found →
      rules.guarantee i held found (staged found) ∧ rest.Reports rules i (staged found)
  | .rollback rest, _, data =>
    ∀ found, rules.Finds i held data found → rest.Reports rules i found

end

section

variable {rules : Rules ι σ ε α} {i : ι} {present : κ → σ → Bool} {key : ι → κ}
variable {program next : Program σ κ δ ε α} {data found : σ} {held : Bool} {staged : σ → σ}
variable (lawful : rules.Lawful present key)

include lawful

/-- What the others do leaves a program what it is. -/
theorem Reports.interfere (reports : program.Reports rules i data)
    (finds : rules.Finds i false data found) : program.Reports rules i found := by
  induction program with
  | pure _ | raise _ => exact lawful.kept finds reports
  | query _ _ => exact fun later meets => reports later (finds.trans lawful meets)
  | rollback _ inductionHypothesis => exact inductionHypothesis reports
  | lock _ _ _ | flush _ _ _ | commit _ _ => exact reports

theorem Safe.interfere (safe : program.Safe rules i present (key i) held staged data)
    (finds : rules.Finds i held data found) :
    program.Safe rules i present (key i) held staged found := by
  cases program with
  | pure _ | raise _ => exact lawful.kept (finds.weaken lawful) safe
  | lock _ _ => exact ⟨safe.1, safe.2.1, fun after meets => safe.2.2 after (finds.trans lawful meets)⟩
  | query _ | flush _ _ | commit _ | rollback _ =>
    exact fun after meets => safe after (finds.trans lawful meets)

/-- A program that only reads, and makes no promise that does not hold already. -/
theorem Quiet.reports (quiet : program.Quiet) (promises : ∀ answer,
      program.MayAnswer (rules.Finds i false data) answer → rules.answers i answer data) :
    program.Reports rules i data := by
  induction program generalizing data with
  | pure result => exact promises _ rfl
  | raise exception => exact promises _ rfl
  | query next inductionHypothesis =>
    intro found finds
    refine inductionHypothesis found (quiet found) fun answer may => ?_
    exact lawful.kept finds (promises answer ⟨found, finds, may.mono fun _ => finds.trans lawful⟩)
  | rollback _ inductionHypothesis => exact inductionHypothesis quiet promises
  | lock _ _ _ | flush _ _ _ | commit _ _ => exact quiet.elim

/-- Such a program before its first statement. -/
theorem Quiet.safe (quiet : program.Quiet)
    (promises : ∀ answer found, rules.answers i answer found) :
    program.Safe rules i present (key i) false id data := by
  induction program generalizing data with
  | pure _ | raise _ => exact promises _ _
  | query next inductionHypothesis => exact fun found _ => inductionHypothesis found (quiet found)
  | rollback rest _ => exact fun _ _ => Quiet.reports lawful quiet fun _ _ => promises _ _
  | lock _ _ _ | flush _ _ _ | commit _ _ => exact quiet.elim

end

/-! ### Programs that are renamed or killed -/

end Program

/-- The same rules with other promises. -/
def Rules.telling (rules : Rules ι σ ε β) (answers : ι → Except ε α → σ → Prop) : Rules ι σ ε α where
  invariant := rules.invariant
  rely := rules.rely
  guarantee := rules.guarantee
  answers := answers

theorem Rules.Finds.kept {rules : Rules ι σ ε β} {answers : ι → Except ε α → σ → Prop} {i : ι}
    {held : Bool} {before after : σ} (finds : (rules.telling answers).Finds i held before after) :
    rules.Finds i held before after :=
  ⟨finds.valid, finds.found, finds.counts⟩

theorem Rules.Lawful.telling {rules : Rules ι σ ε β} {present : κ → σ → Bool} {key : ι → κ}
    (lawful : rules.Lawful present key) {answers : ι → Except ε α → σ → Prop}
    (kept : ∀ {i before after answer}, rules.Finds i false before after →
      answers i answer before → answers i answer after) :
    (rules.telling answers).Lawful present key where
  refl := lawful.refl
  trans := lawful.trans
  weaken := lawful.weaken
  stays := lawful.stays
  kept finds promised := kept finds.kept promised
  preserved := lawful.preserved
  others := lawful.others

/-- The rules for clients whose results are renamed afterwards. -/
def Rules.through (rules : Rules ι σ ε β) (rename : α → β) : Rules ι σ ε α :=
  rules.telling fun i answer => rules.answers i (answer.map rename)

theorem Rules.Finds.through {rules : Rules ι σ ε β} {rename : α → β} {i : ι} {held : Bool}
    {before after : σ} (finds : rules.Finds i held before after) :
    (rules.through rename).Finds i held before after :=
  ⟨finds.valid, finds.found, finds.counts⟩

namespace Program

theorem Reports.map {rules : Rules ι σ ε β} {i : ι} {rename : α → β} {program : Program σ κ δ ε α}
    {data : σ} (reports : program.Reports (rules.through rename) i data) :
    (rename <$> program).Reports rules i data := by
  change (program.bind fun result => .pure (rename result)).Reports rules i data
  induction program generalizing data with
  | pure _ | raise _ => exact reports
  | query _ inductionHypothesis =>
    exact fun found finds => inductionHypothesis found (reports found finds.through)
  | rollback _ inductionHypothesis => exact inductionHypothesis reports
  | lock _ _ _ | flush _ _ _ | commit _ _ => exact reports.elim

theorem Safe.map {rules : Rules ι σ ε β} {i : ι} {present : κ → σ → Bool} {key : κ} {rename : α → β}
    {program : Program σ κ δ ε α} {held : Bool} {staged : σ → σ} {data : σ}
    (safe : program.Safe (rules.through rename) i present key held staged data) :
    (rename <$> program).Safe rules i present key held staged data := by
  change (program.bind fun result => .pure (rename result)).Safe rules i present key held staged data
  induction program generalizing held staged data with
  | pure _ | raise _ => exact safe
  | lock _ _ inductionHypothesis =>
    exact ⟨safe.1, safe.2.1, fun found finds => inductionHypothesis _ (safe.2.2 found finds.through)⟩
  | query _ inductionHypothesis | flush _ _ inductionHypothesis =>
    exact fun found finds => inductionHypothesis _ (safe found finds.through)
  | commit _ _ => exact fun found finds => ⟨(safe found finds.through).1, (safe found finds.through).2.map⟩
  | rollback _ _ => exact fun found finds => (safe found finds.through).map

section

variable {rules : Rules ι σ ε α} {answers : ι → Except ε α → σ → Prop} {i : ι}
variable {present : κ → σ → Bool} {key : κ}
variable {program : Program σ κ δ ε α} {held : Bool} {staged : σ → σ} {data : σ}
variable (weaker : ∀ answer data, rules.answers i answer data → answers i answer data)

include weaker

theorem Reports.telling (reports : program.Reports rules i data) :
    program.Reports (rules.telling answers) i data := by
  induction program generalizing data with
  | pure _ | raise _ => exact weaker _ _ reports
  | query _ inductionHypothesis =>
    exact fun found finds => inductionHypothesis found (reports found finds.kept)
  | rollback _ inductionHypothesis => exact inductionHypothesis reports
  | lock _ _ _ | flush _ _ _ | commit _ _ => exact reports.elim

/-- A safe program is safe when it has to promise less. -/
theorem Safe.telling (safe : program.Safe rules i present key held staged data) :
    program.Safe (rules.telling answers) i present key held staged data := by
  induction program generalizing held staged data with
  | pure _ | raise _ => exact weaker _ _ safe
  | lock _ _ inductionHypothesis =>
    exact ⟨safe.1, safe.2.1, fun found finds => inductionHypothesis _ (safe.2.2 found finds.kept)⟩
  | query _ inductionHypothesis | flush _ _ inductionHypothesis =>
    exact fun found finds => inductionHypothesis _ (safe found finds.kept)
  | commit _ _ =>
    exact fun found finds => ⟨(safe found finds.kept).1, (safe found finds.kept).2.telling weaker⟩
  | rollback _ _ => exact fun found finds => (safe found finds.kept).telling weaker

end

section

variable {rules : Rules ι σ ε α} {i : ι} {present : κ → σ → Bool} {key : κ} {lost : ε}
variable {program : Program σ κ δ ε α} {held : Bool} {staged : σ → σ} {data : σ}
variable (nothing : ∀ data, rules.answers i (.error lost) data)

include nothing

theorem Reports.kill (reports : program.Reports rules i data) (count : Nat) :
    (program.kill lost count).Reports rules i data := by
  induction program generalizing data count with
  | pure _ | raise _ => exact reports
  | lock _ _ _ | flush _ _ _ | commit _ _ => exact reports.elim
  | query _ inductionHypothesis =>
    cases count with
    | zero => exact nothing data
    | succ count => exact fun found finds => inductionHypothesis found (reports found finds) count
  | rollback _ inductionHypothesis =>
    cases count with
    | zero => exact nothing data
    | succ count => exact inductionHypothesis reports count

theorem Safe.kill (safe : program.Safe rules i present key held staged data) (count : Nat) :
    (program.kill lost count).Safe rules i present key held staged data := by
  induction program generalizing held staged data count with
  | pure _ | raise _ => exact safe
  | lock _ _ inductionHypothesis =>
    cases count with
    | zero => exact nothing data
    | succ count =>
      exact ⟨safe.1, safe.2.1, fun found finds => inductionHypothesis _ (safe.2.2 found finds) count⟩
  | query _ inductionHypothesis | flush _ _ inductionHypothesis =>
    cases count with
    | zero => exact nothing data
    | succ count => exact fun found finds => inductionHypothesis _ (safe found finds) count
  | commit _ _ =>
    cases count with
    | zero => exact nothing data
    | succ count =>
      exact fun found finds => ⟨(safe found finds).1, (safe found finds).2.kill nothing count⟩
  | rollback _ _ =>
    cases count with
    | zero => exact nothing data
    | succ count => exact fun found finds => (safe found finds).kill nothing count

/-- A safe program may die at any time. -/
theorem Safe.mortal (safe : program.Safe rules i present key held staged data) (life : Option Nat) :
    (program.mortal lost life).Safe rules i present key held staged data := by
  cases life with
  | none => exact safe
  | some count => exact safe.kill nothing count

end

end Program

/-! ### Writers that hold their lock -/

section

variable (rules : Rules ι σ ε α) (i : ι)

/-- The transaction of a writer ends as the rules want it, if it ends now. -/
def Client.Concludes (client : Client σ κ δ ε α) (data : σ) : Prop :=
  match client.program with
  | .pure result => rules.answers i (.ok result) data
  | .raise exception => rules.answers i (.error exception) data
  | .commit rest =>
    rules.guarantee i true data (client.staged data) ∧ rest.Reports rules i (client.staged data)
  | .rollback rest => rest.Reports rules i data
  | _ => True

variable {rules i} {view : κ → σ → ν} {call : ι → Program σ κ δ ε α} {key : ι → κ} {unwanted : δ}
variable {present : κ → σ → Bool} {part : σ → τ}

/-- A client that has its lock is safe when its row is left alone and it concludes well. -/
theorem Midway.safe
    (frozen : ∀ {before after}, rules.rely i true before after →
      view (key i) before = view (key i) after)
    (concludes : ∀ {client data}, rules.invariant data →
      Midway view call key unwanted data client i → client.Keeps part →
        client.Concludes rules i data) {client : Client σ κ δ ε α} {data : σ}
    (valid : rules.invariant data) (midway : Midway view call key unwanted data client i)
    (keeps : client.Keeps part) :
    client.program.Safe rules i present (key i) true client.staged data := by
  obtain ⟨program, staged⟩ := client
  change program.Safe rules i present (key i) true staged data
  induction program generalizing staged data with
  | pure _ | raise _ => exact concludes valid midway keeps
  | commit _ _ | rollback _ _ =>
    exact fun found finds => concludes finds.found (midway.congr (frozen finds.counts)) keeps
  | query next inductionHypothesis =>
    intro found finds
    have here := midway.congr (frozen finds.counts)
    have moved : Midway view call key unwanted found ⟨next (staged found), staged⟩ i :=
      here.advance (here.isLocal.2 _) here.staged_congr here.staged_frame here.avoids rfl
    exact inductionHypothesis _ finds.found staged moved ⟨keeps.program _, keeps.staged⟩
  | lock locked next inductionHypothesis =>
    -- the lock is held already
    refine ⟨midway.isLocal.1, nofun, fun found finds => ?_⟩
    have here := midway.congr (frozen finds.counts)
    have moved : Midway view call key unwanted found ⟨next (staged found), staged⟩ i :=
      here.advance (here.isLocal.2.2 _) here.staged_congr here.staged_frame here.avoids rfl
    exact inductionHypothesis _ finds.found staged moved ⟨keeps.program _, keeps.staged⟩
  | flush batch next inductionHypothesis =>
    intro found finds
    exact inductionHypothesis _ finds.found _ ((midway.congr (frozen finds.counts)).flush rfl)
      (Client.Moves.flush.keeps keeps).1

/-- So is a writer before its first statement. -/
theorem Writer.safe {invariant : ν → Prop}
    (writer : Writer view present invariant unwanted (key i) (call i)) (keeps : (call i).Keeps part)
    (sound : ∀ {data}, rules.invariant data → invariant (view (key i) data))
    (raises : ∀ exception data, rules.answers i (.error exception) data)
    (frozen : ∀ {before after}, rules.rely i true before after →
      view (key i) before = view (key i) after)
    (concludes : ∀ {client data}, rules.invariant data →
      Midway view call key unwanted data client i → client.Keeps part →
        client.Concludes rules i data) (data : σ) :
    (call i).Safe rules i present (key i) false id data := by
  obtain ⟨next, starts, absent⟩ := writer.locksFirst
  rw [starts] at keeps ⊢
  refine ⟨rfl, fun _ => rfl, fun found finds => ?_⟩
  cases here : present (key i) found with
  | true =>
    have midway := Midway.start writer starts (sound finds.found)
    exact midway.safe frozen concludes finds.found ⟨keeps found, fun _ => rfl⟩
  | false =>
    obtain ⟨exception, refused⟩ := absent found here
    rw [id, refused]
    exact raises exception found

end

/-! ## Every schedule -/

/-- The data has come from `initial` by commits of these clients, in this order. -/
inductive Rules.Commits (rules : Rules ι σ ε α) (initial : σ) : List ι → σ → Prop where
  | nothing : rules.Commits initial [] initial
  | commit {order : List ι} {before after : σ} {i : ι} {held : Bool} :
    rules.Commits initial order before → rules.guarantee i held before after →
      rules.Commits initial (order ++ [i]) after

section

variable [DecidableEq ι] [DecidableEq κ]
variable (rules : Rules ι σ ε α) (present : κ → σ → Bool) (key : ι → κ)

/-- Client `i` is in its transaction and has committed nothing, or it has ended it. -/
def Phase (order : List ι) (sys : System ι σ κ δ ε α) (i : ι) : Prop :=
  (i ∉ order ∧ (sys.client i).program.Safe rules i present (key i)
      (decide (sys.owner (key i) = some i)) (sys.client i).staged sys.committed) ∨
    (sys.owner (key i) ≠ some i ∧ (sys.client i).staged = id ∧
      (sys.client i).program.Reports rules i sys.committed)

structure Guarded (initial : σ) (order : List ι) (sys : System ι σ κ δ ε α) : Prop where
  nodup : order.Nodup
  valid : rules.invariant sys.committed
  commits : rules.Commits initial order sys.committed
  owners : ∀ k i, sys.owner k = some i → key i = k ∧ present k sys.committed = true
  phases : ∀ i, Phase rules present key order sys i

variable {rules present key} {initial : σ} {order : List ι}
variable {sys after : System ι σ κ δ ε α} {i j : ι}

/-- Whoever does not move keeps the locks it has. -/
theorem System.step_holder (moved : sys.step present i = some after) (different : j ≠ i) (k : κ) :
    after.owner k = some j ↔ sys.owner k = some j := by
  refine ⟨System.step_owner moved different, fun owns => ?_⟩
  have released : ∀ program, (sys.finish i program).owner k = some j := fun program => by
    simp [System.finish, owns, different]
  cases System.step_move moved with
  | close answer _ => exact released (.lift answer)
  | @commit rest _ | @rollback rest _ => exact released rest
  | keep _ _ | query _ | flush _ => exact owns
  | @lock locked _ _ free =>
    -- the row that is locked now had no holder
    have other : k ≠ locked := by
      rintro rfl
      rw [free] at owns
      cases owns
    change (if _ then Function.update sys.owner locked (some i) else sys.owner) k = some j
    split
    · rw [Function.update_of_ne other]
      exact owns
    · exact owns

section Step

variable (lawful : rules.Lawful present key) (guarded : Guarded rules present key initial order sys)

include lawful guarded

omit [DecidableEq κ] in
/-- What a client commits, the others find within what they count on. -/
theorem Guarded.finds {held : Bool} {data : σ} (owns : held = true → sys.owner (key i) = some i)
    (guarantees : rules.guarantee i held sys.committed data) (different : j ≠ i) :
    rules.Finds j (decide (sys.owner (key j) = some j)) sys.committed data := by
  refine ⟨guarded.valid, lawful.preserved guarded.valid guarantees, ?_⟩
  refine lawful.others different guarded.valid (fun locked => ?_) (fun locked other same => ?_) guarantees
  · exact (guarded.owners _ _ (of_decide_eq_true locked)).2
  · -- one row has one holder
    have both := (owns other).symm.trans (same ▸ of_decide_eq_true locked)
    exact different (Option.some.inj both).symm

/-- A move keeps the invariant when its client is in one of its phases afterwards. -/
theorem Guarded.move (moved : sys.step present i = some after) {later : List ι}
    (nodup : later.Nodup) (commits : rules.Commits initial later after.committed)
    (recorded : ∀ j, j ≠ i → j ∈ later → j ∈ order)
    (change : after.committed = sys.committed ∨
      ∃ held, (held = true → sys.owner (key i) = some i) ∧
        rules.guarantee i held sys.committed after.committed)
    (owned : ∀ k, after.owner k = some i → key i = k ∧ present k after.committed = true)
    (phase : Phase rules present key later after i) : Guarded rules present key initial later after := by
  have finds : ∀ j, j ≠ i →
      rules.Finds j (decide (sys.owner (key j) = some j)) sys.committed after.committed := by
    intro j different
    obtain same | ⟨held, owns, guarantees⟩ := change
    · rw [same]
      exact .refl lawful guarded.valid
    · exact guarded.finds lawful owns guarantees different
  refine {
    nodup := nodup
    valid := ?_
    commits := commits
    owners := ?_
    phases := ?_ }
  · obtain same | ⟨held, -, guarantees⟩ := change
    · rw [same]
      exact guarded.valid
    · exact lawful.preserved guarded.valid guarantees
  · intro k j owns
    by_cases own : j = i
    · subst own
      exact owned k owns
    · have held := System.step_owner moved own owns
      obtain ⟨rfl, here⟩ := guarded.owners k j held
      have counts := (finds j own).counts
      simp only [held, decide_true] at counts
      exact ⟨rfl, lawful.stays counts here⟩
  · intro j
    by_cases own : j = i
    · subst own
      exact phase
    · have holder : decide (after.owner (key j) = some j) = decide (sys.owner (key j) = some j) :=
        decide_eq_decide.mpr (System.step_holder moved own (key j))
      rw [Phase, System.step_other moved own, holder]
      obtain ⟨waiting, safe⟩ | ⟨free, clean, reports⟩ := guarded.phases j
      · exact .inl ⟨fun member => waiting (recorded j own member), safe.interfere lawful (finds j own)⟩
      · refine .inr ⟨fun owns => free ((System.step_holder moved own _).mp owns), clean, ?_⟩
        exact reports.interfere lawful ((finds j own).weaken lawful)

/-- A client that goes on in its transaction, with the lock it has. -/
theorem Guarded.proceed {client : Client σ κ δ ε α} (fresh : i ∉ order)
    (moved : sys.step present i = some { sys with client := Function.update sys.client i client })
    (safe : client.program.Safe rules i present (key i) (decide (sys.owner (key i) = some i))
      client.staged sys.committed) :
    Guarded rules present key initial order
      { sys with client := Function.update sys.client i client } := by
  refine guarded.move lawful moved guarded.nodup guarded.commits (fun _ _ member => member) (.inl rfl)
    (guarded.owners · i) (.inl ⟨fresh, ?_⟩)
  simpa using safe

/-- A client whose transaction ends without a commit. -/
theorem Guarded.finish {program : Program σ κ δ ε α}
    (moved : sys.step present i = some (sys.finish i program))
    (reports : program.Reports rules i sys.committed) :
    Guarded rules present key initial order (sys.finish i program) := by
  have free := sys.finish_releases i program
  refine guarded.move lawful moved guarded.nodup guarded.commits (fun _ _ member => member) (.inl rfl)
    (fun k owns => absurd owns (free k)) (.inr ⟨free _, ?_⟩)
  simpa [System.finish] using reports

/-- The commit of a client in its transaction. -/
theorem Guarded.commit {rest : Program σ κ δ ε α} (fresh : i ∉ order)
    (moved : sys.step present i = some { sys.finish i rest with committed := sys.working i })
    (guarantees : rules.guarantee i (decide (sys.owner (key i) = some i)) sys.committed (sys.working i))
    (reports : rest.Reports rules i (sys.working i)) :
    Guarded rules present key initial (order ++ [i])
      { sys.finish i rest with committed := sys.working i } := by
  have free := sys.finish_releases i rest
  have nodup : (order ++ [i]).Nodup :=
    List.nodup_append.mpr ⟨guarded.nodup, List.pairwise_singleton _ _, by
      rintro j member k last rfl
      rw [List.mem_singleton.mp last] at member
      exact fresh member⟩
  refine guarded.move lawful moved nodup (guarded.commits.commit guarantees) ?_
    (.inr ⟨_, of_decide_eq_true, guarantees⟩) (fun k owns => absurd owns (free k)) (.inr ⟨free _, ?_⟩)
  · intro j different member
    obtain earlier | last := List.mem_append.mp member
    · exact earlier
    · exact absurd (List.mem_singleton.mp last) different
  · simpa [System.finish] using reports

/-- The first statement of a writer: it takes the lock, unless there is no row. -/
theorem Guarded.lock {program : Program σ κ δ ε α} (fresh : i ∉ order)
    (free : sys.owner (key i) = none) (clean : (sys.client i).staged = id)
    (safe : program.Safe rules i present (key i) (present (key i) sys.committed) id sys.committed)
    (moved : sys.step present i = some
      { sys.proceed i program with
        owner := if present (key i) sys.committed then Function.update sys.owner (key i) (some i)
          else sys.owner
        lockOrder := sys.lockOrder ++ [i] }) :
    Guarded rules present key initial order
      { sys.proceed i program with
        owner := if present (key i) sys.committed then Function.update sys.owner (key i) (some i)
          else sys.owner
        lockOrder := sys.lockOrder ++ [i] } := by
  refine guarded.move lawful moved guarded.nodup guarded.commits (fun _ _ member => member) (.inl rfl)
    ?_ (.inl ⟨fresh, ?_⟩)
  · intro k owns
    by_cases here : present (key i) sys.committed = true
    · by_cases same : k = key i
      · exact ⟨same.symm, same ▸ here⟩
      · simp only [here, if_true, Function.update_of_ne same] at owns
        exact guarded.owners k i owns
    · rw [if_neg here] at owns
      exact guarded.owners k i owns
  · by_cases here : present (key i) sys.committed = true
    · simpa [System.proceed, free, clean, here] using safe
    · simpa [System.proceed, free, clean, here] using safe

/-- Every move of a client in its transaction. -/
theorem Guarded.step_safe (fresh : i ∉ order)
    (safe : (sys.client i).program.Safe rules i present (key i) (decide (sys.owner (key i) = some i))
      (sys.client i).staged sys.committed)
    (moved : sys.step present i = some after) :
    Guarded rules present key initial (order ++ sys.committing i) after := by
  have finds : rules.Finds i (decide (sys.owner (key i) = some i)) sys.committed sys.committed :=
    .refl lawful guarded.valid
  cases System.step_move moved with
  | close answer left =>
    rw [System.committing_lift left, List.append_nil]
    rw [left] at safe
    refine guarded.finish lawful moved ?_
    cases answer <;> exact safe
  | rollback left =>
    rw [System.committing, left, List.append_nil]
    rw [left] at safe
    exact guarded.finish lawful moved (safe _ finds)
  | query left | flush left =>
    rw [System.committing, left, List.append_nil]
    rw [left] at safe
    exact guarded.proceed lawful fresh moved (safe _ finds)
  | commit left =>
    rw [System.committing_commit left]
    rw [left] at safe
    obtain ⟨guarantees, reports⟩ := safe _ finds
    exact guarded.commit lawful fresh moved guarantees reports
  | keep left owned =>
    rw [System.committing, left, List.append_nil]
    rw [left] at safe
    obtain ⟨rfl, -, next⟩ := safe
    have safe := next _ finds
    refine guarded.proceed lawful fresh moved ?_
    simp only [owned, decide_true, Bool.true_or] at safe ⊢
    exact safe
  | lock left free =>
    rw [System.committing, left, List.append_nil]
    rw [left] at safe
    obtain ⟨rfl, clean, next⟩ := safe
    have clean := clean (by simp [free])
    have seen : sys.working i = sys.committed := by rw [System.working, clean]; rfl
    rw [seen] at moved ⊢
    have safe := next _ finds
    simp only [free, clean, reduceCtorEq, decide_false, Bool.false_or] at safe
    exact guarded.lock lawful fresh free clean safe moved

/-- Every move of a client that has ended its transaction. -/
theorem Guarded.step_reports (unlocked : sys.owner (key i) ≠ some i)
    (clean : (sys.client i).staged = id) (reports : (sys.client i).program.Reports rules i sys.committed)
    (moved : sys.step present i = some after) :
    Guarded rules present key initial (order ++ sys.committing i) after := by
  have finds : rules.Finds i false sys.committed sys.committed :=
    .refl lawful guarded.valid
  have seen : sys.working i = sys.committed := by rw [System.working, clean]; rfl
  cases System.step_move moved with
  | close answer left =>
    rw [System.committing_lift left, List.append_nil]
    rw [left] at reports
    refine guarded.finish lawful moved ?_
    cases answer <;> exact reports
  | rollback left =>
    rw [System.committing, left, List.append_nil]
    rw [left] at reports
    exact guarded.finish lawful moved reports
  | query left =>
    rw [System.committing, left, List.append_nil]
    rw [left] at reports
    have free : ∀ k, sys.owner k ≠ some i := by
      intro k owns
      obtain ⟨rfl, -⟩ := guarded.owners k i owns
      exact unlocked owns
    rw [seen] at moved ⊢
    refine guarded.move lawful moved guarded.nodup guarded.commits (fun _ _ member => member) (.inl rfl)
      (fun k owns => absurd owns (free k)) (.inr ⟨unlocked, ?_⟩)
    simpa [System.proceed, clean] using reports _ finds
  | keep left _ | lock left _ | flush left | commit left =>
    -- it locks, writes and commits nothing more
    rw [left] at reports
    exact reports.elim

theorem Guarded.step (moved : sys.step present i = some after) :
    Guarded rules present key initial (order ++ sys.committing i) after := by
  obtain ⟨fresh, safe⟩ | ⟨unlocked, clean, reports⟩ := guarded.phases i
  · exact guarded.step_safe lawful fresh safe moved
  · exact guarded.step_reports lawful unlocked clean reports moved

end Step

theorem Guarded.steps (lawful : rules.Lawful present key)
    (guarded : Guarded rules present key initial order sys) (schedule : List ι) :
    Guarded rules present key initial (order ++ sys.commitOrder present schedule)
      (sys.runSchedule present schedule) := by
  induction schedule generalizing order sys with
  | nil =>
    rw [System.commitOrder, List.append_nil]
    exact guarded
  | cons i schedule inductionHypothesis =>
    rw [System.commitOrder, ← List.append_assoc]
    change Guarded rules present key initial _
      (((sys.step present i).getD sys).runSchedule present schedule)
    cases moved : sys.step present i with
    | none =>
      rw [System.committing_waits moved, List.append_nil]
      exact inductionHypothesis guarded
    | some after => exact inductionHypothesis (guarded.step lawful moved)

/-- Safe clients, under every schedule. -/
theorem Guarded.runSchedule (lawful : rules.Lawful present key) {call : ι → Program σ κ δ ε α}
    (valid : rules.invariant initial)
    (safe : ∀ i, (call i).Safe rules i present (key i) false id initial) (schedule : List ι) :
    Guarded rules present key initial ((System.start call initial).commitOrder present schedule)
      ((System.start call initial).runSchedule present schedule) := by
  have start : Guarded rules present key initial [] (System.start call initial) := {
    nodup := .nil
    valid := valid
    commits := .nothing
    owners := fun k i owns => by cases owns
    phases := fun i => .inl ⟨List.not_mem_nil, safe i⟩ }
  exact start.steps lawful schedule

omit [DecidableEq κ] in
/-- What has been answered holds. -/
theorem Guarded.answered (guarded : Guarded rules present key initial order sys) {answer : Except ε α}
    (answered : sys.Answered i answer) : rules.answers i answer sys.committed := by
  rw [System.Answered] at answered
  obtain ⟨-, safe⟩ | ⟨-, -, reports⟩ := guarded.phases i
  · rw [answered] at safe
    cases answer <;> exact safe
  · rw [answered] at reports
    cases answer <;> exact reports

end

end

end SeismicIngest.Transaction
