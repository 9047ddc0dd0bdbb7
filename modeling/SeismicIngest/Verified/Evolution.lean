import SeismicIngest.Verified.Steps

/-! # How a session evolves

`Evolves` relates the rows of a session to its rows at any later time: the
registration stands, archived bytes stay where they are, and a terminal session is
frozen.  It is reflexive and transitive, every call keeps it
(`RowEffect.evolves`), and so it holds along every run (`evolves_of_later`).
-/

namespace SeismicIngest

open Transaction Spans

section

variable {H : Bytes → String}

/-! ## The relation -/

structure Evolves (session : UploadSession) (chunks : List Chunk) (later : UploadSession)
    (laterChunks : List Chunk) : Prop where
  total : later.totalBytes = session.totalBytes
  whole : later.wholeSha256 = session.wholeSha256
  archived : contentOf chunks <+: contentOf laterChunks
  confirmed : session.confirmedOffset ≤ later.confirmedOffset
  frozen : session.status ≠ .active → later = session ∧ contentOf laterChunks = contentOf chunks
  failed : session.status = .failed → laterChunks = chunks

namespace Evolves

variable {session middle later : UploadSession} {chunks middleChunks laterChunks : List Chunk}

theorem refl (session : UploadSession) (chunks : List Chunk) :
    Evolves session chunks session chunks :=
  ⟨rfl, rfl, List.prefix_refl _, Int.le_refl _, fun _ => ⟨rfl, rfl⟩, fun _ => rfl⟩

theorem trans (first : Evolves session chunks middle middleChunks)
    (second : Evolves middle middleChunks later laterChunks) :
    Evolves session chunks later laterChunks where
  total := second.total.trans first.total
  whole := second.whole.trans first.whole
  archived := first.archived.trans second.archived
  confirmed := Int.le_trans first.confirmed second.confirmed
  frozen := by
    intro terminal
    obtain ⟨rfl, same⟩ := first.frozen terminal
    obtain ⟨rfl, sameLater⟩ := second.frozen terminal
    exact ⟨rfl, sameLater.trans same⟩
  failed := by
    intro terminal
    obtain ⟨rfl, -⟩ := first.frozen (by simp [terminal])
    exact (second.failed terminal).trans (first.failed terminal)

/-- The status moves at most once. -/
theorem status (evolves : Evolves session chunks later laterChunks) :
    later.status = session.status ∨
      session.status = .active ∧ (later.status = .sealed ∨ later.status = .failed) := by
  by_cases active : session.status = .active
  · rw [active]
    cases later.status with
    | active => exact .inl rfl
    | sealed => exact .inr ⟨rfl, .inl rfl⟩
    | failed => exact .inr ⟨rfl, .inr rfl⟩
  · exact .inl (congrArg UploadSession.status (evolves.frozen active).1)

end Evolves

/-- Once a session is stored, it stays, and evolves. -/
def RowsEvolve (before after : SessionRows) : Prop :=
  ∀ session, before.row = some session →
    ∃ later, after.row = some later ∧ Evolves session before.chunks later after.chunks

theorem RowsEvolve.refl (rows : SessionRows) : RowsEvolve rows rows :=
  fun session found => ⟨session, found, .refl session rows.chunks⟩

theorem RowsEvolve.trans {first second third : SessionRows} (earlier : RowsEvolve first second)
    (later : RowsEvolve second third) : RowsEvolve first third := by
  intro session found
  obtain ⟨middle, middleFound, firstEvolves⟩ := earlier session found
  obtain ⟨last, lastFound, secondEvolves⟩ := later middle middleFound
  exact ⟨last, lastFound, firstEvolves.trans secondEvolves⟩

/-! ## One call -/

/-- What the row of a session becomes when a chunk is stored. -/
theorem ForwardOutcome.ended {env : Env} {session ended : UploadSession} {start declaredLength : Int}
    {archived : Bytes} {chunk : Chunk} {finalized : Bool} {writes : List Write}
    (outcome : ForwardOutcome H env session start declaredLength archived chunk
      (.append ended finalized writes)) :
    ended.id = session.id ∧ ended.totalBytes = session.totalBytes ∧
      ended.wholeSha256 = session.wholeSha256 ∧ ended.confirmedOffset = start + declaredLength := by
  cases outcome with
  | advanced _ | failed _ _ => exact ⟨rfl, rfl, rfl, rfl⟩
  | sealed last _ _ => exact ⟨rfl, rfl, rfl, last.symm⟩

/-- The session stays as it is until its last byte is stored, and is sealed or failed
    by it according to the digest of the whole. -/
theorem ForwardOutcome.status {env : Env} {session ended : UploadSession} {start declaredLength : Int}
    {archived : Bytes} {chunk : Chunk} {finalized : Bool} {writes : List Write}
    (outcome : ForwardOutcome H env session start declaredLength archived chunk
      (.append ended finalized writes)) :
    (start + declaredLength < session.totalBytes ∧ ended.status = session.status ∧
        finalized = false) ∨
      (start + declaredLength = session.totalBytes ∧ finalized = true ∧
        ((H archived = session.wholeSha256 ∧ ended.status = .sealed) ∨
          (H archived ≠ session.wholeSha256 ∧ ended.status = .failed))) := by
  cases outcome with
  | advanced more => exact .inl ⟨more, rfl, rfl⟩
  | sealed last same _ => exact .inr ⟨last, rfl, .inl ⟨same, rfl⟩⟩
  | failed last differs => exact .inr ⟨last, rfl, .inr ⟨differs, rfl⟩⟩

theorem RowEffect.evolves {call : Call} {db : Store} {id : String} {after : SessionRows}
    (effect : RowEffect H call db id after) : RowsEvolve (db.rowsOf id) after := by
  intro session found
  cases effect with
  | unchanged => exact ⟨session, found, .refl _ _⟩
  | created request drawn taken =>
    -- a stored session cannot be created again
    exact (taken.notFound drawn found).elim
  | stored request own forward outcome =>
    rename_i stored ended start declaredLength chunkDigest payload finalized writes
    subst own
    obtain rfl : stored = session := Option.some.inj (forward.found.symm.trans found)
    obtain ⟨-, total, whole, confirmed⟩ := outcome.ended
    have frontier := forward.frontier
    have positive := forward.positive
    -- it was active, so nothing was frozen yet
    refine ⟨ended, rfl, total, whole, ?_, by omega, ?_, ?_⟩
    · rw [Forward.content]
      exact List.prefix_append _ _
    · exact fun terminal => absurd forward.active terminal
    · exact fun failed => by rw [forward.active] at failed; cases failed
  | compacted request stored isSealed positive answered =>
    obtain rfl := Option.some.inj (stored.symm.trans found)
    -- new rows of the same content
    have content := plannedRows_content H id (contentOf (db.rowsOf id).chunks) positive
    refine ⟨_, rfl, rfl, rfl, ?_, Int.le_refl _, fun _ => ⟨rfl, content⟩, ?_⟩
    · rw [content]
    · exact fun failed => by rw [isSealed] at failed; cases failed

/-! ## Every run -/

theorem evolves_of_later {before after : Store} {id : String} {session : UploadSession}
    (sound : Sound H before) (later : Later H before after)
    (found : before.session? id = some session) :
    ∃ ended, after.session? id = some ended ∧
      Evolves session (before.rowsOf id).chunks ended (after.rowsOf id).chunks :=
  (later.rows_induction RowsEvolve.refl (fun _ _ _ => RowsEvolve.trans)
    (fun _ effect => effect.evolves) sound).2 session found

end

end SeismicIngest
