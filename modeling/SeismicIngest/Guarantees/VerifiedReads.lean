import SeismicIngest.Verified.Reads

/-! # Only verified bytes leave the archive

The rows may hold anything here: nothing is assumed of offsets, lengths, digests
or data.
-/

namespace SeismicIngest

open Transaction Spans

variable {H : Bytes → String}

/-- A verified read succeeds exactly on certified rows, and returns the bytes of its
    window; it never fails with anything but `sealed_integrity_error`. -/
theorem verified_read_iff_certified (db : Store) (session : UploadSession) {begin stop : Int}
    (lower : 0 ≤ begin) (ordered : begin ≤ stop) (upper : stop ≤ session.totalBytes) :
    let chunks := db.chunksOf session.id
    let answer := ((verifiedSealedBytes H session begin stop).run db).1
    ((∃ data, answer = .ok data) ↔ Certified H session chunks) ∧
      (∀ data, answer = .ok data → data = slice (contentOf chunks) begin stop ∧
        (data.length : Int) = stop - begin ∧ ((contentOf chunks).length : Int) = session.totalBytes) ∧
      ((∃ data, answer = .ok data) ∨
        ∃ error, answer = .error (.upload error) ∧ error.code = .sealedIntegrityError) := by
  intro chunks answer
  have run : answer = (sealedBytesOf H session chunks begin stop).mapError .upload :=
    congrArg Prod.fst (run_verifiedSealedBytes session begin stop db)
  by_cases certified : Certified H session chunks
  · rw [sealedBytesOf_certified certified lower ordered] at run
    -- certified rows hold the whole package, so the window lies inside their content
    have length := certified.length
    refine ⟨⟨fun _ => certified, fun _ => ⟨_, run⟩⟩, ?_, .inl ⟨_, run⟩⟩
    intro data returned
    obtain rfl : slice (contentOf chunks) begin stop = data := by
      rw [run] at returned
      simpa [Except.mapError] using returned
    exact ⟨rfl, slice_length _ lower ordered (by omega), length⟩
  · -- whichever check fails first, the walk ends in the same code
    obtain ⟨error, code, refused⟩ := sealedBytesOf_refused certified begin stop
    rw [refused] at run
    have never : ¬ ∃ data, answer = .ok data := by
      rintro ⟨data, returned⟩
      rw [run] at returned
      cases returned
    exact ⟨⟨fun read => absurd read never, fun sound => absurd sound certified⟩,
      fun data returned => absurd ⟨data, returned⟩ never, .inr ⟨error, run, code⟩⟩

/-- A window of two intact rows, and the same window when the first row has lost its
    last byte. -/
theorem verified_read_iff_certified_window :
    let session : UploadSession := ⟨"s", 3, "d", 3, .sealed, some "d", none, 0⟩
    let intact : Store := ⟨[session], [⟨"s", 0, 2, 2, "d", [1, 2]⟩, ⟨"s", 2, 3, 1, "d", [3]⟩], [], []⟩
    let damaged : Store := ⟨[session], [⟨"s", 0, 2, 2, "d", [1]⟩, ⟨"s", 2, 3, 1, "d", [3]⟩], [], []⟩
    ((verifiedSealedBytes (fun _ => "d") session 1 3).run intact).1 = .ok [2, 3] ∧
      Certified (fun _ => "d") session (intact.chunksOf session.id) ∧
      ¬ Certified (fun _ => "d") session (damaged.chunksOf session.id) := by
  intro session intact damaged
  have read : ((verifiedSealedBytes (fun _ => "d") session 1 3).run intact).1 = .ok [2, 3] := rfl
  have onIntact := (verified_read_iff_certified (H := fun _ => "d") intact session
    (show (0 : Int) ≤ 1 by decide) (show (1 : Int) ≤ 3 by decide) (show (3 : Int) ≤ 3 by decide)).1
  have onDamaged := (verified_read_iff_certified (H := fun _ => "d") damaged session
    (show (0 : Int) ≤ 1 by decide) (show (1 : Int) ≤ 3 by decide) (show (3 : Int) ≤ 3 by decide)).1
  refine ⟨read, onIntact.mp ⟨_, read⟩, fun certified => ?_⟩
  obtain ⟨data, returned⟩ := onDamaged.mpr certified
  cases returned

end SeismicIngest
