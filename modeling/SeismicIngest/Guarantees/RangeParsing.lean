import SeismicIngest.Verified.RangeHeader

/-! # The `Range` parser reads its grammar

A header of the grammar is resolved by `rangeSpan`, and every other one is malformed.
The only exception that escapes is the `ValueError` of a boundary with more digits than
the interpreter converts.
-/

namespace SeismicIngest

section

/-- The interpreter converts whatever boundaries the header has. -/
def Readable (header : String) : Prop :=
  ∀ first last, RangeForm header.toList first last → Convertible first last

theorem readable_of_short {header : String} (short : header.toList.length ≤ 4300) :
    Readable header := by
  rintro first last ⟨⟨unit, -, spelled⟩, -, -, -⟩
  rw [spelled] at short
  simp only [List.length_append, List.length_cons] at short
  exact ⟨by omega, by omega⟩

/-! ## What a client sees -/

/-- The outcome of a header, without the texts that quote it. -/
inductive Verdict where
  | span (begin stop : Int)
  | refused (statusCode : Nat) (code : ErrorCode) (headers : List (String × String))
  | crashed
deriving DecidableEq

def verdict : Except Raised (Int × Int) → Verdict
  | .ok (begin, stop) => .span begin stop
  | .error (.upload error) => .refused error.statusCode error.code error.headers
  | .error _ => .crashed

/-- The verdict on a header of the grammar whose boundaries are converted. -/
def rangeVerdict (first last : List Char) (total : Int) : Verdict :=
  if first ≠ [] ∧ last ≠ [] ∧ decimal last < decimal first then .refused 400 .invalidRange []
  else
    match rangeSpan first last total with
    | some (begin, stop) => .span begin stop
    | none => .refused 416 .rangeNotSatisfiable [("Content-Range", s!"bytes */{total}")]

section Form

variable {header : String} {first last : List Char} {total : Int}

theorem verdict_form (form : RangeForm header.toList first last)
    (convertible : Convertible first last) :
    verdict (parseSingleRange header total) = rangeVerdict first last total := by
  rw [rangeVerdict]
  by_cases reversed : first ≠ [] ∧ last ≠ [] ∧ decimal last < decimal first
  · have disordered : ¬ Ordered first last := fun ordered =>
      absurd (ordered reversed.1 reversed.2.1) (Nat.not_le.mpr reversed.2.2)
    rw [if_pos reversed]
    obtain ⟨message, refused⟩ := parseSingleRange_reversed form convertible disordered
    rw [refused]
    rfl
  · have ordered : Ordered first last := fun given bounded =>
      Nat.not_lt.mp fun after => reversed ⟨given, bounded, after⟩
    rw [if_neg reversed, parseSingleRange_ordered form convertible ordered]
    cases rangeSpan first last total <;> rfl

/-- Zeros in front of a boundary that is there. -/
theorem rangeVerdict_leadingZeros {m n : Nat} (firstKept : first = [] → m = 0)
    (lastKept : last = [] → n = 0) :
    rangeVerdict (List.replicate m '0' ++ first) (List.replicate n '0' ++ last) total =
      rangeVerdict first last total := by
  have empty : ∀ {count : Nat} {text : List Char}, (text = [] → count = 0) →
      (List.replicate count '0' ++ text = [] ↔ text = []) := by
    intro count text kept
    rw [List.append_eq_nil_iff, List.replicate_eq_nil_iff]
    exact ⟨fun both => both.2, fun nothing => ⟨kept nothing, nothing⟩⟩
  simp only [rangeVerdict, rangeSpan, decimal_leadingZeros, ne_eq, empty firstKept, empty lastKept]

end Form

/-! ## The parser -/

/-- The parser on one header. -/
structure RangeParsed (header : String) (total : Int) : Prop where
  malformed_iff : (∃ error, parseSingleRange header total = .error (.upload error) ∧
      error.statusCode = 400 ∧ error.code = .invalidRange) ↔
    ¬ ∃ first last, RangeForm header.toList first last ∧ Ordered first last
  resolved : ∀ {first last}, RangeForm header.toList first last → Ordered first last →
    parseSingleRange header total =
      match rangeSpan first last total with
      | some span => .ok span
      | none => .error (.upload (unsatisfiable header total))
  within : ∀ {begin stop}, parseSingleRange header total = .ok (begin, stop) →
    0 ≤ begin ∧ begin < stop ∧ stop ≤ total
  contentRange : ∀ {error}, parseSingleRange header total = .error (.upload error) →
    error.statusCode = 416 → error.headers = [("Content-Range", s!"bytes */{total}")]
  outcomes : (∃ span, parseSingleRange header total = .ok span) ∨
    ∃ error, parseSingleRange header total = .error (.upload error) ∧
      (error.statusCode = 400 ∧ error.code = .invalidRange ∨
        error.statusCode = 416 ∧ error.code = .rangeNotSatisfiable)
  leadingZeros : ∀ {unit first last m n} {shorter : String}, ByteUnit unit → Digits first →
    Digits last → first ≠ [] ∨ last ≠ [] → (first = [] → m = 0) → (last = [] → n = 0) →
      shorter.toList = unit ++ '=' :: (first ++ '-' :: last) →
        header.toList = unit ++ '=' :: ((List.replicate m '0' ++ first) ++
          '-' :: (List.replicate n '0' ++ last)) →
          verdict (parseSingleRange header total) = verdict (parseSingleRange shorter total)

/-- A header is resolved, or malformed. -/
theorem parse_cases {header : String} (readable : Readable header) (total : Int) :
    (∃ first last, RangeForm header.toList first last ∧ Ordered first last ∧
        parseSingleRange header total =
          match rangeSpan first last total with
          | some span => .ok span
          | none => .error (.upload (unsatisfiable header total))) ∨
      ∃ message, parseSingleRange header total = .error (.upload (invalidRange header message)) := by
  obtain resolved | malformed | ⟨first, last, form, long, -⟩ := parseSingleRange_cases header total
  · exact .inl resolved
  · exact .inr malformed
  · exact absurd (readable first last form) long

/-- The parser accepts its grammar, and resolves it. -/
theorem range_parser_correct {header : String} {total : Int} (readable : Readable header)
    (nonneg : 0 ≤ total) : RangeParsed header total := by
  have resolved : ∀ {first last}, RangeForm header.toList first last → Ordered first last →
      parseSingleRange header total =
        match rangeSpan first last total with
        | some span => .ok span
        | none => .error (.upload (unsatisfiable header total)) :=
    fun form ordered => parseSingleRange_ordered form (readable _ _ form) ordered
  refine {
    malformed_iff := ?_
    resolved := resolved
    within := parseSingleRange_within nonneg
    contentRange := ?_
    outcomes := ?_
    leadingZeros := ?_ }
  · constructor
    · rintro ⟨error, refused, status, -⟩ ⟨first, last, form, ordered⟩
      rw [resolved form ordered] at refused
      split at refused
      · cases refused
      · cases refused
        cases status
    · intro other
      obtain ⟨first, last, form, ordered, -⟩ | ⟨message, refused⟩ := parse_cases readable total
      · exact absurd ⟨first, last, form, ordered⟩ other
      · exact ⟨_, refused, rfl, rfl⟩
  · intro error refused status
    obtain ⟨first, last, form, ordered, answer⟩ | ⟨message, malformed⟩ := parse_cases readable total
    · rw [answer] at refused
      split at refused
      · cases refused
      · cases refused
        rfl
    · rw [malformed] at refused
      cases refused
      cases status
  · obtain ⟨first, last, form, ordered, answer⟩ | ⟨message, malformed⟩ := parse_cases readable total
    · rw [answer]
      split
      · exact .inl ⟨_, rfl⟩
      · exact .inr ⟨_, rfl, .inr ⟨rfl, rfl⟩⟩
    · exact .inr ⟨_, malformed, .inl ⟨rfl, rfl⟩⟩
  · intro unit first last m n shorter bytes firstDigits lastDigits given firstKept lastKept spelled
      padded
    have form : RangeForm shorter.toList first last := ⟨⟨unit, bytes, spelled⟩, firstDigits, lastDigits, given⟩
    have paddedForm : RangeForm header.toList (List.replicate m '0' ++ first)
        (List.replicate n '0' ++ last) :=
      ⟨⟨unit, bytes, padded⟩, digits_leadingZeros m firstDigits, digits_leadingZeros n lastDigits,
        given.imp (fun some' => List.append_ne_nil_of_right_ne_nil _ some')
          (fun some' => List.append_ne_nil_of_right_ne_nil _ some')⟩
    -- the padded boundaries are the longer ones
    obtain ⟨firstShort, lastShort⟩ := readable _ _ paddedForm
    rw [List.length_append] at firstShort lastShort
    rw [verdict_form paddedForm (readable _ _ paddedForm),
      verdict_form form ⟨by omega, by omega⟩, rangeVerdict_leadingZeros firstKept lastKept]

/-- A header with a mixed-case unit and a leading zero, over a package of four bytes. -/
theorem range_parser_correct_padded :
    parseSingleRange "ByTeS=01-9" 4 = .ok (1, 4) ∧
      verdict (parseSingleRange "ByTeS=01-9" 4) = verdict (parseSingleRange "ByTeS=1-9" 4) := by
  have parsed := range_parser_correct
    (readable_of_short (show ("ByTeS=01-9".toList).length ≤ 4300 by decide)) (show (0 : Int) ≤ 4 by decide)
  have form : RangeForm "ByTeS=01-9".toList ['0', '1'] ['9'] :=
    ⟨⟨['B', 'y', 'T', 'e', 'S'], by simp [ByteUnit], by decide⟩, by simp [Digits], by simp [Digits],
      by simp⟩
  refine ⟨(parsed.resolved form fun _ _ => by decide).trans (by decide), ?_⟩
  exact @RangeParsed.leadingZeros _ _ parsed ['B', 'y', 'T', 'e', 'S'] ['1'] ['9'] 1 0 _
    (by simp [ByteUnit]) (by simp [Digits]) (by simp [Digits]) (by simp) (by simp) (by simp)
    (by decide) (by decide)

/-! ## What escapes it -/

/-- A span, or an error with a status for a bad range. -/
def Handled (answer : Except Raised (Int × Int)) : Prop :=
  (∃ span, answer = .ok span) ∨
    ∃ error, answer = .error (.upload error) ∧ (error.statusCode = 400 ∨ error.statusCode = 416)

/-- The parser handles a header when, and only when, its boundaries are converted. -/
theorem range_handled_iff_readable (header : String) (total : Int) :
    Handled (parseSingleRange header total) ↔ Readable header := by
  constructor
  · intro handled first last form
    by_cases convertible : Convertible first last
    · exact convertible
    · rw [parseSingleRange_long form convertible] at handled
      obtain ⟨span, parsed⟩ | ⟨error, refused, -⟩ := handled
      · cases parsed
      · cases refused
  · intro readable
    obtain ⟨first, last, form, ordered, answer⟩ | ⟨message, malformed⟩ := parse_cases readable total
    · rw [answer]
      split
      · exact .inl ⟨_, rfl⟩
      · exact .inr ⟨_, rfl, .inr rfl⟩
    · exact .inr ⟨_, malformed, .inl rfl⟩

/-- `bytes=0…0-`: the whole package, however many zeros it is asked with. -/
def zerosHeader (count : Nat) : String :=
  String.ofList (['b', 'y', 't', 'e', 's'] ++ '=' :: (List.replicate count '0' ++ '-' :: []))

theorem zerosHeader_form {count : Nat} (positive : 0 < count) :
    RangeForm (zerosHeader count).toList (List.replicate count '0') [] where
  spelled := ⟨['b', 'y', 't', 'e', 's'], by simp [ByteUnit], String.toList_ofList⟩
  firstDigits := by
    intro c member
    rw [(List.mem_replicate.mp member).2]
    rfl
  lastDigits := fun _ member => absurd member List.not_mem_nil
  given := .inl (List.ne_nil_of_length_pos (by rw [List.length_replicate]; exact positive))

theorem zerosHeader_crashes {count : Nat} (long : 4300 < count) (total : Int) :
    parseSingleRange (zerosHeader count) total = .error .valueError := by
  refine parseSingleRange_long (zerosHeader_form (by omega)) fun convertible => ?_
  have short := convertible.1
  rw [List.length_replicate] at short
  omega

/-- With 4301 zeros it ends in a `ValueError`. -/
theorem range_handled_overlong :
    parseSingleRange (zerosHeader 4301) 1 = .error .valueError ∧
      ¬ ∀ (header : String) (total : Int), 0 ≤ total → Handled (parseSingleRange header total) := by
  have crashes := zerosHeader_crashes (show 4300 < 4301 by omega) 1
  refine ⟨crashes, fun handled => ?_⟩
  obtain ⟨span, parsed⟩ | ⟨error, refused, -⟩ := handled (zerosHeader 4301) 1 (by decide)
  · rw [crashes] at parsed
    cases parsed
  · rw [crashes] at refused
    cases refused

end

end SeismicIngest
