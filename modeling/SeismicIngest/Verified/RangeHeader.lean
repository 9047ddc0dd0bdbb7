import SeismicIngest.Model.Routes
import SeismicIngest.Text.Case

/-! # What a `Range` header says

`RangeForm` is the grammar of a single byte range, and `rangeSpan` what its two
boundaries ask of a package.  The guards of `_parse_single_range` let exactly this
grammar through (`parseSingleRange_form`, `parseSingleRange_malformed`); what follows
them is arithmetic on two numbers, each read by `int`.  A span printed as a closed range
is read back as itself (`parseSingleRange_closed`).
-/

namespace SeismicIngest

/-! ## `partition` -/

section Partition

variable {sep : Char}

theorem partition_append {front : List Char} (absent : sep ∉ front) (rest : List Char) :
    partition sep (front ++ sep :: rest) = (front, true, rest) := by
  induction front with
  | nil => simp [partition]
  | cons head tail inductionHypothesis =>
    obtain ⟨different, absentTail⟩ := not_or.mp (List.mem_cons.not.mp absent)
    rw [List.cons_append, partition, if_neg (Ne.symm different), inductionHypothesis absentTail]

/-- What is cut at a separator was joined by it. -/
theorem partition_found {text front rest : List Char}
    (cut : partition sep text = (front, true, rest)) : text = front ++ sep :: rest := by
  induction text generalizing front with
  | nil => simp [partition] at cut
  | cons head tail inductionHypothesis =>
    rw [partition] at cut
    split at cut
    · rename_i here
      cases cut
      rw [here, List.nil_append]
    · cases tailCut : partition sep tail with
      | mk tailFront others =>
        obtain ⟨found, tailRest⟩ := others
        rw [tailCut] at cut
        cases cut
        rw [inductionHypothesis tailCut, List.cons_append]

theorem partition_missed {text front rest : List Char}
    (cut : partition sep text = (front, false, rest)) : sep ∉ text := by
  induction text generalizing front with
  | nil => exact List.not_mem_nil
  | cons head tail inductionHypothesis =>
    rw [partition] at cut
    split at cut
    · cases cut
    · rename_i different
      cases tailCut : partition sep tail with
      | mk tailFront others =>
        obtain ⟨found, tailRest⟩ := others
        rw [tailCut] at cut
        cases cut
        exact List.not_mem_cons_of_ne_of_not_mem (Ne.symm different) (inductionHypothesis tailCut)

end Partition

/-! ## Digits -/

section Digits

/-- A possibly empty string of ASCII digits. -/
def Digits (text : List Char) : Prop :=
  ∀ c ∈ text, c.isDigit = true

/-- No separator of the grammar is a digit. -/
theorem Digits.absent {text : List Char} (digits : Digits text) {c : Char}
    (other : c.isDigit = false) : c ∉ text := by
  intro member
  rw [digits c member] at other
  cases other

theorem Digits.checks {text : List Char} (digits : Digits text) (nonempty : text ≠ []) :
    isAscii text = true ∧ isDigits text = true := by
  constructor
  · rw [isAscii, List.all_eq_true]
    intro c member
    have range : 48 ≤ c.toNat ∧ c.toNat ≤ 57 := Char.isDigit_iff_toNat.mp (digits c member)
    simp only [decide_eq_true_eq]
    omega
  · simp only [isDigits, decide_eq_true_eq]
    exact ⟨nonempty, List.all_eq_true.mpr digits⟩

theorem digits_of_isDigits {text : List Char} (checked : isDigits text = true) : Digits text := by
  simp only [isDigits, decide_eq_true_eq] at checked
  exact List.all_eq_true.mp checked.2

theorem decimal_eq (text : List Char) : decimal text = Nat.ofDigitChars 10 text 0 :=
  Nat.ofDigitChars_eq_foldl.symm

/-- `int(str(n))` is `n`. -/
theorem decimal_toDigits (n : Nat) : decimal (Nat.toDigits 10 n) = n := by
  rw [decimal_eq, Nat.ofDigitChars_ten_toDigits]

theorem decimal_leadingZeros (count : Nat) (text : List Char) :
    decimal (List.replicate count '0' ++ text) = decimal text := by
  rw [decimal_eq, decimal_eq, Nat.ofDigitChars_append, Nat.ofDigitChars_replicate_zero, Nat.mul_zero]

theorem digits_toDigits (n : Nat) : Digits (Nat.toDigits 10 n) :=
  fun _ member => Nat.isDigit_of_mem_toDigits (by decide) (by decide) member

theorem digits_leadingZeros (count : Nat) {text : List Char} (digits : Digits text) :
    Digits (List.replicate count '0' ++ text) := by
  intro c member
  obtain zero | rest := List.mem_append.mp member
  · rw [(List.mem_replicate.mp zero).2]
    rfl
  · exact digits c rest

end Digits

/-! ## The grammar -/

/-- The unit `bytes`, in any mix of cases. -/
def ByteUnit (unit : List Char) : Prop :=
  List.Forall₂ (fun c letter => c = letter ∨ c = letter.toUpper) unit ['b', 'y', 't', 'e', 's']

/-- `U=F-L`: the unit and two boundaries of digits, one of which may be missing. -/
structure RangeForm (text first last : List Char) : Prop where
  spelled : ∃ unit, ByteUnit unit ∧ text = unit ++ '=' :: (first ++ '-' :: last)
  firstDigits : Digits first
  lastDigits : Digits last
  given : first ≠ [] ∨ last ≠ []

theorem toLower_eq_iff {c letter : Char} (lower : letter ∈ ['b', 'y', 't', 'e', 's']) :
    c.toLower = letter ↔ c = letter ∨ c = letter.toUpper := by
  simp only [List.mem_cons, List.not_mem_nil, or_false] at lower
  have shifted : letter.toUpper.toNat + 32 = letter.toNat ∧ 97 ≤ letter.toNat ∧
      letter.toNat ≤ 122 := by
    obtain rfl | rfl | rfl | rfl | rfl := lower <;> decide
  rw [← Char.toNat_inj, ← Char.toNat_inj, ← Char.toNat_inj, Text.toNat_toLower]
  split <;> omega

/-- The comparison of `unit.lower()` is the grammar's. -/
theorem byteUnit_iff {unit : List Char} :
    unit.map Char.toLower = "bytes".toList ↔ ByteUnit unit := by
  have letters : "bytes".toList = ['b', 'y', 't', 'e', 's'] := by decide
  have spells : ∀ word : List Char, (∀ letter ∈ word, letter ∈ ['b', 'y', 't', 'e', 's']) →
      (unit.map Char.toLower = word ↔
        List.Forall₂ (fun c letter => c = letter ∨ c = letter.toUpper) unit word) := by
    intro word lower
    induction unit generalizing word with
    | nil => cases word <;> simp
    | cons c unit inductionHypothesis =>
      cases word with
      | nil => simp
      | cons letter word =>
        rw [List.map_cons, List.cons.injEq, List.forall₂_cons,
          toLower_eq_iff (lower letter List.mem_cons_self),
          inductionHypothesis word fun other member => lower other (List.mem_cons_of_mem _ member)]
  rw [letters]
  exact spells _ fun _ member => member

/-- The unit holds no separator. -/
theorem ByteUnit.absent {unit : List Char} (bytes : ByteUnit unit) : '=' ∉ unit := by
  intro member
  have lowered := byteUnit_iff.mpr bytes
  have inside : Char.toLower '=' ∈ unit.map Char.toLower := List.mem_map_of_mem member
  rw [lowered] at inside
  revert inside
  decide

/-! ## The guards -/

section Guards

variable {header : String} {first last : List Char} {total : Int}

/-- A header of the grammar passes every guard. -/
theorem parseSingleRange_form (form : RangeForm header.toList first last) :
    parseSingleRange header total =
      if first = [] then suffixRange header last total else closedRange header first last total := by
  obtain ⟨⟨unit, bytes, spelled⟩, firstDigits, lastDigits, given⟩ := form
  have unitCut : partition '=' header.toList = (unit, true, first ++ '-' :: last) := by
    rw [spelled]
    exact partition_append bytes.absent _
  have dashCut : partition '-' (first ++ '-' :: last) = (first, true, last) :=
    partition_append (firstDigits.absent rfl) _
  have noComma : ',' ∉ first ++ '-' :: last := by
    simp [firstDigits.absent, lastDigits.absent, List.mem_append, List.mem_cons, Char.isDigit]
  have oneDash : (first ++ '-' :: last).count '-' = 1 := by
    rw [List.count_append, List.count_cons_self, List.count_eq_zero.mpr (firstDigits.absent rfl),
      List.count_eq_zero.mpr (lastDigits.absent rfl)]
  have firstChecked : ¬ (first ≠ [] ∧ ¬ (isAscii first = true ∧ isDigits first = true)) :=
    fun refused => refused.2 (firstDigits.checks refused.1)
  have lastChecked : ¬ (last ≠ [] ∧ ¬ (isAscii last = true ∧ isDigits last = true)) :=
    fun refused => refused.2 (lastDigits.checks refused.1)
  have some' : ¬ (first = [] ∧ last = []) := fun both => given.elim (· both.1) (· both.2)
  simp only [parseSingleRange, unitCut, byteUnit_iff.mpr bytes, noComma, oneDash, dashCut,
    Bool.not_true, Bool.false_eq_true, ne_eq, not_true_eq_false, or_self, if_false]
  rw [if_neg some', if_neg firstChecked, if_neg lastChecked]

/-- Any other header is malformed. -/
theorem parseSingleRange_malformed
    (other : ¬ ∃ first last, RangeForm header.toList first last) :
    ∃ message, parseSingleRange header total = .error (.upload (invalidRange header message)) := by
  cases unitCut : partition '=' header.toList with
  | mk unit others =>
    obtain ⟨unitFound, spec⟩ := others
    cases dashCut : partition '-' spec with
    | mk first others =>
      obtain ⟨dashFound, last⟩ := others
      simp only [parseSingleRange, unitCut, dashCut]
      -- every guard that refuses does so in the same shape
      split
      · exact ⟨_, rfl⟩
      · rename_i unitPassed
        split
        · exact ⟨_, rfl⟩
        · split
          · exact ⟨_, rfl⟩
          · rename_i oneDash
            split
            · exact ⟨_, rfl⟩
            · rename_i given
              split
              · exact ⟨_, rfl⟩
              · rename_i firstPassed
                split
                · exact ⟨_, rfl⟩
                · -- and what passes them all is of the form
                  rename_i lastPassed
                  obtain ⟨unitHere, lowered⟩ := not_or.mp unitPassed
                  obtain rfl : unitFound = true := by simpa using unitHere
                  obtain rfl : dashFound = true := by
                    cases dashFound with
                    | true => rfl
                    | false =>
                      have none' := List.count_eq_zero.mpr (partition_missed dashCut)
                      rw [none'] at oneDash
                      exact absurd Nat.zero_ne_one oneDash
                  have digits : ∀ {text : List Char},
                      ¬ (text ≠ [] ∧ ¬ (isAscii text = true ∧ isDigits text = true)) →
                        Digits text := by
                    intro text passed
                    by_cases empty : text = []
                    · rw [empty]
                      exact fun _ member => absurd member List.not_mem_nil
                    · exact digits_of_isDigits
                        (not_not.mp (not_and.mp passed empty)).2
                  refine absurd ⟨first, last, ⟨unit, byteUnit_iff.mp (not_not.mp lowered), ?_⟩,
                    digits firstPassed, digits lastPassed, not_and_or.mp given⟩ other
                  rw [partition_found unitCut, partition_found dashCut]

end Guards

/-! ## The two numbers -/

/-- The interpreter converts both boundaries. -/
def Convertible (first last : List Char) : Prop :=
  first.length ≤ 4300 ∧ last.length ≤ 4300

/-- A range that starts no later than it ends. -/
def Ordered (first last : List Char) : Prop :=
  first ≠ [] → last ≠ [] → decimal first ≤ decimal last

/-- The half-open span the boundaries ask of a package of `total` bytes, or nothing when
    no byte of it is meant. -/
def rangeSpan (first last : List Char) (total : Int) : Option (Int × Int) :=
  if first = [] then
    if decimal last = 0 ∨ total = 0 then none else some (max (total - decimal last) 0, total)
  else if total ≤ decimal first then none
  else some (decimal first, if last = [] then total else min (decimal last + 1) total)

/-- A span of some bytes of the package. -/
theorem rangeSpan_within {first last : List Char} {total begin stop : Int} (nonneg : 0 ≤ total)
    (ordered : Ordered first last) (asked : rangeSpan first last total = some (begin, stop)) :
    0 ≤ begin ∧ begin < stop ∧ stop ≤ total := by
  rw [rangeSpan] at asked
  split at asked
  · split at asked
    · cases asked
    · rename_i some'
      simp only [Option.some.injEq, Prod.mk.injEq] at asked
      omega
  · rename_i given
    split at asked
    · cases asked
    · simp only [Option.some.injEq, Prod.mk.injEq] at asked
      by_cases bare : last = []
      · simp only [bare, if_true] at asked
        omega
      · have := ordered given bare
        simp only [bare, if_false] at asked
        omega

section Numbers

variable {header : String} {first last : List Char} {total : Int}

theorem pyInt_short {text : List Char} (short : text.length ≤ 4300) :
    pyInt text = .ok (decimal text) :=
  if_neg (Nat.not_lt.mpr short)

theorem pyInt_long {text : List Char} (long : 4300 < text.length) : pyInt text = .error .valueError :=
  if_pos long

variable (form : RangeForm header.toList first last)

include form

/-- Ordered boundaries are resolved. -/
theorem parseSingleRange_ordered (convertible : Convertible first last) (ordered : Ordered first last) :
    parseSingleRange header total =
      match rangeSpan first last total with
      | some span => .ok span
      | none => .error (.upload (unsatisfiable header total)) := by
  rw [parseSingleRange_form form, rangeSpan]
  by_cases suffix : first = []
  · simp only [suffix, if_true, suffixRange, pyInt_short convertible.2, bind, Except.bind]
    by_cases nothing : decimal last = 0 ∨ total = 0
    · simp [nothing]
    · simp [nothing, pure, Except.pure]
  · simp only [suffix, if_false, closedRange, pyInt_short convertible.1, bind, Except.bind]
    by_cases bare : last = []
    · simp only [bare, if_true]
      by_cases beyond : total ≤ decimal first
      · simp [beyond, pure, Except.pure]
      · simp [beyond, pure, Except.pure]
    · have inOrder := ordered suffix bare
      simp only [bare, if_false, pyInt_short convertible.2]
      by_cases beyond : total ≤ decimal first
      · simp [beyond, Functor.map, Except.map, inOrder]
      · simp [beyond, Functor.map, Except.map, inOrder, pure, Except.pure]

/-- Boundaries in the wrong order are malformed. -/
theorem parseSingleRange_reversed (convertible : Convertible first last)
    (reversed : ¬ Ordered first last) :
    ∃ message, parseSingleRange header total = .error (.upload (invalidRange header message)) := by
  rw [Ordered, Classical.not_imp, Classical.not_imp] at reversed
  obtain ⟨given, bounded, after⟩ := reversed
  rw [parseSingleRange_form form, if_neg given]
  simp only [closedRange, pyInt_short convertible.1, pyInt_short convertible.2, bounded, if_false,
    bind, Except.bind, Functor.map, Except.map]
  rw [if_pos (by omega)]
  exact ⟨_, rfl⟩

/-- A boundary of more digits than the interpreter converts is a `ValueError`. -/
theorem parseSingleRange_long (long : ¬ Convertible first last) :
    parseSingleRange header total = .error .valueError := by
  rw [parseSingleRange_form form]
  by_cases suffix : first = []
  · have lastLong : 4300 < last.length := by
      rw [Convertible, suffix] at long
      simpa using long
    simp only [suffix, if_true, suffixRange, pyInt_long lastLong]
    rfl
  · rw [if_neg suffix, closedRange]
    by_cases firstLong : 4300 < first.length
    · rw [pyInt_long firstLong]
      rfl
    · have lastLong : 4300 < last.length := by
        rw [Convertible] at long
        omega
      have bounded : last ≠ [] := by
        rintro rfl
        exact absurd lastLong (by decide)
      have firstShort : first.length ≤ 4300 := by omega
      simp only [pyInt_short firstShort, bounded, if_false, pyInt_long lastLong]
      rfl

end Numbers

/-! ## Every header -/

section Headers

variable {header : String} {total : Int}

/-- A header is resolved, malformed, or too long for the interpreter. -/
theorem parseSingleRange_cases (header : String) (total : Int) :
    (∃ first last, RangeForm header.toList first last ∧ Ordered first last ∧
        parseSingleRange header total =
          match rangeSpan first last total with
          | some span => .ok span
          | none => .error (.upload (unsatisfiable header total))) ∨
      (∃ message,
        parseSingleRange header total = .error (.upload (invalidRange header message))) ∨
      ∃ first last, RangeForm header.toList first last ∧ ¬ Convertible first last ∧
        parseSingleRange header total = .error .valueError := by
  by_cases spelled : ∃ first last, RangeForm header.toList first last
  · obtain ⟨first, last, form⟩ := spelled
    by_cases convertible : Convertible first last
    · by_cases ordered : Ordered first last
      · exact .inl ⟨first, last, form, ordered, parseSingleRange_ordered form convertible ordered⟩
      · exact .inr (.inl (parseSingleRange_reversed form convertible ordered))
    · exact .inr (.inr ⟨first, last, form, convertible, parseSingleRange_long form convertible⟩)
  · exact .inr (.inl (parseSingleRange_malformed spelled))

theorem parseSingleRange_within (nonneg : 0 ≤ total) {begin stop : Int}
    (parsed : parseSingleRange header total = .ok (begin, stop)) :
    0 ≤ begin ∧ begin < stop ∧ stop ≤ total := by
  obtain ⟨first, last, form, ordered, answer⟩ | ⟨message, refused⟩ | ⟨first, last, -, -, refused⟩ :=
    parseSingleRange_cases header total
  · rw [answer] at parsed
    split at parsed
    · rename_i asked
      cases parsed
      exact rangeSpan_within nonneg ordered asked
    · cases parsed
  · rw [refused] at parsed
    cases parsed
  · rw [refused] at parsed
    cases parsed

end Headers

/-! ## Printed spans -/

section Printed

/-- The first and the last position of a half-open span, as both headers print them. -/
def interval (begin stop : Int) : String := s!"{begin}-{stop - 1}"

/-- The request for one closed range. -/
def closedHeader (begin stop : Int) : String := s!"bytes={interval begin stop}"

theorem toList_toString {n : Int} (nonneg : 0 ≤ n) :
    (toString n).toList = Nat.toDigits 10 n.toNat := by
  obtain ⟨m, rfl⟩ := Int.eq_ofNat_of_zero_le nonneg
  exact Nat.toList_repr

variable {begin stop total : Int} (lower : 0 ≤ begin) (some' : begin < stop)

include lower some'

theorem closedHeader_form :
    RangeForm (closedHeader begin stop).toList (Nat.toDigits 10 begin.toNat)
      (Nat.toDigits 10 (stop - 1).toNat) where
  spelled := by
    refine ⟨['b', 'y', 't', 'e', 's'], by simp [ByteUnit], ?_⟩
    have printed : closedHeader begin stop =
        "bytes=" ++ (toString begin ++ "-" ++ toString (stop - 1)) := rfl
    rw [printed, String.toList_append, String.toList_append, String.toList_append,
      toList_toString lower, toList_toString (by omega)]
    simp
  firstDigits := digits_toDigits _
  lastDigits := digits_toDigits _
  given := .inl Nat.toDigits_ne_nil

omit lower some' in
/-- A `BIGINT` has few digits. -/
theorem toDigits_short {n : Nat} (inRange : (n : Int) < 2 ^ 63) :
    (Nat.toDigits 10 n).length ≤ 4300 := by
  have few : (Nat.toDigits 10 n).length ≤ 19 :=
    (Nat.length_toDigits_le_iff (by omega) (by omega)).mpr (by omega)
  omega

/-- A printed span is read back. -/
theorem parseSingleRange_closed (upper : stop ≤ total) (inRange : total < 2 ^ 63) :
    parseSingleRange (closedHeader begin stop) total = .ok (begin, stop) := by
  have convertible : Convertible (Nat.toDigits 10 begin.toNat) (Nat.toDigits 10 (stop - 1).toNat) :=
    ⟨toDigits_short (by omega), toDigits_short (by omega)⟩
  have ordered : Ordered (Nat.toDigits 10 begin.toNat) (Nat.toDigits 10 (stop - 1).toNat) := by
    intro _ _
    rw [decimal_toDigits, decimal_toDigits]
    omega
  have asked : rangeSpan (Nat.toDigits 10 begin.toNat) (Nat.toDigits 10 (stop - 1).toNat) total =
      some (begin, stop) := by
    rw [rangeSpan, if_neg Nat.toDigits_ne_nil, if_neg Nat.toDigits_ne_nil, decimal_toDigits,
      decimal_toDigits, if_neg (by omega)]
    -- the inclusive bound becomes the half-open one again
    simp only [Option.some.injEq, Prod.mk.injEq]
    omega
  rw [parseSingleRange_ordered (closedHeader_form lower some') convertible ordered, asked]

end Printed

end SeismicIngest
