import Mathlib.Data.List.DropRight

/-! # Stripping and lower-casing

Python's `str.strip` and `str.lower` on any text.

Lower-casing follows the tables of Unicode 15.  Two characters stand outside the
character-wise mapping: the capital I with a dot becomes two characters, and a capital
sigma becomes a final one at the end of a word.  Where a word ends depends on further
character properties that nothing here reads, so that test is a parameter.

The only capitals with an ASCII lower case are the ASCII ones, the Kelvin sign and the
dotted I.  `Lowers` keeps of this what a validator of hexadecimal digits needs
(`lowered_lowers`).
-/

namespace SeismicIngest.Text

/-! ## White space -/

/-- `c.isspace()`. -/
def isSpace (c : Char) : Bool :=
  let code := c.toNat
  (9 ≤ code && code ≤ 13) || (28 ≤ code && code ≤ 32) || code == 133 || code == 160 ||
    code == 5760 || (8192 ≤ code && code ≤ 8202) || code == 8232 || code == 8233 ||
    code == 8239 || code == 8287 || code == 12288

/-- `text.strip()`. -/
def strip (text : List Char) : List Char :=
  (text.dropWhile isSpace).rdropWhile isSpace

/-- A stripped text ends in no white space. -/
theorem strip_last {text : List Char} {c : Char} (last : (strip text).getLast? = some c) :
    isSpace c = false := by
  have nonempty : strip text ≠ [] := by
    intro empty
    rw [empty] at last
    cases last
  rw [List.getLast?_eq_some_getLast nonempty] at last
  obtain rfl := Option.some.inj last
  exact eq_false_of_ne_true (List.rdropWhile_last_not _ _ nonempty)

/-! ## Lower case -/

/-- Every `step`-th code from `first` to `last`, moved by `shift`. -/
structure CaseRun where
  first : Nat
  last : Nat
  step : Nat
  shift : Int
deriving DecidableEq

def CaseRun.covers (run : CaseRun) (code : Nat) : Bool :=
  run.first ≤ code && code ≤ run.last && (code - run.first) % run.step == 0

def asciiCapitals : CaseRun := ⟨65, 90, 1, 32⟩

/-- The other capitals with one lower-case character, in the order of their codes. -/
def otherCapitals : List CaseRun :=
  [⟨192, 214, 1, 32⟩, ⟨216, 222, 1, 32⟩, ⟨256, 302, 2, 1⟩, ⟨306, 310, 2, 1⟩,
    ⟨313, 327, 2, 1⟩, ⟨330, 374, 2, 1⟩, ⟨376, 376, 1, -121⟩, ⟨377, 381, 2, 1⟩, ⟨385, 385, 1, 210⟩,
    ⟨386, 388, 2, 1⟩, ⟨390, 390, 1, 206⟩, ⟨391, 391, 1, 1⟩, ⟨393, 394, 1, 205⟩, ⟨395, 395, 1, 1⟩,
    ⟨398, 398, 1, 79⟩, ⟨399, 399, 1, 202⟩, ⟨400, 400, 1, 203⟩, ⟨401, 401, 1, 1⟩,
    ⟨403, 403, 1, 205⟩, ⟨404, 404, 1, 207⟩, ⟨406, 406, 1, 211⟩, ⟨407, 407, 1, 209⟩,
    ⟨408, 408, 1, 1⟩, ⟨412, 412, 1, 211⟩, ⟨413, 413, 1, 213⟩, ⟨415, 415, 1, 214⟩,
    ⟨416, 420, 2, 1⟩, ⟨422, 422, 1, 218⟩, ⟨423, 423, 1, 1⟩, ⟨425, 425, 1, 218⟩, ⟨428, 428, 1, 1⟩,
    ⟨430, 430, 1, 218⟩, ⟨431, 431, 1, 1⟩, ⟨433, 434, 1, 217⟩, ⟨435, 437, 2, 1⟩,
    ⟨439, 439, 1, 219⟩, ⟨440, 440, 1, 1⟩, ⟨444, 444, 1, 1⟩, ⟨452, 452, 1, 2⟩, ⟨453, 453, 1, 1⟩,
    ⟨455, 455, 1, 2⟩, ⟨456, 456, 1, 1⟩, ⟨458, 458, 1, 2⟩, ⟨459, 475, 2, 1⟩, ⟨478, 494, 2, 1⟩,
    ⟨497, 497, 1, 2⟩, ⟨498, 500, 2, 1⟩, ⟨502, 502, 1, -97⟩, ⟨503, 503, 1, -56⟩, ⟨504, 542, 2, 1⟩,
    ⟨544, 544, 1, -130⟩, ⟨546, 562, 2, 1⟩, ⟨570, 570, 1, 10795⟩, ⟨571, 571, 1, 1⟩,
    ⟨573, 573, 1, -163⟩, ⟨574, 574, 1, 10792⟩, ⟨577, 577, 1, 1⟩, ⟨579, 579, 1, -195⟩,
    ⟨580, 580, 1, 69⟩, ⟨581, 581, 1, 71⟩, ⟨582, 590, 2, 1⟩, ⟨880, 882, 2, 1⟩, ⟨886, 886, 1, 1⟩,
    ⟨895, 895, 1, 116⟩, ⟨902, 902, 1, 38⟩, ⟨904, 906, 1, 37⟩, ⟨908, 908, 1, 64⟩,
    ⟨910, 911, 1, 63⟩, ⟨913, 929, 1, 32⟩, ⟨931, 939, 1, 32⟩, ⟨975, 975, 1, 8⟩, ⟨984, 1006, 2, 1⟩,
    ⟨1012, 1012, 1, -60⟩, ⟨1015, 1015, 1, 1⟩, ⟨1017, 1017, 1, -7⟩, ⟨1018, 1018, 1, 1⟩,
    ⟨1021, 1023, 1, -130⟩, ⟨1024, 1039, 1, 80⟩, ⟨1040, 1071, 1, 32⟩, ⟨1120, 1152, 2, 1⟩,
    ⟨1162, 1214, 2, 1⟩, ⟨1216, 1216, 1, 15⟩, ⟨1217, 1229, 2, 1⟩, ⟨1232, 1326, 2, 1⟩,
    ⟨1329, 1366, 1, 48⟩, ⟨4256, 4293, 1, 7264⟩, ⟨4295, 4295, 1, 7264⟩, ⟨4301, 4301, 1, 7264⟩,
    ⟨5024, 5103, 1, 38864⟩, ⟨5104, 5109, 1, 8⟩, ⟨7312, 7354, 1, -3008⟩, ⟨7357, 7359, 1, -3008⟩,
    ⟨7680, 7828, 2, 1⟩, ⟨7838, 7838, 1, -7615⟩, ⟨7840, 7934, 2, 1⟩, ⟨7944, 7951, 1, -8⟩,
    ⟨7960, 7965, 1, -8⟩, ⟨7976, 7983, 1, -8⟩, ⟨7992, 7999, 1, -8⟩, ⟨8008, 8013, 1, -8⟩,
    ⟨8025, 8031, 2, -8⟩, ⟨8040, 8047, 1, -8⟩, ⟨8072, 8079, 1, -8⟩, ⟨8088, 8095, 1, -8⟩,
    ⟨8104, 8111, 1, -8⟩, ⟨8120, 8121, 1, -8⟩, ⟨8122, 8123, 1, -74⟩, ⟨8124, 8124, 1, -9⟩,
    ⟨8136, 8139, 1, -86⟩, ⟨8140, 8140, 1, -9⟩, ⟨8152, 8153, 1, -8⟩, ⟨8154, 8155, 1, -100⟩,
    ⟨8168, 8169, 1, -8⟩, ⟨8170, 8171, 1, -112⟩, ⟨8172, 8172, 1, -7⟩, ⟨8184, 8185, 1, -128⟩,
    ⟨8186, 8187, 1, -126⟩, ⟨8188, 8188, 1, -9⟩, ⟨8486, 8486, 1, -7517⟩, ⟨8490, 8490, 1, -8383⟩,
    ⟨8491, 8491, 1, -8262⟩, ⟨8498, 8498, 1, 28⟩, ⟨8544, 8559, 1, 16⟩, ⟨8579, 8579, 1, 1⟩,
    ⟨9398, 9423, 1, 26⟩, ⟨11264, 11311, 1, 48⟩, ⟨11360, 11360, 1, 1⟩, ⟨11362, 11362, 1, -10743⟩,
    ⟨11363, 11363, 1, -3814⟩, ⟨11364, 11364, 1, -10727⟩, ⟨11367, 11371, 2, 1⟩,
    ⟨11373, 11373, 1, -10780⟩, ⟨11374, 11374, 1, -10749⟩, ⟨11375, 11375, 1, -10783⟩,
    ⟨11376, 11376, 1, -10782⟩, ⟨11378, 11378, 1, 1⟩, ⟨11381, 11381, 1, 1⟩,
    ⟨11390, 11391, 1, -10815⟩, ⟨11392, 11490, 2, 1⟩, ⟨11499, 11501, 2, 1⟩, ⟨11506, 11506, 1, 1⟩,
    ⟨42560, 42604, 2, 1⟩, ⟨42624, 42650, 2, 1⟩, ⟨42786, 42798, 2, 1⟩, ⟨42802, 42862, 2, 1⟩,
    ⟨42873, 42875, 2, 1⟩, ⟨42877, 42877, 1, -35332⟩, ⟨42878, 42886, 2, 1⟩, ⟨42891, 42891, 1, 1⟩,
    ⟨42893, 42893, 1, -42280⟩, ⟨42896, 42898, 2, 1⟩, ⟨42902, 42920, 2, 1⟩,
    ⟨42922, 42922, 1, -42308⟩, ⟨42923, 42923, 1, -42319⟩, ⟨42924, 42924, 1, -42315⟩,
    ⟨42925, 42925, 1, -42305⟩, ⟨42926, 42926, 1, -42308⟩, ⟨42928, 42928, 1, -42258⟩,
    ⟨42929, 42929, 1, -42282⟩, ⟨42930, 42930, 1, -42261⟩, ⟨42931, 42931, 1, 928⟩,
    ⟨42932, 42946, 2, 1⟩, ⟨42948, 42948, 1, -48⟩, ⟨42949, 42949, 1, -42307⟩,
    ⟨42950, 42950, 1, -35384⟩, ⟨42951, 42953, 2, 1⟩, ⟨42960, 42960, 1, 1⟩, ⟨42966, 42968, 2, 1⟩,
    ⟨42997, 42997, 1, 1⟩, ⟨65313, 65338, 1, 32⟩, ⟨66560, 66599, 1, 40⟩, ⟨66736, 66771, 1, 40⟩,
    ⟨66928, 66938, 1, 39⟩, ⟨66940, 66954, 1, 39⟩, ⟨66956, 66962, 1, 39⟩, ⟨66964, 66965, 1, 39⟩,
    ⟨68736, 68786, 1, 64⟩, ⟨71840, 71871, 1, 32⟩, ⟨93760, 93791, 1, 32⟩, ⟨125184, 125217, 1, 34⟩]

/-- The lower case of one character, where it is one character. -/
def lowerCode (code : Nat) : Nat :=
  match (asciiCapitals :: otherCapitals).find? fun run => run.covers code with
  | some run => (code + run.shift).toNat
  | none => code

/-- The lower case of a character that is no capital sigma. -/
def lowerChar (c : Char) : List Char :=
  if c.toNat = 304 then ['i', Char.ofNat 775] else [Char.ofNat (lowerCode c.toNat)]

/-- Whether a sigma between these characters ends a word. -/
abbrev EndsWord := List Char → List Char → Bool

/-- The lower case of one character of a text, given what stands before and after it. -/
def lowered (endsWord : EndsWord) (before : List Char) (c : Char) (after : List Char) : List Char :=
  if c.toNat = 931 then [Char.ofNat (if endsWord before after then 962 else 963)] else lowerChar c

def lowerFrom (endsWord : EndsWord) (before : List Char) : List Char → List Char
  | [] => []
  | c :: after => lowered endsWord before c after ++ lowerFrom endsWord (before ++ [c]) after

/-- `text.lower()`. -/
def lower (endsWord : EndsWord) (text : List Char) : List Char :=
  lowerFrom endsWord [] text

/-! ### One character -/

theorem toNat_ofNat {code : Nat} (valid : code.isValidChar) : (Char.ofNat code).toNat = code := by
  rw [Char.ofNat, dif_pos valid]
  rfl

theorem toNat_toLower (c : Char) :
    c.toLower.toNat = if 65 ≤ c.toNat ∧ c.toNat ≤ 90 then c.toNat + 32 else c.toNat := by
  delta Char.toLower
  simp only [← Char.toNat_val, UInt32.le_iff_toNat_le, ge_iff_le]
  by_cases upper : 65 ≤ c.val.toNat ∧ c.val.toNat ≤ 90
  · rw [dif_pos (by exact upper), if_pos upper, UInt32.toNat_add]
    change (c.val.toNat + 32) % 2 ^ 32 = c.val.toNat + 32
    omega
  · rw [dif_neg (by exact upper), if_neg upper]

/-- What a run of the table maps to, apart from the ASCII letters: valid characters
    behind the letter f. -/
def CaseRun.beyond (run : CaseRun) : Bool :=
  128 ≤ run.first && 103 ≤ run.first + run.shift &&
    (run.last + run.shift < 55296 ||
      (57343 < run.first + run.shift && run.last + run.shift < 1114112))

theorem otherCapitals_beyond : ∀ run ∈ otherCapitals, run.beyond = true := by
  rw [← List.all_eq_true]
  decide +kernel

theorem asciiCapitals_covers {code : Nat} :
    asciiCapitals.covers code = true ↔ 65 ≤ code ∧ code ≤ 90 := by
  simp only [CaseRun.covers, Bool.and_eq_true, decide_eq_true_eq]
  simp only [asciiCapitals, Nat.mod_one, beq_self_eq_true, and_true]

theorem lowerCode_capital {code : Nat} (first : 65 ≤ code) (last : code ≤ 90) :
    lowerCode code = code + 32 := by
  have covered := asciiCapitals_covers.mpr ⟨first, last⟩
  simp only [lowerCode, List.find?_cons, covered]
  simp only [asciiCapitals]
  omega

theorem lowerCode_other {code : Nat} (noCapital : ¬ (65 ≤ code ∧ code ≤ 90)) :
    lowerCode code = code ∨
      (128 ≤ code ∧ 103 ≤ lowerCode code ∧ (lowerCode code).isValidChar) := by
  have uncovered : asciiCapitals.covers code = false :=
    eq_false_of_ne_true fun covered => noCapital (asciiCapitals_covers.mp covered)
  simp only [lowerCode, List.find?_cons, uncovered]
  cases found : otherCapitals.find? fun run => run.covers code with
  | none => exact .inl rfl
  | some run =>
    have covered : run.covers code = true := by simpa using List.find?_some found
    have beyond := otherCapitals_beyond run (List.mem_of_find?_eq_some found)
    simp only [CaseRun.covers, Bool.and_eq_true, decide_eq_true_eq] at covered
    simp only [CaseRun.beyond, Bool.and_eq_true, Bool.or_eq_true, decide_eq_true_eq] at beyond
    refine .inr ⟨by omega, by simp only; omega, ?_⟩
    simp only [Nat.isValidChar]
    omega

/-- The lower case of one character: its ASCII lower case, or characters behind the
    letter f. -/
inductive Lowers (c : Char) : List Char → Prop where
  | ascii : Lowers c [c.toLower]
  | beyond {text : List Char} (outside : 128 ≤ c.toNat) (nonempty : text ≠ [])
    (behind : ∀ d ∈ text, 103 ≤ d.toNat) : Lowers c text

theorem lowered_lowers (endsWord : EndsWord) (before : List Char) (c : Char) (after : List Char) :
    Lowers c (lowered endsWord before c after) := by
  have lower := toNat_toLower c
  rw [lowered]
  split
  · rename_i sigma
    refine .beyond (by omega) (List.cons_ne_nil _ _) (List.forall_mem_singleton.mpr ?_)
    split <;> decide
  · rw [lowerChar]
    split
    · rename_i dotted
      refine .beyond (by omega) (List.cons_ne_nil _ _) (List.forall_mem_cons.mpr ⟨by decide, ?_⟩)
      exact List.forall_mem_singleton.mpr (by decide)
    · by_cases capital : 65 ≤ c.toNat ∧ c.toNat ≤ 90
      · rw [if_pos capital] at lower
        rw [lowerCode_capital capital.1 capital.2, ← lower, Char.ofNat_toNat]
        exact .ascii
      · rw [if_neg capital] at lower
        obtain same | ⟨outside, behind, valid⟩ := lowerCode_other capital
        · rw [same, ← lower, Char.ofNat_toNat]
          exact .ascii
        · refine .beyond outside (List.cons_ne_nil _ _) (List.forall_mem_singleton.mpr ?_)
          rw [toNat_ofNat valid]
          exact behind

namespace Lowers

variable {c : Char} {text : List Char}

theorem ne_nil (lowers : Lowers c text) : text ≠ [] := by
  cases lowers with
  | ascii => exact List.cons_ne_nil _ _
  | beyond outside nonempty behind => exact nonempty

theorem newline (lowers : Lowers c text) (newline : '\n' ∈ text) : c = '\n' := by
  have code : '\n'.toNat = 10 := rfl
  cases lowers with
  | ascii =>
    have lower := toNat_toLower c
    rw [← List.mem_singleton.mp newline] at lower
    rw [← Char.toNat_inj]
    split at lower <;> omega
  | beyond outside nonempty behind =>
    have := behind _ newline
    omega

theorem eq_of_accepts {accepts : Char → Bool} (beforeG : ∀ d, accepts d = true → d.toNat < 103)
    (lowers : Lowers c text) (accepted : accepts c.toLower = true) : text = [c.toLower] := by
  cases lowers with
  | ascii => rfl
  | beyond outside nonempty behind =>
    have early := beforeG _ accepted
    rw [toNat_toLower, if_neg (by omega)] at early
    omega

theorem accepts_of {accepts : Char → Bool} (beforeG : ∀ d, accepts d = true → d.toNat < 103)
    (lowers : Lowers c text) (accepted : ∀ d ∈ text, accepts d = true) :
    accepts c.toLower = true := by
  cases lowers with
  | ascii => exact accepted _ (List.mem_singleton_self _)
  | beyond outside nonempty behind =>
    obtain ⟨d, rest, rfl⟩ := List.exists_cons_of_ne_nil nonempty
    have early := beforeG d (accepted d List.mem_cons_self)
    have late := behind d List.mem_cons_self
    omega

end Lowers

/-! ### A text

A class of characters before the letter g accepts the lower case of a text just when it
accepts the ASCII one, and then the two are the same.
-/

section

variable {endsWord : EndsWord} {before text : List Char}

theorem eq_nil_of_lowerFrom (empty : lowerFrom endsWord before text = []) : text = [] := by
  cases text with
  | nil => rfl
  | cons c after => exact absurd (List.append_eq_nil_iff.mp empty).1 (lowered_lowers ..).ne_nil

theorem lowerFrom_last (last : (lowerFrom endsWord before text).getLast? = some '\n') :
    text.getLast? = some '\n' := by
  induction text generalizing before with
  | nil => cases last
  | cons c after inductionHypothesis =>
    rw [lowerFrom, List.getLast?_append, Option.or_eq_some_iff] at last
    obtain ended | ⟨nothing, ended⟩ := last
    · rw [List.getLast?_cons, inductionHypothesis ended]
      rfl
    · rw [eq_nil_of_lowerFrom (List.getLast?_eq_none_iff.mp nothing)]
      rw [(lowered_lowers ..).newline (List.mem_of_getLast? ended)]
      rfl

variable {accepts : Char → Bool} (beforeG : ∀ d, accepts d = true → d.toNat < 103)

include beforeG in
theorem lowerFrom_eq (accepted : ∀ c ∈ text, accepts c.toLower = true) :
    lowerFrom endsWord before text = text.map Char.toLower := by
  induction text generalizing before with
  | nil => rfl
  | cons c after inductionHypothesis =>
    obtain ⟨head, tail⟩ := List.forall_mem_cons.mp accepted
    rw [lowerFrom, inductionHypothesis tail, (lowered_lowers ..).eq_of_accepts beforeG head]
    rfl

include beforeG in
theorem accepts_of_lowerFrom (accepted : ∀ d ∈ lowerFrom endsWord before text, accepts d = true) :
    ∀ c ∈ text, accepts c.toLower = true := by
  induction text generalizing before with
  | nil => exact List.forall_mem_nil _
  | cons c after inductionHypothesis =>
    rw [lowerFrom] at accepted
    obtain ⟨head, tail⟩ := List.forall_mem_append.mp accepted
    exact List.forall_mem_cons.mpr
      ⟨(lowered_lowers ..).accepts_of beforeG head, inductionHypothesis tail⟩

end

end SeismicIngest.Text
