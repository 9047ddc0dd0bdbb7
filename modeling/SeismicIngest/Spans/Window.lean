import Mathlib.Data.List.Basic
import Mathlib.Data.List.TakeDrop

/-! # Slices and windows of a sequence

* `slice data lo hi` is Python's `data[lo:hi]`, with its clipping of indices
  that are out of range and its counting of negative ones from the end.
* `window base data lo hi` is the part of `data` that falls into `[lo, hi)` when
  `data` is laid out from position `base` on.  Windows distribute over
  concatenation (`window_append`), which slices do not.
-/

namespace SeismicIngest.Spans

variable {α : Type}

/-- One index of a Python slice, clipped to a sequence of length `length`. -/
def sliceBound (length : Nat) (index : Int) : Nat :=
  if index < 0 then (index + length).toNat else min index.toNat length

/-- Python's `data[lo:hi]`. -/
def slice (data : List α) (lo hi : Int) : List α :=
  (data.take (sliceBound data.length hi)).drop (sliceBound data.length lo)

def window (base : Int) (data : List α) (lo hi : Int) : List α :=
  (data.take (hi - base).toNat).drop (lo - base).toNat

theorem sliceBound_of_nonneg {length : Nat} {index : Int} (nonneg : 0 ≤ index) :
    sliceBound length index = min index.toNat length := by
  simp [sliceBound, Int.not_lt.mpr nonneg]

/-- With indices that are not negative a slice is a plain `take` and `drop`. -/
theorem slice_of_nonneg (data : List α) {lo hi : Int} (lower : 0 ≤ lo) (upper : 0 ≤ hi) :
    slice data lo hi = (data.take hi.toNat).drop lo.toNat := by
  rw [slice, sliceBound_of_nonneg lower, sliceBound_of_nonneg upper]
  obtain within | beyond := Nat.le_total lo.toNat data.length
  · rw [Nat.min_eq_left within]
    congr 1
    obtain short | long := Nat.le_total hi.toNat data.length
    · rw [Nat.min_eq_left short]
    · rw [Nat.min_eq_right long, List.take_of_length_le (Nat.le_refl _), List.take_of_length_le long]
  · rw [Nat.min_eq_right beyond,
      List.drop_eq_nil_of_le (by rw [List.length_take]; exact Nat.min_le_right _ _),
      List.drop_eq_nil_of_le (by rw [List.length_take]; omega)]

theorem slice_eq_window (data : List α) {lo hi : Int} (lower : 0 ≤ lo) (upper : 0 ≤ hi) :
    slice data lo hi = window 0 data lo hi := by
  rw [slice_of_nonneg data lower upper, window, Int.sub_zero, Int.sub_zero]

theorem slice_empty (data : List α) (at' : Int) : slice data at' at' = [] := by
  simp [slice]

theorem slice_length (data : List α) {lo hi : Int} (lower : 0 ≤ lo) (ordered : lo ≤ hi)
    (upper : hi ≤ data.length) : ((slice data lo hi).length : Int) = hi - lo := by
  rw [slice_of_nonneg data lower (by omega)]
  simp only [List.length_drop, List.length_take]
  omega

theorem slice_front (data : List α) {hi : Int} (upper : 0 ≤ hi) :
    slice data 0 hi = data.take hi.toNat := by
  simp [slice_of_nonneg data (Int.le_refl 0) upper]

/-- Elements appended after its end do not change a slice. -/
theorem slice_append_left (left right : List α) {lo hi : Int} (lower : 0 ≤ lo) (ordered : lo ≤ hi)
    (upper : hi ≤ left.length) : slice (left ++ right) lo hi = slice left lo hi := by
  rw [slice_of_nonneg _ lower (by omega), slice_of_nonneg _ lower (by omega),
    List.take_append_of_le_length (by omega)]

/-- The slice behind a front is what was appended to it. -/
theorem slice_append_right (front data : List α) {lo hi : Int} (starts : lo = front.length)
    (stops : hi = lo + data.length) : slice (front ++ data) lo hi = data := by
  rw [slice_of_nonneg _ (by omega) (by omega), List.take_of_length_le (by simp; omega),
    List.drop_append_of_le_length (by omega), List.drop_eq_nil_iff.mpr (by omega), List.nil_append]

theorem slice_whole (data : List α) : slice data 0 data.length = data := by
  rw [slice_front data (Int.natCast_nonneg _), Int.toNat_natCast, List.take_length]

/-- Two slices that meet make one. -/
theorem slice_join (data : List α) {lo mid hi : Int} (lower : 0 ≤ lo) (first : lo ≤ mid)
    (second : mid ≤ hi) : slice data lo mid ++ slice data mid hi = slice data lo hi := by
  rw [slice_of_nonneg data lower (by omega), slice_of_nonneg data (by omega) (by omega),
    slice_of_nonneg data lower (by omega), List.drop_take, List.drop_take, List.drop_take,
    show hi.toNat - lo.toNat = (mid.toNat - lo.toNat) + (hi.toNat - mid.toNat) by omega,
    List.take_add, List.drop_drop, show lo.toNat + (mid.toNat - lo.toNat) = mid.toNat by omega]

/-! ## Windows -/

theorem window_append (base : Int) (left right : List α) (lo hi : Int) :
    window base (left ++ right) lo hi =
      window base left lo hi ++ window (base + left.length) right lo hi := by
  simp only [window, List.take_append, List.drop_append, List.length_take]
  congr 1
  have upper : (hi - base).toNat - left.length = (hi - (base + left.length)).toNat := by omega
  rw [upper]
  obtain whole | part := Nat.le_total left.length (hi - base).toNat
  · rw [Nat.min_eq_right whole,
      show (lo - base).toNat - left.length = (lo - (base + left.length)).toNat by omega]
  · rw [show (hi - (base + left.length)).toNat = 0 by omega]
    simp

theorem window_before (base : Int) (data : List α) {lo hi : Int} (before : hi ≤ base) :
    window base data lo hi = [] := by
  rw [window, show (hi - base).toNat = 0 by omega]
  simp

theorem window_after (base : Int) (data : List α) {lo hi : Int} (after : base + data.length ≤ lo) :
    window base data lo hi = [] := by
  rw [window, List.drop_eq_nil_iff, List.length_take]
  omega

theorem window_whole (base : Int) (data : List α) {lo hi : Int} (lower : lo ≤ base)
    (upper : base + data.length ≤ hi) : window base data lo hi = data := by
  rw [window, show (lo - base).toNat = 0 by omega, List.drop_zero,
    List.take_of_length_le (by omega)]

/-- Two consecutive windows join. -/
theorem window_split (base : Int) (data : List α) {lo mid hi : Int} (first : lo ≤ mid)
    (second : mid ≤ hi) :
    window base data lo mid ++ window base data mid hi = window base data lo hi := by
  have whole : data.take (hi - base).toNat =
      data.take (mid - base).toNat ++ (data.take (hi - base).toNat).drop (mid - base).toNat := by
    conv => lhs; rw [← List.take_append_drop (mid - base).toNat (data.take (hi - base).toNat)]
    rw [List.take_take, Nat.min_eq_left (by omega)]
  simp only [window]
  conv => rhs; rw [whole]
  rw [List.drop_append]
  congr 1
  obtain inside | outside := Nat.le_total (mid - base).toNat data.length
  · rw [List.length_take, Nat.min_eq_left inside, show (lo - base).toNat - (mid - base).toNat = 0 by omega,
      List.drop_zero]
  · rw [List.drop_eq_nil_of_le (by rw [List.length_take]; omega), List.drop_nil]

/-- A slice of a window is a window. -/
theorem slice_window (base : Int) (data : List α) {lo first last hi : Int} (lower : base ≤ lo)
    (starts : lo ≤ first) (ordered : first ≤ last) (upper : last ≤ hi) :
    slice (window base data lo hi) (first - lo) (last - lo) = window base data first last := by
  rw [slice_of_nonneg _ (by omega) (by omega), window, window, List.take_drop, List.take_take,
    List.drop_drop, show min ((lo - base).toNat + (last - lo).toNat) (hi - base).toNat =
      (last - base).toNat by omega,
    show (lo - base).toNat + (first - lo).toNat = (first - base).toNat by omega]

/-- The slice of one block that a walk over `[lo, hi)` takes out of it. -/
theorem slice_clipped (base : Int) (data : List α) {lo hi : Int} (starts : base < hi) :
    slice data (max lo base - base) (min hi (base + data.length) - base) = window base data lo hi := by
  rw [slice_of_nonneg data (by omega) (by omega), window,
    show (max lo base - base).toNat = (lo - base).toNat by omega]
  obtain inside | outside := Int.le_total hi (base + data.length)
  · rw [Int.min_eq_left inside]
  · rw [Int.min_eq_right outside, List.take_of_length_le (by omega),
      List.take_of_length_le (by omega)]

end SeismicIngest.Spans
