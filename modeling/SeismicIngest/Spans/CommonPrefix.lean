import Mathlib.Data.List.Infix
import Mathlib.Order.Bounds.Basic

/-! # The longest common prefix of two sequences

`commonPrefix` computes the length of the longest common prefix, and
`commonPrefix_isGreatest` says so.
-/

namespace SeismicIngest.Spans

variable {α : Type} [DecidableEq α]

def commonPrefix : List α → List α → Nat
  | left :: lefts, right :: rights => if left = right then commonPrefix lefts rights + 1 else 0
  | _, _ => 0

/-- `n` elements are common to the front of both sequences. -/
def Agree (left right : List α) (n : Nat) : Prop :=
  n ≤ left.length ∧ n ≤ right.length ∧ left.take n = right.take n

@[simp] theorem commonPrefix_nil_left (right : List α) : commonPrefix [] right = 0 := by
  cases right <;> rfl

@[simp] theorem commonPrefix_nil_right (left : List α) : commonPrefix left [] = 0 := by
  cases left <;> rfl

theorem commonPrefix_comm (left right : List α) :
    commonPrefix left right = commonPrefix right left := by
  induction left generalizing right with
  | nil => simp
  | cons head tail inductionHypothesis =>
    cases right with
    | nil => simp
    | cons other others => simp only [commonPrefix, inductionHypothesis others, eq_comm]

theorem commonPrefix_append (front left right : List α) :
    commonPrefix (front ++ left) (front ++ right) = front.length + commonPrefix left right := by
  induction front with
  | nil => simp
  | cons head tail inductionHypothesis =>
    simp only [List.cons_append, commonPrefix, if_true, inductionHypothesis, List.length_cons]
    omega

/-- A difference found in two fronts is the first one of the whole. -/
theorem commonPrefix_append_of_lt {left right : List α}
    (inLeft : commonPrefix left right < left.length) (inRight : commonPrefix left right < right.length)
    (leftRest rightRest : List α) :
    commonPrefix (left ++ leftRest) (right ++ rightRest) = commonPrefix left right := by
  induction left generalizing right with
  | nil => simp at inLeft
  | cons head tail inductionHypothesis =>
    cases right with
    | nil => simp at inRight
    | cons other others =>
      by_cases same : head = other
      · simp only [commonPrefix, same, if_true, List.length_cons, List.cons_append] at inLeft inRight ⊢
        rw [inductionHypothesis (by omega) (by omega)]
      · simp [commonPrefix, same]

@[simp] theorem commonPrefix_self (data : List α) : commonPrefix data data = data.length := by
  simpa using commonPrefix_append data [] []

theorem commonPrefix_agree (left right : List α) : Agree left right (commonPrefix left right) := by
  induction left generalizing right with
  | nil => simp [Agree]
  | cons head tail inductionHypothesis =>
    cases right with
    | nil => simp [Agree]
    | cons other others =>
      by_cases same : head = other
      · obtain ⟨leftBound, rightBound, equal⟩ := inductionHypothesis others
        simp only [commonPrefix, same, if_true, Agree, List.length_cons, List.take_succ_cons]
        exact ⟨by omega, by omega, by rw [equal]⟩
      · simp [commonPrefix, same, Agree]

theorem Agree.le_commonPrefix {left right : List α} {n : Nat} (agree : Agree left right n) :
    n ≤ commonPrefix left right := by
  obtain ⟨leftBound, rightBound, equal⟩ := agree
  have splitLeft := List.take_append_drop n left
  have splitRight := List.take_append_drop n right
  rw [← splitLeft, ← splitRight, ← equal, commonPrefix_append, List.length_take]
  omega

/-- `commonPrefix` is the greatest number of common front elements. -/
theorem commonPrefix_isGreatest (left right : List α) :
    IsGreatest {n | Agree left right n} (commonPrefix left right) :=
  ⟨commonPrefix_agree left right, fun _ agree => Agree.le_commonPrefix agree⟩

omit [DecidableEq α] in
/-- What each of two sequences shares with a third is shared by them. -/
theorem Agree.trans {left middle right : List α} {n : Nat} (front : Agree left middle n)
    (back : Agree middle right n) : Agree left right n :=
  ⟨front.1, back.2.1, front.2.2.trans back.2.2⟩

omit [DecidableEq α] in
theorem Agree.mono {left right : List α} {m n : Nat} (agree : Agree left right n) (le : m ≤ n) :
    Agree left right m := by
  obtain ⟨leftBound, rightBound, equal⟩ := agree
  refine ⟨by omega, by omega, ?_⟩
  have shorter := congrArg (List.take m) equal
  rwa [List.take_take, List.take_take, Nat.min_eq_left le] at shorter

/-- Common prefixes are an ultrametric. -/
theorem min_le_commonPrefix (left middle right : List α) :
    min (commonPrefix left middle) (commonPrefix middle right) ≤ commonPrefix left right :=
  Agree.le_commonPrefix (((commonPrefix_agree left middle).mono (Nat.min_le_left _ _)).trans
    ((commonPrefix_agree middle right).mono (Nat.min_le_right _ _)))

/-- Of three sequences the two that differ first differ there from the third. -/
theorem commonPrefix_of_lt {left middle right : List α}
    (first : commonPrefix left middle < commonPrefix middle right) :
    commonPrefix left right = commonPrefix left middle := by
  have atLeast := min_le_commonPrefix left middle right
  have atMost := min_le_commonPrefix left right middle
  rw [commonPrefix_comm right middle] at atMost
  omega

theorem commonPrefix_le_left (left right : List α) : commonPrefix left right ≤ left.length :=
  (commonPrefix_agree left right).1

theorem commonPrefix_le_right (left right : List α) : commonPrefix left right ≤ right.length :=
  (commonPrefix_agree left right).2.1

theorem commonPrefix_eq_left_iff (left right : List α) :
    commonPrefix left right = left.length ↔ left <+: right := by
  constructor
  · intro whole
    have equal := (commonPrefix_agree left right).2.2
    rw [whole, List.take_length] at equal
    exact equal ▸ List.take_prefix _ _
  · rintro ⟨rest, rfl⟩
    simpa using commonPrefix_append left [] rest

/-- Short of both ends the next elements differ. -/
theorem commonPrefix_differs {left right : List α} (inLeft : commonPrefix left right < left.length)
    (inRight : commonPrefix left right < right.length) :
    left[commonPrefix left right] ≠ right[commonPrefix left right] := by
  intro same
  obtain ⟨leftBound, rightBound, equal⟩ := commonPrefix_agree left right
  have longer : Agree left right (commonPrefix left right + 1) := by
    refine ⟨inLeft, inRight, ?_⟩
    rw [List.take_succ_eq_append_getElem inLeft, List.take_succ_eq_append_getElem inRight, equal, same]
  have := longer.le_commonPrefix
  omega

/-- One of two sequences is a prefix of the other exactly when they agree to the end
    of the shorter one. -/
theorem prefix_either {left right : List α} : (left <+: right ∨ right <+: left) ↔
    commonPrefix left right = min left.length right.length := by
  have inLeft := commonPrefix_le_left left right
  have inRight := commonPrefix_le_right left right
  rw [← commonPrefix_eq_left_iff, ← commonPrefix_eq_left_iff, commonPrefix_comm right left]
  omega

/-- Otherwise some position inside both holds different elements. -/
theorem differs_inside {left right : List α} :
    (∃ offset, offset < min left.length right.length ∧ left[offset]? ≠ right[offset]?) ↔
      commonPrefix left right < min left.length right.length := by
  have shared := commonPrefix_agree left right
  constructor
  · rintro ⟨offset, inside, differs⟩
    -- below the common prefix the elements are equal
    have beyond : commonPrefix left right ≤ offset := by
      refine Nat.le_of_not_lt fun below => differs ?_
      rw [← List.getElem?_take_of_lt below, shared.2.2, List.getElem?_take_of_lt below]
    omega
  · intro inside
    have inLeft : commonPrefix left right < left.length := by omega
    have inRight : commonPrefix left right < right.length := by omega
    refine ⟨commonPrefix left right, inside, ?_⟩
    rw [List.getElem?_eq_getElem inLeft, List.getElem?_eq_getElem inRight]
    exact fun same => commonPrefix_differs inLeft inRight (Option.some.inj same)

/-- Two sequences are equal exactly when they agree to both ends. -/
theorem eq_iff_commonPrefix (left right : List α) :
    left = right ↔ commonPrefix left right = left.length ∧ left.length = right.length := by
  constructor
  · rintro rfl; simp
  · rintro ⟨whole, sameLength⟩
    exact ((commonPrefix_eq_left_iff left right).mp whole).eq_of_length sameLength

theorem eq_of_commonPrefix {left right : List α}
    (agree : commonPrefix left right = min left.length right.length)
    (sameLength : left.length = right.length) : left = right :=
  (eq_iff_commonPrefix left right).mpr ⟨by omega, sameLength⟩

end SeismicIngest.Spans
