import Mathlib.Data.List.Sort
import Mathlib.Data.List.Nodup

/-! # Pages of rows ordered by a key

A listing is read page by page, and each page comes from a query of its own.  Every
query orders the rows by descending key, and is free to arrange rows of one key in
another way than the query before it.

The keys on the pages never depend on these arrangements (`paged_keys`).  When the key
falls at each page boundary, neither do the rows: the pages together hold each row once
(`paged_perm`).  A tie across a boundary lets one row stand on two pages
(`exists_repeated`).
-/

namespace SeismicIngest.Spans

variable {α κ : Type} [LinearOrder κ] (key : α → κ)

/-- One answer of the query: the rows by descending key. -/
structure Ordered (rows listed : List α) : Prop where
  perm : listed.Perm rows
  descending : listed.Pairwise fun earlier later => key later ≤ key earlier

/-- The keys in the order of the query. -/
def descendingKeys (rows : List α) : List κ :=
  (rows.map key).insertionSort fun left right => left ≥ right

/-- Page `k` of a listing. -/
def page (size k : Nat) (listed : List α) : List α :=
  (listed.drop (k * size)).take size

/-- The first `count` pages, where page `k` belongs to the `k`-th answer. -/
def paged (size count : Nat) (answers : Nat → List α) : List α :=
  (List.range count).flatMap fun k => page size k (answers k)

/-- How many pages hold `total` rows. -/
def pageCount (size total : Nat) : Nat := (total + size - 1) / size

/-- The key falls at every boundary between two pages. -/
def Cut (size : Nat) (keys : List κ) : Prop :=
  ∀ k, 0 < k → k * size < keys.length → keys[k * size - 1]? ≠ keys[k * size]?

variable {key} {rows : List α}

/-! ## Pages of one answer -/

theorem lt_pageCount {size k total : Nat} (positive : 0 < size) :
    k < pageCount size total ↔ k * size < total := by
  rw [pageCount, ← Nat.succ_le_iff, Nat.le_div_iff_mul_le positive, Nat.succ_mul]
  omega

theorem total_le_pages {size : Nat} (positive : 0 < size) (total : Nat) :
    total ≤ pageCount size total * size := by
  have beyond : ¬ pageCount size total * size < total :=
    fun inside => Nat.lt_irrefl _ ((lt_pageCount positive).mpr inside)
  omega

theorem page_getElem? {size k i : Nat} {listed : List α} (inside : i < size) :
    (page size k listed)[i]? = listed[k * size + i]? := by
  rw [page, List.getElem?_take_of_lt inside, List.getElem?_drop]

theorem paged_succ (size count : Nat) (answers : Nat → List α) :
    paged size (count + 1) answers = paged size count answers ++ page size count (answers count) := by
  rw [paged, List.range_succ, List.flatMap_append, List.flatMap_singleton]
  rfl

theorem take_page (size k : Nat) (listed : List α) :
    listed.take (k * size) ++ page size k listed = listed.take ((k + 1) * size) := by
  rw [Nat.succ_mul, List.take_add, page]

/-! ## Ordered answers -/

namespace Ordered

variable {listed other : List α}

theorem sorted (rows : List α) :
    Ordered key rows (rows.insertionSort fun left right => key left ≥ key right) where
  perm := List.perm_insertionSort _ rows
  descending := (List.pairwise_insertionSort (fun left right => key left ≥ key right) rows).imp id

theorem keys (ordered : Ordered key rows listed) : listed.map key = descendingKeys key rows :=
  List.Perm.eq_of_pairwise' (List.pairwise_map.mpr ordered.descending)
    (List.pairwise_insertionSort _ _)
    ((ordered.perm.map key).trans (List.perm_insertionSort _ _).symm)

theorem length (ordered : Ordered key rows listed) : listed.length = rows.length :=
  ordered.perm.length_eq

/-- Rows with the same keys in the same places are ordered, too. -/
theorem of_keys (ordered : Ordered key rows listed) (perm : other.Perm listed)
    (same : other.map key = listed.map key) : Ordered key rows other where
  perm := perm.trans ordered.perm
  descending := by
    have descending : (listed.map key).Pairwise fun earlier later => later ≤ earlier :=
      List.pairwise_map.mpr ordered.descending
    rw [← same] at descending
    exact List.pairwise_map.mp descending

theorem key_at (ordered : Ordered key rows listed) {i : Nat} (inside : i < listed.length) :
    (descendingKeys key rows)[i]? = some (key listed[i]) := by
  rw [← ordered.keys, List.getElem?_map, List.getElem?_eq_getElem inside]
  rfl

theorem antitone (ordered : Ordered key rows listed) {i j : Nat} (before : i ≤ j)
    (inside : j < listed.length) : key listed[j] ≤ key listed[i] := by
  obtain less | rfl := Nat.lt_or_eq_of_le before
  · exact List.pairwise_iff_getElem.mp ordered.descending i j (by omega) inside less
  · exact le_refl _

/-- In front of a fall of the key stand the rows with the greater keys. -/
theorem take_eq_filter (ordered : Ordered key rows listed) {j : Nat} (positive : 0 < j)
    (inside : j < rows.length)
    (falls : (descendingKeys key rows)[j - 1]? ≠ (descendingKeys key rows)[j]?) {bound : κ}
    (last : (descendingKeys key rows)[j - 1]? = some bound) :
    listed.take j = listed.filter fun row => bound ≤ key row := by
  have length := ordered.length
  rw [ordered.key_at (by omega), ordered.key_at (by omega), Option.some_inj.ne] at falls
  rw [ordered.key_at (by omega), Option.some_inj] at last
  have less : key listed[j] < bound :=
    last ▸ lt_of_le_of_ne (ordered.antitone (by omega) (by omega)) (Ne.symm falls)
  have front : (listed.take j).filter (fun row => bound ≤ key row) = listed.take j := by
    refine List.filter_eq_self.mpr fun row member => ?_
    obtain ⟨i, before, rfl⟩ := List.mem_take_iff_getElem.mp member
    exact decide_eq_true (last ▸ ordered.antitone (by omega) (by omega))
  have back : (listed.drop j).filter (fun row => bound ≤ key row) = [] := by
    refine List.filter_eq_nil_iff.mpr fun row member => ?_
    obtain ⟨i, beyond, rfl⟩ := List.mem_drop_iff_getElem.mp member
    have below := ordered.antitone (Nat.le_add_right j i) (by omega)
    simpa using lt_of_le_of_lt below less
  conv => rhs; rw [← List.take_append_drop j listed]
  rw [List.filter_append, front, back, List.append_nil]

/-- Where the key falls, every answer has the same rows in front. -/
theorem take_perm (first : Ordered key rows listed) (second : Ordered key rows other) {j : Nat}
    (falls : 0 < j → j < rows.length →
      (descendingKeys key rows)[j - 1]? ≠ (descendingKeys key rows)[j]?) :
    (listed.take j).Perm (other.take j) := by
  have same : listed.Perm other := first.perm.trans second.perm.symm
  have firstLength := first.length
  have secondLength := second.length
  by_cases positive : 0 < j
  · by_cases inside : j < rows.length
    · have last := first.key_at (show j - 1 < listed.length by omega)
      rw [first.take_eq_filter positive inside (falls positive inside) last,
        second.take_eq_filter positive inside (falls positive inside) last]
      exact same.filter _
    · rw [List.take_of_length_le (by omega), List.take_of_length_le (by omega)]
      exact same
  · obtain rfl : j = 0 := by omega
    simp

end Ordered

/-! ## All pages -/

section Paged

variable {size : Nat} {answers : Nat → List α} (ordered : ∀ k, Ordered key rows (answers k))

include ordered

/-- The keys on the pages are those of the rows, in order. -/
theorem paged_keys (count : Nat) :
    (paged size count answers).map key = (descendingKeys key rows).take (count * size) := by
  induction count with
  | zero => simp [paged]
  | succ count inductionHypothesis =>
    have keys : (page size count (answers count)).map key =
        page size count (descendingKeys key rows) := by
      rw [page, page, ← (ordered count).keys, List.map_take, List.map_drop]
    rw [paged_succ, List.map_append, inductionHypothesis, keys, take_page]

/-- While the key falls at each boundary, the pages hold the first rows of any answer. -/
theorem paged_take (cut : Cut size (descendingKeys key rows)) (count : Nat) {listed : List α}
    (last : Ordered key rows listed) :
    (paged size count answers).Perm (listed.take (count * size)) := by
  induction count generalizing listed with
  | zero => simp [paged]
  | succ count inductionHypothesis =>
    rw [paged_succ]
    refine ((inductionHypothesis (ordered count)).append_right _).trans ?_
    rw [take_page]
    refine (ordered count).take_perm last fun _ inside => cut (count + 1) (by omega) ?_
    rw [← last.keys, List.length_map, last.length]
    exact inside

/-- The pages together hold each row once. -/
theorem paged_perm (positive : 0 < size) (cut : Cut size (descendingKeys key rows)) :
    (paged size (pageCount size rows.length) answers).Perm rows := by
  have total := total_le_pages positive rows.length
  refine (paged_take ordered cut _ (ordered 0)).trans ?_
  rw [List.take_of_length_le (by rw [(ordered 0).length]; exact total)]
  exact (ordered 0).perm

theorem paged_ordered (positive : 0 < size) (cut : Cut size (descendingKeys key rows)) :
    Ordered key rows (paged size (pageCount size rows.length) answers) where
  perm := paged_perm ordered positive cut
  descending := by
    have keys := (List.pairwise_insertionSort (fun left right : κ => left ≥ right) (rows.map key)).sublist
      (List.take_sublist (pageCount size rows.length * size) _)
    change (List.take _ (descendingKeys key rows)).Pairwise _ at keys
    rw [← paged_keys ordered] at keys
    exact List.pairwise_map.mp keys

end Paged

/-! ## A tie across a boundary -/

/-- Two neighbours of a list, and what stands around them. -/
theorem exists_neighbours {j : Nat} {listed : List α} (positive : 0 < j) (inside : j < listed.length) :
    ∃ front first second back, listed = front ++ first :: second :: back ∧ front.length + 1 = j := by
  refine ⟨listed.take (j - 1), listed[j - 1], listed[j], listed.drop (j + 1), ?_, ?_⟩
  · have second := List.drop_eq_getElem_cons inside
    have first := List.drop_eq_getElem_cons (show j - 1 < listed.length by omega)
    simp only [Nat.sub_add_cancel positive] at first
    rw [← second, ← first, List.take_append_drop]
  · rw [List.length_take]
    omega

/-- Tied neighbours may change places, and each answer shows the same row at its side
    of the boundary between them. -/
theorem exists_swapped {j : Nat} (positive : 0 < j) (inside : j < rows.length)
    (tie : (descendingKeys key rows)[j - 1]? = (descendingKeys key rows)[j]?) :
    ∃ listed swapped row, Ordered key rows listed ∧ Ordered key rows swapped ∧
      listed[j - 1]? = some row ∧ swapped[j]? = some row := by
  have ordered : Ordered key rows _ := .sorted rows
  obtain ⟨front, first, second, back, split, rfl⟩ :=
    exists_neighbours positive (show j < _ by rw [ordered.length]; exact inside)
  rw [split] at ordered
  have same : key second = key first := by
    rw [← ordered.keys] at tie
    simpa using tie.symm
  refine ⟨_, front ++ second :: first :: back, first, ordered,
    ordered.of_keys ((List.Perm.swap _ _ _).append_left front) (by simp [same]), ?_, ?_⟩
  · simp
  · simp

/-- With a tie across a boundary some row may stand on two pages. -/
theorem exists_repeated {size : Nat} (positive : 0 < size)
    (uncut : ¬ Cut size (descendingKeys key rows)) :
    ∃ answers : Nat → List α, (∀ k, Ordered key rows (answers k)) ∧
      ¬ (paged size (pageCount size rows.length) answers).Nodup := by
  simp only [Cut, not_forall, ne_eq, not_not] at uncut
  obtain ⟨k, inner, inside, tie⟩ := uncut
  have sorted : Ordered key rows _ := .sorted rows
  rw [← sorted.keys, List.length_map, sorted.length] at inside
  have start : size ≤ k * size := Nat.le_mul_of_pos_left size inner
  obtain ⟨listed, swapped, row, ordered, swappedOrdered, before, after⟩ :=
    exists_swapped (show 0 < k * size by omega) inside tie
  -- the earlier pages are answered one way, the later ones the other way
  refine ⟨fun i => if i < k then listed else swapped, fun i => ?_, fun nodup => ?_⟩
  · dsimp only
    split
    · exact ordered
    · exact swappedOrdered
  · have pages := (List.nodup_flatMap.mp nodup).2
    have inPages := (lt_pageCount positive).mpr inside
    have apart := List.pairwise_iff_getElem.mp pages (k - 1) k (by simp; omega) (by simpa) (by omega)
    simp only [Function.onFun, List.getElem_range, if_pos (show k - 1 < k by omega),
      lt_irrefl, if_false] at apart
    have last : row ∈ page size (k - 1) listed := by
      refine List.mem_of_getElem? (i := size - 1) ?_
      rw [page_getElem? (by omega), Nat.sub_mul, Nat.one_mul,
        show k * size - size + (size - 1) = k * size - 1 by omega]
      exact before
    have next : row ∈ page size k swapped := by
      refine List.mem_of_getElem? (i := 0) ?_
      rw [page_getElem? positive, Nat.add_zero]
      exact after
    exact apart last next

end SeismicIngest.Spans
