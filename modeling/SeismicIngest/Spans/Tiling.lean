import SeismicIngest.Spans.Window

/-! # Tilings of an interval by data blocks

A row of some table records a half-open span and the data stored for it.  Rows
tile `[lo, hi)` when the first starts at `lo`, each next one starts where the
previous one ends, and the last ends at `hi`; nothing is said about the data or
about the direction of a span until every row also `Fits` its data.

The content of a tiling of fitting rows is one sequence laid out from `lo`: its
length is `hi - lo`, and each row's data is the window of the content at the row's
own span.
-/

namespace SeismicIngest.Spans

/-- How a row type records a span and its data. -/
structure Layout (ρ α : Type) where
  start : ρ → Int
  stop : ρ → Int
  data : ρ → List α

namespace Layout

variable {ρ α : Type} (layout : Layout ρ α)

/-- The rows cover `[lo, hi)` end to end, in the order given. -/
def Tiles : Int → List ρ → Int → Prop
  | lo, [], hi => lo = hi
  | lo, row :: rows, hi => layout.start row = lo ∧ Tiles (layout.stop row) rows hi

/-- The data is as long as the span. -/
def Fits (row : ρ) : Prop :=
  ((layout.data row).length : Int) = layout.stop row - layout.start row

def content (rows : List ρ) : List α :=
  rows.flatMap layout.data

@[simp] theorem tiles_nil {lo hi : Int} : layout.Tiles lo [] hi ↔ lo = hi := Iff.rfl
@[simp] theorem tiles_cons {lo hi : Int} {row : ρ} {rows : List ρ} :
    layout.Tiles lo (row :: rows) hi ↔
      layout.start row = lo ∧ layout.Tiles (layout.stop row) rows hi := Iff.rfl
@[simp] theorem content_nil : layout.content [] = [] := rfl
@[simp] theorem content_cons (row : ρ) (rows : List ρ) :
    layout.content (row :: rows) = layout.data row ++ layout.content rows := rfl
@[simp] theorem content_append (front back : List ρ) :
    layout.content (front ++ back) = layout.content front ++ layout.content back := by
  simp [content]

variable {layout}

/-! ## Where a tiling ends -/

theorem Tiles.unique {lo first second : Int} {rows : List ρ} (left : layout.Tiles lo rows first)
    (right : layout.Tiles lo rows second) : first = second := by
  induction rows generalizing lo with
  | nil => exact left.symm.trans right
  | cons row rows inductionHypothesis => exact inductionHypothesis left.2 right.2

theorem Tiles.append {lo mid hi : Int} {front back : List ρ} (left : layout.Tiles lo front mid)
    (right : layout.Tiles mid back hi) : layout.Tiles lo (front ++ back) hi := by
  induction front generalizing lo with
  | nil => rw [layout.tiles_nil] at left; exact left ▸ right
  | cons row rows inductionHypothesis => exact ⟨left.1, inductionHypothesis left.2⟩

/-- One more row at the end. -/
theorem Tiles.snoc {lo mid : Int} {rows : List ρ} {row : ρ} (tiles : layout.Tiles lo rows mid)
    (starts : layout.start row = mid) : layout.Tiles lo (rows ++ [row]) (layout.stop row) :=
  tiles.append ⟨starts, rfl⟩

/-! ## Rows cut at given positions -/

/-- Row `k` spans from cut `k` to cut `k + 1`. -/
theorem Tiles.range {cut : Nat → Int} {rowAt : Nat → ρ} {count : Nat}
    (starts : ∀ k < count, layout.start (rowAt k) = cut k)
    (stops : ∀ k < count, layout.stop (rowAt k) = cut (k + 1)) :
    layout.Tiles (cut 0) ((List.range count).map rowAt) (cut count) := by
  induction count with
  | zero => rfl
  | succ count inductionHypothesis =>
    have front :=
      inductionHypothesis (fun k below => starts k (by omega)) (fun k below => stops k (by omega))
    rw [List.range_succ, List.map_append, ← stops count (by omega)]
    exact front.snoc (starts count (by omega))

/-- If each row holds the window between its cuts, the rows hold the window between
    the outer cuts. -/
theorem content_range {cut : Nat → Int} {rowAt : Nat → ρ} {count : Nat} {base : Int}
    {whole : List α} (mono : ∀ k < count, cut k ≤ cut (k + 1))
    (data : ∀ k < count, layout.data (rowAt k) = window base whole (cut k) (cut (k + 1))) :
    layout.content ((List.range count).map rowAt) = window base whole (cut 0) (cut count) ∧
      cut 0 ≤ cut count := by
  induction count with
  | zero => simp [window]
  | succ count inductionHypothesis =>
    obtain ⟨front, ordered⟩ :=
      inductionHypothesis (fun k below => mono k (by omega)) (fun k below => data k (by omega))
    have last := mono count (by omega)
    rw [List.range_succ, List.map_append, content_append, front, List.map_singleton, content_cons,
      content_nil, List.append_nil, data count (by omega), window_split base whole ordered last]
    exact ⟨rfl, Int.le_trans ordered last⟩

/-! ## Fitting rows -/

section Fitting

variable {lo hi : Int} {rows : List ρ}

theorem Tiles.content_length (tiles : layout.Tiles lo rows hi) (fits : ∀ row ∈ rows, layout.Fits row) :
    ((layout.content rows).length : Int) = hi - lo := by
  induction rows generalizing lo with
  | nil => rw [layout.tiles_nil] at tiles; simp [tiles]
  | cons row rows inductionHypothesis =>
    have tail :=
      inductionHypothesis tiles.2 (fun other member => fits other (List.mem_cons_of_mem _ member))
    have head := fits row List.mem_cons_self
    rw [Fits, tiles.1] at head
    rw [content_cons, List.length_append]
    omega

theorem Tiles.le (tiles : layout.Tiles lo rows hi) (fits : ∀ row ∈ rows, layout.Fits row) :
    lo ≤ hi := by
  have := tiles.content_length fits
  omega

/-- Rows that hold data are at most as many as the elements they hold. -/
theorem length_le_content (nonempty : ∀ row ∈ rows, layout.data row ≠ []) :
    rows.length ≤ (layout.content rows).length := by
  induction rows with
  | nil => simp
  | cons row rows inductionHypothesis =>
    have tail :=
      inductionHypothesis fun other member => nonempty other (List.mem_cons_of_mem _ member)
    have head := List.length_pos_iff.mpr (nonempty row List.mem_cons_self)
    simp only [content_cons, List.length_append, List.length_cons]
    omega

/-- The rows of a tiling stay inside its interval. -/
theorem Tiles.within (tiles : layout.Tiles lo rows hi) (fits : ∀ row ∈ rows, layout.Fits row)
    {row : ρ} (member : row ∈ rows) : lo ≤ layout.start row ∧ layout.stop row ≤ hi := by
  induction rows generalizing lo with
  | nil => cases member
  | cons head rows inductionHypothesis =>
    have tailFits : ∀ other ∈ rows, layout.Fits other :=
      fun other member => fits other (List.mem_cons_of_mem _ member)
    have ordered := tiles.2.le tailFits
    have headFits := fits head List.mem_cons_self
    rw [Fits] at headFits
    obtain rfl | later := List.mem_cons.mp member
    · exact ⟨Int.le_of_eq tiles.1.symm, ordered⟩
    · have inside := inductionHypothesis tiles.2 tailFits later
      have starts := tiles.1
      omega

/-- Each row holds the window of the content at its own span. -/
theorem Tiles.data_eq_window (tiles : layout.Tiles lo rows hi)
    (fits : ∀ row ∈ rows, layout.Fits row) {row : ρ} (member : row ∈ rows) :
    layout.data row = window lo (layout.content rows) (layout.start row) (layout.stop row) := by
  induction rows generalizing lo with
  | nil => cases member
  | cons head rows inductionHypothesis =>
    have tailFits : ∀ other ∈ rows, layout.Fits other :=
      fun other member => fits other (List.mem_cons_of_mem _ member)
    have headFits := fits head List.mem_cons_self
    rw [Fits, tiles.1] at headFits
    have starts := tiles.1
    have joint : lo + ((layout.data head).length : Int) = layout.stop head := by omega
    rw [content_cons, window_append, joint]
    obtain rfl | later := List.mem_cons.mp member
    · rw [window_whole _ _ (by omega) (by omega), window_before _ _ (Int.le_refl _), List.append_nil]
    · have inside := tiles.2.within tailFits later
      rw [window_after _ _ (by omega), List.nil_append]
      exact inductionHypothesis tiles.2 tailFits later

/-- Rows that are not empty start at increasing positions. -/
theorem Tiles.pairwise_start (tiles : layout.Tiles lo rows hi)
    (fits : ∀ row ∈ rows, layout.Fits row) (nonempty : ∀ row ∈ rows, layout.data row ≠ []) :
    rows.Pairwise fun earlier later => layout.start earlier < layout.start later := by
  induction rows generalizing lo with
  | nil => exact .nil
  | cons head rows inductionHypothesis =>
    have tailFits : ∀ other ∈ rows, layout.Fits other :=
      fun other member => fits other (List.mem_cons_of_mem _ member)
    refine .cons ?_ (inductionHypothesis tiles.2 tailFits
      (fun other member => nonempty other (List.mem_cons_of_mem _ member)))
    intro later member
    have inside := tiles.2.within tailFits member
    have headFits := fits head List.mem_cons_self
    have headLength := List.length_pos_iff.mpr (nonempty head List.mem_cons_self)
    rw [Fits] at headFits
    omega

end Fitting

end Layout

end SeismicIngest.Spans
