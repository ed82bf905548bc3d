import OpenMines.Alive
import OpenMines.Lib.CheckedInt
import OpenMines.Lib.Grouping
import OpenMines.Lib.IntervalUnion
import OpenMines.PackAccess

namespace OpenMines.Alive

open Lib Lib.CheckedInt Lib.Grouping Lib.IntervalUnion

def activeRadiusI32 : Int32 := 16

/-- `start..=end`. -/
def rangeInclusive (first last : Int32) : List Int32 :=
  (List.range (last.toInt - first.toInt + 1).toNat).map fun n : Nat => .ofInt (first.toInt + n)

/-- The columns of the window of a centre. -/
def activeInterval (centre : WorldPos) : Int32 × Int32 :=
  (saturatingSubI32 centre.1 activeRadiusI32, saturatingAddI32 centre.1 activeRadiusI32)

def activeRows (centre : WorldPos) : List Int32 :=
  rangeInclusive (saturatingSubI32 centre.2 activeRadiusI32) (saturatingAddI32 centre.2 activeRadiusI32)

/-- What is pushed to the rows, in order. -/
def pushedIntervals (positions : List WorldPos) : List (Int32 × (Int32 × Int32)) :=
  positions.flatMap fun centre => (activeRows centre).map fun y => (y, activeInterval centre)

def intervalLe (a b : Int32 × Int32) : Bool := a.1 < b.1 || a.1 = b.1 && a.2 ≤ b.2

/-- The loop over sorted intervals, with the last of those merged. -/
def mergeFrom (start stop : Int32) : List (Int32 × Int32) → List (Int32 × Int32)
  | [] => [(start, stop)]
  | interval :: rest =>
    if interval.1 ≤ saturatingAddI32 stop 1 then mergeFrom start (max stop interval.2) rest
    else (start, stop) :: mergeFrom interval.1 interval.2 rest

def mergeIntervals (intervals : List (Int32 × Int32)) : List (Int32 × Int32) :=
  match intervals.mergeSort intervalLe with
  | [] => []
  | interval :: rest => mergeFrom interval.1 interval.2 rest

structure ActiveFrontier where
  rows : List (Int32 × List (Int32 × Int32))

namespace ActiveFrontier

def around (positions : List WorldPos) : ActiveFrontier where
  rows := (groups (fun a b => decide (a ≤ b)) (pushedIntervals positions)).map fun row =>
    (row.1, mergeIntervals row.2)

def Contains (f : ActiveFrontier) (p : WorldPos) : Prop :=
  ∃ row ∈ f.rows, row.1 = p.2 ∧ ∃ interval ∈ row.2, interval.1 ≤ p.1 ∧ p.1 ≤ interval.2

/-- The coordinates that the loops of `seed_alive_regions` go through. -/
def cells (f : ActiveFrontier) : List WorldPos :=
  f.rows.flatMap fun row => row.2.flatMap fun interval =>
    (rangeInclusive interval.1 interval.2).map fun x => (x, row.1)

/-- Those that it notes. -/
def notedCells (w : World) (f : ActiveFrontier) : List WorldPos := f.cells.filter fun p => w.validCoord p.1 p.2

end ActiveFrontier

section Ranges

variable {first last x : Int32}

theorem mem_rangeInclusive : x ∈ rangeInclusive first last ↔ first ≤ x ∧ x ≤ last := by
  simp only [rangeInclusive, List.mem_map, List.mem_range, Int32.le_iff_toInt_le]
  constructor
  · rintro ⟨n, hn, rfl⟩
    have hfirst := (fitsI32_toInt first).1
    have hlast := (fitsI32_toInt last).2
    rw [Int32.toInt_ofInt_of_le (by omega) (by omega)]
    omega
  · rintro ⟨hlow, hhigh⟩
    refine ⟨(x.toInt - first.toInt).toNat, by omega, ?_⟩
    rw [show first.toInt + ((x.toInt - first.toInt).toNat : Int) = x.toInt by omega, Int32.ofInt_toInt]

theorem nodup_rangeInclusive : (rangeInclusive first last).Nodup := by
  refine List.nodup_range.map_on fun m hm n hn he => ?_
  have hfirst := (fitsI32_toInt first).1
  have hlast := (fitsI32_toInt last).2
  rw [List.mem_range] at hm hn
  have htoInt := congrArg Int32.toInt he
  rw [Int32.toInt_ofInt_of_le (by omega) (by omega), Int32.toInt_ofInt_of_le (by omega) (by omega)] at htoInt
  omega

end Ranges

section Merge

variable {intervals : List (Int32 × Int32)}

/-- An interval without its last end. -/
def halfOpen (interval : Int32 × Int32) : Int × Int := (interval.1.toInt, interval.2.toInt + 1)

theorem mergeFrom_halfOpen (start stop : Int32) (intervals : List (Int32 × Int32)) :
    (mergeFrom start stop intervals).map halfOpen =
      joinFrom start.toInt (stop.toInt + 1) (intervals.map halfOpen) := by
  induction intervals generalizing start stop with
  | nil => rfl
  | cons interval rest ih =>
      have hjoins : interval.1 ≤ saturatingAddI32 stop 1 ↔ (halfOpen interval).1 ≤ stop.toInt + 1 := by
        have hone : (1 : Int32).toInt = 1 := rfl
        have hfirst := (fitsI32_toInt interval.1).2
        rw [Int32.le_iff_toInt_le, saturatingAddI32, toInt_clampI32, hone, halfOpen]
        have hstop := fitsI32_toInt stop
        unfold FitsI32 at hstop
        split
        · omega
        · split <;> omega
      rw [mergeFrom, List.map_cons, joinFrom]
      by_cases h : interval.1 ≤ saturatingAddI32 stop 1
      · have hstop : (max stop interval.2).toInt + 1 = max (stop.toInt + 1) (halfOpen interval).2 := by
          rw [toInt_maxI32, halfOpen]
          omega
        rw [if_pos h, if_pos (hjoins.mp h), ih, hstop]
      · rw [if_neg h, if_neg (mt hjoins.mpr h), List.map_cons, ih]
        rfl

theorem mergeIntervals_halfOpen :
    (mergeIntervals intervals).map halfOpen = join ((intervals.mergeSort intervalLe).map halfOpen) := by
  rw [mergeIntervals]
  cases intervals.mergeSort intervalLe with
  | nil => rfl
  | cons interval rest => exact mergeFrom_halfOpen _ _ _

theorem sorted_mergeSort (intervals : List (Int32 × Int32)) :
    Lib.IntervalUnion.Sorted ((intervals.mergeSort intervalLe).map halfOpen) := by
  have hle (a b : Int32 × Int32) : intervalLe a b = true ↔
      a.1.toInt < b.1.toInt ∨ a.1.toInt = b.1.toInt ∧ a.2.toInt ≤ b.2.toInt := by
    simp [intervalLe, Int32.lt_iff_toInt_lt, Int32.le_iff_toInt_le, Int32.toInt_inj]
  refine List.pairwise_map.mpr ((List.pairwise_mergeSort ?_ ?_ intervals).imp ?_)
  · intro a b c hab hbc
    rw [hle] at *
    omega
  · intro a b
    rw [Bool.or_eq_true, hle, hle]
    omega
  · intro a b hab
    rw [hle] at hab
    simp only [halfOpen]
    omega

theorem covers_halfOpen {n : Int} : Covers (intervals.map halfOpen) n ↔
    ∃ interval ∈ intervals, interval.1.toInt ≤ n ∧ n ≤ interval.2.toInt := by
  simp [Covers, halfOpen, Int.lt_add_one_iff]

theorem covers_mergeIntervals {n : Int} : Covers ((mergeIntervals intervals).map halfOpen) n ↔
    ∃ interval ∈ intervals, interval.1.toInt ≤ n ∧ n ≤ interval.2.toInt := by
  rw [mergeIntervals_halfOpen, covers_join (sorted_mergeSort intervals), covers_halfOpen]
  simp only [List.mem_mergeSort]

theorem apart_mergeIntervals (h : ∀ interval ∈ intervals, interval.1 ≤ interval.2) :
    IntervalUnion.Apart ((mergeIntervals intervals).map halfOpen) := by
  rw [mergeIntervals_halfOpen]
  refine apart_join (sorted_mergeSort intervals) ?_
  simp only [List.mem_map, List.mem_mergeSort, forall_exists_index, and_imp, forall_apply_eq_imp_iff₂]
  intro interval hmem
  exact Int.lt_add_one_of_le (Int32.le_iff_toInt_le.mp (h interval hmem))

end Merge

/-- The coordinate is at most the radius away in both directions. -/
def InWindow (centre p : WorldPos) : Prop :=
  (p.1.toInt - centre.1.toInt).natAbs ≤ activeRadius.natAbs ∧
    (p.2.toInt - centre.2.toInt).natAbs ≤ activeRadius.natAbs

/-- Intervals in order, with a coordinate in none of them between any two. -/
structure Separated (intervals : List (Int32 × Int32)) : Prop where
  proper : ∀ interval ∈ intervals, interval.1 ≤ interval.2
  gaps : intervals.Pairwise fun a b => a.2.toInt + 1 < b.1.toInt

section Windows

variable {positions : List WorldPos} {centre p : WorldPos} {y : Int32} {interval : Int32 × Int32}

/-- A window that the ends of the type cut off holds the same values of the type. -/
theorem saturating_window (a x : Int32) : (saturatingSubI32 a activeRadiusI32 ≤ x ∧
    x ≤ saturatingAddI32 a activeRadiusI32) ↔ (x.toInt - a.toInt).natAbs ≤ activeRadius.natAbs := by
  have hradius : activeRadiusI32.toInt = 16 := rfl
  have hradius' : activeRadius.natAbs = 16 := rfl
  have hx := fitsI32_toInt x
  have ha := fitsI32_toInt a
  unfold FitsI32 at hx ha
  have hlow : (saturatingSubI32 a activeRadiusI32).toInt ≤ x.toInt ↔ a.toInt - 16 ≤ x.toInt := by
    rw [saturatingSubI32, toInt_clampI32, hradius]
    split
    · omega
    · split <;> omega
  have hhigh : x.toInt ≤ (saturatingAddI32 a activeRadiusI32).toInt ↔ x.toInt ≤ a.toInt + 16 := by
    rw [saturatingAddI32, toInt_clampI32, hradius]
    split
    · omega
    · split <;> omega
  rw [Int32.le_iff_toInt_le, Int32.le_iff_toInt_le, hlow, hhigh, hradius']
  omega

theorem mem_activeRows : y ∈ activeRows centre ↔ (y.toInt - centre.2.toInt).natAbs ≤ activeRadius.natAbs :=
  mem_rangeInclusive.trans (saturating_window centre.2 y)

theorem activeInterval_proper (centre : WorldPos) : (activeInterval centre).1 ≤ (activeInterval centre).2 := by
  obtain ⟨hlow, hhigh⟩ := (saturating_window centre.1 centre.1).mpr (by simp)
  exact Int32.le_trans hlow hhigh

theorem mem_pushedIntervals : (y, interval) ∈ pushedIntervals positions ↔
    ∃ centre ∈ positions, y ∈ activeRows centre ∧ interval = activeInterval centre := by
  simp only [pushedIntervals, List.mem_flatMap, List.mem_map, Prod.mk.injEq]
  refine exists_congr fun centre => and_congr_right fun _ => ?_
  constructor
  · rintro ⟨y, hy, rfl, rfl⟩
    exact ⟨hy, rfl⟩
  · rintro ⟨hy, rfl⟩
    exact ⟨y, hy, rfl, rfl⟩

end Windows

namespace ActiveFrontier

variable {positions : List WorldPos} {f : ActiveFrontier} {p : WorldPos} {row : Int32 × List (Int32 × Int32)}

theorem mem_rows : row ∈ (around positions).rows ↔ (∃ centre ∈ positions, row.1 ∈ activeRows centre) ∧
    row.2 = mergeIntervals (valuesAt (pushedIntervals positions) row.1) := by
  have hkey (y : Int32) : (∃ interval, (y, interval) ∈ pushedIntervals positions) ↔
      ∃ centre ∈ positions, y ∈ activeRows centre := by
    simp only [mem_pushedIntervals]
    constructor
    · rintro ⟨_, centre, hcentre, hy, -⟩
      exact ⟨centre, hcentre, hy⟩
    · rintro ⟨centre, hcentre, hy⟩
      exact ⟨_, centre, hcentre, hy, rfl⟩
  simp only [around, List.mem_map]
  constructor
  · rintro ⟨⟨y, intervals⟩, hgroup, rfl⟩
    obtain ⟨hy, rfl⟩ := mem_groups.mp hgroup
    exact ⟨(hkey y).mp hy, rfl⟩
  · rintro ⟨hy, hrow⟩
    exact ⟨(row.1, _), mem_groups.mpr ⟨(hkey row.1).mpr hy, rfl⟩, Prod.ext rfl hrow.symm⟩

theorem keys_around : (around positions).rows.map Prod.fst =
    Grouping.keys (fun a b => decide (a ≤ b)) (pushedIntervals positions) := by
  rw [around, List.map_map, ← keys_groups]
  rfl

theorem apart_row (hrow : row ∈ (around positions).rows) : IntervalUnion.Apart (row.2.map halfOpen) := by
  rw [(mem_rows.mp hrow).2]
  refine apart_mergeIntervals fun interval hmem => ?_
  obtain ⟨centre, -, -, rfl⟩ := mem_pushedIntervals.mp (mem_valuesAt.mp hmem)
  exact activeInterval_proper centre

/-- The rows hold the windows and nothing else. -/
theorem contains_around : (around positions).Contains p ↔ ∃ centre ∈ positions, InWindow centre p := by
  have hrow (row : Int32 × List (Int32 × Int32))
      (h : row.2 = mergeIntervals (valuesAt (pushedIntervals positions) row.1)) :
      (∃ interval ∈ row.2, interval.1 ≤ p.1 ∧ p.1 ≤ interval.2) ↔
        ∃ centre ∈ positions, row.1 ∈ activeRows centre ∧
          (p.1.toInt - centre.1.toInt).natAbs ≤ activeRadius.natAbs := by
    simp only [Int32.le_iff_toInt_le, h]
    rw [← covers_halfOpen, covers_mergeIntervals]
    simp only [mem_valuesAt, mem_pushedIntervals, ← Int32.le_iff_toInt_le]
    constructor
    · rintro ⟨_, ⟨centre, hcentre, hy, rfl⟩, hx⟩
      exact ⟨centre, hcentre, hy, (saturating_window _ _).mp hx⟩
    · rintro ⟨centre, hcentre, hy, hx⟩
      exact ⟨_, ⟨centre, hcentre, hy, rfl⟩, (saturating_window _ _).mpr hx⟩
  constructor
  · rintro ⟨row, hmem, hy, hx⟩
    obtain ⟨centre, hcentre, hrows, hcolumns⟩ := (hrow row (mem_rows.mp hmem).2).mp hx
    exact ⟨centre, hcentre, hcolumns, mem_activeRows.mp (hy ▸ hrows)⟩
  · rintro ⟨centre, hcentre, hcolumns, hrows⟩
    have hy := mem_activeRows.mpr hrows
    let row := (p.2, mergeIntervals (valuesAt (pushedIntervals positions) p.2))
    have hmem : row ∈ (around positions).rows := mem_rows.mpr ⟨⟨centre, hcentre, hy⟩, rfl⟩
    exact ⟨row, hmem, rfl, (hrow row rfl).mpr ⟨centre, hcentre, hy, hcolumns⟩⟩

theorem mem_cells : p ∈ f.cells ↔ f.Contains p := by
  simp only [cells, Contains, List.mem_flatMap, List.mem_map, mem_rangeInclusive]
  refine exists_congr fun row => and_congr_right fun _ => ?_
  constructor
  · rintro ⟨interval, hinterval, x, hx, rfl⟩
    exact ⟨rfl, interval, hinterval, hx⟩
  · rintro ⟨hy, interval, hinterval, hx⟩
    exact ⟨interval, hinterval, p.1, hx, Prod.ext rfl hy⟩

/-- The columns of a row, interval after interval. -/
theorem map_toInt_columns (intervals : List (Int32 × Int32)) :
    (intervals.flatMap fun interval => rangeInclusive interval.1 interval.2).map Int32.toInt =
      points (intervals.map halfOpen) := by
  rw [points, List.map_flatMap, List.flatMap_map]
  refine List.flatMap_congr fun interval _ => ?_
  have hlast := (fitsI32_toInt interval.2).2
  have hfirst := (fitsI32_toInt interval.1).1
  have hlength : (halfOpen interval).2 - (halfOpen interval).1 = interval.2.toInt - interval.1.toInt + 1 := by
    simp only [halfOpen]
    omega
  rw [rangeInclusive, List.map_map, hlength]
  refine List.map_congr_left fun n hn => ?_
  rw [List.mem_range] at hn
  exact Int32.toInt_ofInt_of_le (by omega) (by omega)

theorem nodup_cells (positions : List WorldPos) : (around positions).cells.Nodup := by
  refine List.nodup_flatMap.mpr ⟨fun row hrow => ?_, ?_⟩
  · have hcolumns : (row.2.flatMap fun interval => rangeInclusive interval.1 interval.2).Nodup := by
      refine List.Nodup.of_map Int32.toInt ?_
      rw [map_toInt_columns]
      exact (apart_row hrow).nodup_points
    have hcells : (row.2.flatMap fun interval => (rangeInclusive interval.1 interval.2).map fun x => (x, row.1)) =
        (row.2.flatMap fun interval => rangeInclusive interval.1 interval.2).map fun x => (x, row.1) :=
      (List.map_flatMap ..).symm
    rw [hcells]
    exact hcolumns.map fun x x' he => (Prod.mk.inj he).1
  · have hkeys : ((around positions).rows.map Prod.fst).Nodup := by
      rw [keys_around]
      exact nodup_keys
    refine (List.pairwise_map.mp hkeys).imp fun {row row'} hne => ?_
    intro p hp hp'
    simp only [List.mem_flatMap, List.mem_map] at hp hp'
    obtain ⟨_, _, _, _, rfl⟩ := hp
    obtain ⟨_, _, _, _, he⟩ := hp'
    exact hne (Prod.mk.inj he).2.symm

/-- What the frontier is to the centres. The rows come in order, and so do the intervals of a row, with gaps;
the loops visit each coordinate of the windows once, and note those of a world. -/
structure UnionOf (centres : List WorldPos) (f : ActiveFrontier) : Prop where
  contains : ∀ p, f.Contains p ↔ ∃ centre ∈ centres, InWindow centre p
  rows : (f.rows.map Prod.fst).Pairwise (· < ·)
  separated : ∀ row ∈ f.rows, Separated row.2
  mem_cells : ∀ p, p ∈ f.cells ↔ f.Contains p
  nodup_cells : f.cells.Nodup
  mem_noted : ∀ w p, p ∈ f.notedCells w ↔ (∃ centre ∈ centres, InWindow centre p) ∧ w.validCoord p.1 p.2 = true
  nodup_noted : ∀ w, (f.notedCells w).Nodup

/-- The centres may come in any order and more than once; they may lie outside the world. -/
theorem around_unionOf (centres : List WorldPos) (order : HashOrder WorldPos) :
    UnionOf centres (around (order.arrange centres.dedup)) := by
  have hmem (centre : WorldPos) : centre ∈ order.arrange centres.dedup ↔ centre ∈ centres :=
    (order.perm _).mem_iff.trans List.mem_dedup
  have hcontains (p : WorldPos) : (around (order.arrange centres.dedup)).Contains p ↔
      ∃ centre ∈ centres, InWindow centre p := by
    rw [contains_around]
    exact exists_congr fun centre => and_congr_left fun _ => hmem centre
  refine ⟨hcontains, ?_, fun row hrow => ?_, fun p => mem_cells, nodup_cells _, fun w p => ?_, fun w => ?_⟩
  · rw [keys_around]
    have htrans : ∀ a b c : Int32, decide (a ≤ b) = true → decide (b ≤ c) = true → decide (a ≤ c) = true :=
      fun a b c hab hbc => decide_eq_true (Int32.le_trans (of_decide_eq_true hab) (of_decide_eq_true hbc))
    have hsorted := List.pairwise_mergeSort htrans (fun a b => by simpa using Int32.le_total a b)
      ((pushedIntervals (order.arrange centres.dedup)).map Prod.fst).dedup
    refine (hsorted.and nodup_keys).imp fun {a b} hab => ?_
    exact Int32.lt_of_le_of_ne (of_decide_eq_true hab.1) hab.2
  · obtain ⟨hproper, hgaps⟩ := apart_row hrow
    refine ⟨fun interval hinterval => ?_, (List.pairwise_map.mp hgaps).imp fun {a b} hab => hab⟩
    exact Int32.le_iff_toInt_le.mpr (Int.le_of_lt_add_one (hproper _ (List.mem_map_of_mem hinterval)))
  · rw [notedCells, List.mem_filter, mem_cells, hcontains]
  · exact (nodup_cells _).filter _

/-- Two windows that touch make one interval of the rows that they share; at the ends of the type they are cut off. -/
example : mergeFrom (-16) 16 [(17, 49), (2147483631, 2147483647), (2147483647, 2147483647)] =
    [(-16, 49), (2147483631, 2147483647)] := by decide

/-- A centre in the corner of the world has a window with coordinates of no world. -/
theorem contains_outside : (around [(0, 0)]).Contains (-1, -1) ∧ ∀ w : World, w.validCoord (-1) (-1) = false := by
  have hwindow : InWindow (0, 0) (-1, -1) := by constructor <;> decide
  refine ⟨contains_around.mpr ⟨(0, 0), List.mem_singleton_self _, hwindow⟩, fun w => ?_⟩
  exact decide_eq_false fun h => absurd h.1 (by decide)

end ActiveFrontier

end OpenMines.Alive
