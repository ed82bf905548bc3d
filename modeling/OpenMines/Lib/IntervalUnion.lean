import Mathlib.Data.Int.Order.Basic
import Mathlib.Data.List.Nodup
import Mathlib.Data.List.Range
import Mathlib.Order.MinMax

namespace OpenMines.Lib.IntervalUnion

section Join

variable {α : Type} [LinearOrder α]

/-- Some interval holds the point; the second end of an interval is not in it. -/
def Covers (l : List (α × α)) (x : α) : Prop := ∃ r ∈ l, r.1 ≤ x ∧ x < r.2

/-- Intervals in order, each of some length, and none touches the next. -/
structure Apart (l : List (α × α)) : Prop where
  proper : ∀ r ∈ l, r.1 < r.2
  gaps : l.Pairwise fun r s => r.2 < s.1

/-- The intervals joined to the one that is open. -/
def joinFrom (start stop : α) : List (α × α) → List (α × α)
  | [] => [(start, stop)]
  | r :: rest => if r.1 ≤ stop then joinFrom start (max stop r.2) rest else (start, stop) :: joinFrom r.1 r.2 rest

/-- The union of intervals that are sorted by their starts. -/
def join : List (α × α) → List (α × α)
  | [] => []
  | r :: rest => joinFrom r.1 r.2 rest

/-- The starts do not decrease. -/
def Sorted (l : List (α × α)) : Prop := l.Pairwise fun r s => r.1 ≤ s.1

variable {l : List (α × α)} {start stop x : α} {r s : α × α}

@[simp] theorem not_covers_nil : ¬ Covers [] x := by simp [Covers]

@[simp] theorem covers_cons : Covers (r :: l) x ↔ r.1 ≤ x ∧ x < r.2 ∨ Covers l x := by simp [Covers]

/-- The next interval is taken into the open one. -/
theorem Sorted.absorb (h : Sorted ((start, stop) :: r :: l)) (stop' : α) : Sorted ((start, stop') :: l) := by
  obtain ⟨hstart, hrest⟩ := List.pairwise_cons.mp h
  exact List.pairwise_cons.mpr ⟨fun s hs => hstart s (List.mem_cons_of_mem _ hs), hrest.of_cons⟩

theorem covers_joinFrom (hsorted : Sorted ((start, stop) :: l)) :
    Covers (joinFrom start stop l) x ↔ start ≤ x ∧ x < stop ∨ Covers l x := by
  induction l generalizing start stop with
  | nil => simp [joinFrom]
  | cons r rest ih =>
      obtain ⟨hstart, hrest⟩ := List.pairwise_cons.mp hsorted
      have hfirst : start ≤ r.1 := hstart r List.mem_cons_self
      rw [joinFrom]
      split
      · rename_i hjoins
        have hjoined : start ≤ x ∧ x < max stop r.2 ↔ start ≤ x ∧ x < stop ∨ r.1 ≤ x ∧ x < r.2 := by
          rw [lt_max_iff]
          constructor
          · rintro ⟨hx, hstop | hr⟩
            · exact .inl ⟨hx, hstop⟩
            · rcases lt_or_ge x stop with hlt | hge
              · exact .inl ⟨hx, hlt⟩
              · exact .inr ⟨hjoins.trans hge, hr⟩
          · rintro (⟨hx, hstop⟩ | ⟨hx, hr⟩)
            · exact ⟨hx, .inl hstop⟩
            · exact ⟨hfirst.trans hx, .inr hr⟩
        rw [ih (hsorted.absorb (max stop r.2)), hjoined, covers_cons, or_assoc]
      · rw [covers_cons, covers_cons, ih hrest]

/-- The union covers what the intervals do. -/
theorem covers_join (hsorted : Sorted l) : Covers (join l) x ↔ Covers l x := by
  cases l with
  | nil => exact Iff.rfl
  | cons r rest => exact (covers_joinFrom hsorted).trans covers_cons.symm

theorem le_of_mem_joinFrom (hsorted : Sorted ((start, stop) :: l)) (h : s ∈ joinFrom start stop l) : start ≤ s.1 := by
  induction l generalizing start stop with
  | nil => exact le_of_eq (congrArg Prod.fst (List.mem_singleton.mp h)).symm
  | cons r rest ih =>
      obtain ⟨hstart, hrest⟩ := List.pairwise_cons.mp hsorted
      rw [joinFrom] at h
      split at h
      · exact ih (hsorted.absorb (max stop r.2)) h
      · rcases List.mem_cons.mp h with rfl | h
        · exact le_rfl
        · exact (hstart r List.mem_cons_self).trans (ih hrest h)

theorem apart_joinFrom (hsorted : Sorted ((start, stop) :: l)) (hproper : ∀ r ∈ (start, stop) :: l, r.1 < r.2) :
    Apart (joinFrom start stop l) := by
  induction l generalizing start stop with
  | nil => exact ⟨hproper, List.pairwise_singleton _ _⟩
  | cons r rest ih =>
      obtain ⟨hstart, hrest⟩ := List.pairwise_cons.mp hsorted
      obtain ⟨hopen, hlater⟩ := List.forall_mem_cons.mp hproper
      rw [joinFrom]
      split
      · refine ih (hsorted.absorb (max stop r.2)) ?_
        refine List.forall_mem_cons.mpr ⟨hopen.trans_le (le_max_left stop r.2), fun s hs => ?_⟩
        exact hlater s (List.mem_cons_of_mem _ hs)
      · rename_i hgap
        obtain ⟨hall, hgaps⟩ := ih hrest hlater
        refine ⟨List.forall_mem_cons.mpr ⟨hopen, hall⟩, List.pairwise_cons.mpr ⟨fun s hs => ?_, hgaps⟩⟩
        exact (not_le.mp hgap).trans_le (le_of_mem_joinFrom hrest hs)

theorem apart_join (hsorted : Sorted l) (hproper : ∀ r ∈ l, r.1 < r.2) : Apart (join l) := by
  cases l with
  | nil => exact ⟨fun r hr => absurd hr List.not_mem_nil, List.Pairwise.nil⟩
  | cons r rest => exact apart_joinFrom hsorted hproper

end Join

section Points

/-- The points of the intervals, in order. -/
def points (l : List (Int × Int)) : List Int :=
  l.flatMap fun r => (List.range (r.2 - r.1).toNat).map fun n : Nat => r.1 + n

variable {l : List (Int × Int)} {x : Int}

theorem mem_points : x ∈ points l ↔ Covers l x := by
  simp only [points, Covers, List.mem_flatMap, List.mem_map, List.mem_range]
  refine exists_congr fun r => and_congr_right fun _ => ?_
  constructor
  · rintro ⟨n, hn, rfl⟩
    omega
  · rintro ⟨hlow, hhigh⟩
    exact ⟨(x - r.1).toNat, by omega, by omega⟩

/-- Intervals that are apart hold each of their points once. -/
theorem Apart.nodup_points (h : Apart l) : (points l).Nodup := by
  refine List.nodup_flatMap.mpr ⟨fun r _ => ?_, ?_⟩
  · refine List.nodup_range.map fun m n (hmn : r.1 + (m : Int) = r.1 + n) => ?_
    omega
  · refine h.gaps.imp fun {r s} hgap => ?_
    intro x hr hs
    obtain ⟨m, hm, rfl⟩ := List.mem_map.mp hr
    obtain ⟨n, -, hn⟩ := List.mem_map.mp hs
    rw [List.mem_range] at hm
    omega

end Points

end OpenMines.Lib.IntervalUnion
