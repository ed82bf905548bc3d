import Mathlib.Data.List.Sort
import OpenMines.GranularConservation
import OpenMines.Lib.Grouping

namespace OpenMines

open GranularScanCache Lib.Grouping

section Direct

variable (defs : CellDefs) (g : CellGrid)

/-- `down_free_cached`, with the world in the place of the cache. -/
def downFree (x y : Int) : Nat :=
  if isPassable defs g (x, y + 1) then
    if (g.look (x, y + 2)).any defs.cellIsGranular then
      if !isPassable defs g (x, y + 3) then 1 else 2
    else 1
  else if (g.look (x, y + 1)).any defs.cellIsGranular then 0
  else 2

def canSlideTo (cell : UInt8) (sy tx : Int) : Bool :=
  isPassable defs g (tx, sy + 1) && (defs.isSand cell || isPassable defs g (tx, sy))

/-- Where the grain at a coordinate goes, when each cell is read from the world. -/
def directIntent (s : Pos) : Option GranularIntent :=
  let cell := g.getCell s
  if !g.validCoord s then none
  else if !defs.isSand cell && !isBoulder cell then none
  else if downFree defs g s.1 s.2 = 1 then some ⟨s, (s.1, s.2 + 1), cell⟩
  else if downFree defs g s.1 s.2 ≠ 0 then none
  else if canSlideTo defs g cell s.2 (granularSlideOrder s.1 s.2).1 then
    some ⟨s, ((granularSlideOrder s.1 s.2).1, s.2 + 1), cell⟩
  else if canSlideTo defs g cell s.2 (granularSlideOrder s.1 s.2).2 then
    some ⟨s, ((granularSlideOrder s.1 s.2).2, s.2 + 1), cell⟩
  else none

/-- The candidates of a part with a snapshot of their own. -/
def analyzePart : List Pos → List GranularIntent
  | [] => []
  | first :: rest => (first :: rest).filterMap (analyzeGranularCandidate defs g (forCandidates g first rest))

end Direct

variable {defs : CellDefs} {g : CellGrid} {p q : Pos} {candidates : List Pos}

section Snapshots

variable {cache : GranularScanCache}

/-- What the analysis of a candidate asks, the snapshot answers like the world. -/
def Shows (g : CellGrid) (cache : GranularScanCache) (p : Pos) : Prop := ∀ q ∈ reads p, cache.get q = g.look q

theorem isPassableCached_of_look (defs : CellDefs) (h : cache.get q = g.look q) :
    isPassableCached defs cache q = isPassable defs g q := by
  rw [isPassableCached, h, CellGrid.look, isPassable]
  cases g.validCoord q <;> simp

theorem Shows.downFree (h : Shows g cache p) : downFreeCached defs cache p.1 p.2 = downFree defs g p.1 p.2 := by
  have hone := isPassableCached_of_look defs (h (p.1, p.2 + 1) (by simp [reads]))
  have hthree := isPassableCached_of_look defs (h (p.1, p.2 + 3) (by simp [reads]))
  rw [downFreeCached, OpenMines.downFree, hone, hthree, h (p.1, p.2 + 1) (by simp [reads]),
    h (p.1, p.2 + 2) (by simp [reads])]

theorem Shows.canSlide (h : Shows g cache p) (cell : UInt8) {x : Int} (hx : x = p.1 + 1 ∨ x = p.1 - 1) :
    canSlide defs cache cell p.2 x = canSlideTo defs g cell p.2 x := by
  have hrow : (x, p.2) ∈ reads p := by rcases hx with rfl | rfl <;> simp [reads]
  have hbelow : (x, p.2 + 1) ∈ reads p := by rcases hx with rfl | rfl <;> simp [reads]
  rw [OpenMines.canSlide, canSlideTo, isPassableCached_of_look defs (h _ hbelow),
    isPassableCached_of_look defs (h _ hrow)]

/-- The snapshot leads to the intent that the world itself does. -/
theorem Shows.analyze (h : Shows g cache p) : analyzeGranularCandidate defs g cache p = directIntent defs g p := by
  have hmem := granularSlideOrder_mem p.1 p.2
  rw [analyzeGranularCandidate, directIntent]
  split
  · rfl
  · rename_i hvalid
    have hself : cache.get p = some (g.getCell p) := by
      rw [h p (by simp [reads]), CellGrid.look, if_pos (by simpa using hvalid)]
    rw [hself, Option.bind_some, granularIntent, h.downFree, h.canSlide _ hmem.1, h.canSlide _ hmem.2]

theorem shows_forCandidates {first : Pos} {rest : List Pos} (hp : p ∈ first :: rest) :
    Shows g (forCandidates g first rest) p := fun _ hq => get_reads hp hq

theorem analyzePart_eq (defs : CellDefs) (g : CellGrid) (part : List Pos) :
    analyzePart defs g part = part.filterMap (directIntent defs g) := by
  cases part with
  | nil => rfl
  | cons first rest => exact List.filterMap_congr fun p hp => (shows_forCandidates hp).analyze

end Snapshots

section Batches

/-- The batches hold the candidates, chunk after chunk. -/
theorem perm_candidates (g : CellGrid) (candidates : List Pos) :
    ((buildGranularCandidateBatches g candidates).flatMap GranularCandidateBatch.candidates).Perm candidates := by
  have howner : ∀ owner, Option.elim (match candidates.filter (fun c => granularChunkKey c = owner) with
      | [] => none
      | first :: rest => some (GranularCandidateBatch.mk owner (first :: rest) (forCandidates g first rest))) []
        GranularCandidateBatch.candidates = candidates.filter fun c => granularChunkKey c = owner := by
    intro owner
    cases candidates.filter fun c => granularChunkKey c = owner <;> rfl
  rw [buildGranularCandidateBatches, flatMap_filterMap]
  refine (List.Perm.of_eq (List.flatMap_congr fun owner _ => howner owner)).trans ?_
  refine perm_flatMap_filter granularChunkKey ((List.mergeSort_perm _ _).nodup_iff.mpr (List.nodup_dedup _)) ?_
  intro c hc
  rw [List.mem_mergeSort, List.mem_dedup]
  exact List.mem_map_of_mem hc

theorem perm_analyzeGranularCandidates (defs : CellDefs) (g : CellGrid) (candidates : List Pos) :
    (analyzeGranularCandidates defs g candidates).Perm (candidates.filterMap (directIntent defs g)) := by
  have hbatch : ∀ batch ∈ buildGranularCandidateBatches g candidates, analyzeGranularBatch defs g batch =
      batch.candidates.filterMap (directIntent defs g) := by
    intro batch hmem
    obtain ⟨first, rest, hcandidates, hsnapshot, -⟩ := mem_batch hmem
    rw [analyzeGranularBatch, hsnapshot, hcandidates]
    exact List.filterMap_congr fun p hp => (shows_forCandidates hp).analyze
  rw [analyzeGranularCandidates, List.flatMap_congr hbatch, ← List.filterMap_flatMap]
  exact (perm_candidates g candidates).filterMap _

/-- The order in which intents are found does not matter. -/
theorem canonicalize_congr {is js : List GranularIntent} (h : is.Perm js) :
    canonicalizeGranularIntents is = canonicalizeGranularIntents js := by
  have hantisymm : ∀ a b : GranularIntent, a.stableLe b = true → b.stableLe a = true → a = b := by
    intro a b hab hba
    simp only [GranularIntent.stableLe, decide_eq_true_eq] at hab hba
    have hkey := le_antisymm hab hba
    simp only [List.cons.injEq, and_true, Nat.cast_inj, UInt8.toNat_inj] at hkey
    obtain ⟨hx, hy, hx', hy', hcell⟩ := hkey
    obtain ⟨src, dest, cell⟩ := a
    obtain ⟨src', dest', cell'⟩ := b
    congr
    · exact Prod.ext hx hy
    · exact Prod.ext hx' hy'
  have hsort : is.mergeSort GranularIntent.stableLe = js.mergeSort GranularIntent.stableLe := by
    refine List.Perm.eq_of_pairwise (fun a b _ _ => hantisymm a b) (sorted_mergeSort is) (sorted_mergeSort js) ?_
    exact ((List.mergeSort_perm is _).trans h).trans (List.mergeSort_perm js _).symm
  rw [canonicalizeGranularIntents, canonicalizeGranularIntents, hsort]

/-- One batch for each chunk, or a snapshot for each part of any partition: the intents to apply are those that
the world itself gives candidate after candidate, and no snapshot lacks a candidate of the world. -/
theorem batched_eq_direct (defs : CellDefs) (g : CellGrid) (candidates : List Pos) (parts : List (List Pos))
    (hparts : parts.flatten.Perm candidates) :
    canonicalizeGranularIntents (analyzeGranularCandidates defs g candidates) =
        canonicalizeGranularIntents (candidates.filterMap (directIntent defs g)) ∧
      canonicalizeGranularIntents (parts.flatMap (analyzePart defs g)) =
        canonicalizeGranularIntents (candidates.filterMap (directIntent defs g)) ∧
      (∀ batch ∈ buildGranularCandidateBatches g candidates, ∀ c ∈ batch.candidates, g.validCoord c = true →
        batch.snapshot.get c = some (g.getCell c)) ∧
      ∀ first rest, (first :: rest) ∈ parts → ∀ c ∈ first :: rest, g.validCoord c = true →
        (forCandidates g first rest).get c = some (g.getCell c) := by
  have hself {first : Pos} {rest : List Pos} {c : Pos} (hc : c ∈ first :: rest) (hvalid : g.validCoord c = true) :
      (forCandidates g first rest).get c = some (g.getCell c) := by
    rw [shows_forCandidates hc c (by simp [reads]), CellGrid.look, if_pos hvalid]
  refine ⟨canonicalize_congr (perm_analyzeGranularCandidates defs g candidates), canonicalize_congr ?_, ?_, ?_⟩
  · rw [funext (analyzePart_eq defs g), ← List.filterMap_flatMap, List.flatMap_id']
    exact hparts.filterMap _
  · intro batch hbatch c hc hvalid
    obtain ⟨first, rest, hcandidates, hsnapshot, -⟩ := mem_batch hbatch
    rw [hsnapshot]
    exact hself (hcandidates ▸ hc) hvalid
  · intro first rest _ c hc hvalid
    exact hself hc hvalid

/-- A grain of sand at the border of two chunks. -/
def borderGrain : CellGrid where
  width := 64
  height := 32
  foreground p := if p = (31, 4) then 100 else 0
  road _ := emptyCell
  durability _ := 0

/-- The candidates come from two chunks of the world and from outside. -/
theorem batched_eq_direct_border :
    canonicalizeGranularIntents (analyzeGranularCandidates .cellsJson borderGrain [(33, 4), (10000, -3), (31, 4)]) =
        canonicalizeGranularIntents ([(33, 4), (10000, -3), (31, 4)].filterMap (directIntent .cellsJson borderGrain)) ∧
      canonicalizeGranularIntents ([[(31, 4), (10000, -3)], [(33, 4)]].flatMap (analyzePart .cellsJson borderGrain)) =
        canonicalizeGranularIntents ([(33, 4), (10000, -3), (31, 4)].filterMap (directIntent .cellsJson borderGrain)) ∧
      [(33, 4), (10000, -3), (31, 4)].filterMap (directIntent .cellsJson borderGrain) = [⟨(31, 4), (31, 5), 100⟩] := by
  obtain ⟨hbatches, hparts, -, -⟩ := batched_eq_direct .cellsJson borderGrain [(33, 4), (10000, -3), (31, 4)]
    [[(31, 4), (10000, -3)], [(33, 4)]] (by decide)
  exact ⟨hbatches, hparts, by decide⟩

end Batches

end OpenMines
