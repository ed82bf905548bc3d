import OpenMines.Granular

namespace OpenMines

variable {defs : CellDefs} {g h : CellGrid} {p q : Pos}

/-- The coordinates that decide whether and where a grain falls. -/
def reads (p : Pos) : List Pos :=
  [p, (p.1, p.2 + 1), (p.1, p.2 + 2), (p.1, p.2 + 3), (p.1 - 1, p.2), (p.1 + 1, p.2),
    (p.1 - 1, p.2 + 1), (p.1 + 1, p.2 + 1)]

theorem foldl_min_le (f : Pos → Int) (l : List Pos) (a : Int) :
    l.foldl (fun m c => min m (f c)) a ≤ a ∧ ∀ c ∈ l, l.foldl (fun m c => min m (f c)) a ≤ f c := by
  induction l generalizing a with
  | nil => simp
  | cons c l ih =>
      obtain ⟨hle, hall⟩ := ih (min a (f c))
      simp only [List.foldl_cons, List.mem_cons, forall_eq_or_imp]
      exact ⟨by omega, by omega, hall⟩

theorem le_foldl_max (f : Pos → Int) (l : List Pos) (a : Int) :
    a ≤ l.foldl (fun m c => max m (f c)) a ∧ ∀ c ∈ l, f c ≤ l.foldl (fun m c => max m (f c)) a := by
  induction l generalizing a with
  | nil => simp
  | cons c l ih =>
      obtain ⟨hle, hall⟩ := ih (max a (f c))
      simp only [List.foldl_cons, List.mem_cons, forall_eq_or_imp]
      exact ⟨by omega, by omega, hall⟩

namespace GranularScanCache

/-- Inside its bounds the snapshot shows the world. -/
theorem get_ofBounds {minX maxX minY maxY : Int} (hx : minX ≤ p.1 ∧ p.1 ≤ maxX)
    (hy : minY ≤ p.2 ∧ p.2 ≤ maxY) : (ofBounds g minX maxX minY maxY).get p = g.look p := by
  have hrow : (p.2 - minY).toNat < (maxY - minY + 1).toNat := by omega
  have hcol : (p.1 - minX).toNat < (maxX - minX + 1).toNat := by omega
  have hp : (minX + ((p.1 - minX).toNat : Int), minY + ((p.2 - minY).toNat : Int)) = p := by
    apply Prod.ext <;> simp only <;> omega
  have hbelow : ¬ (p.1 - minX < 0 ∨ p.2 - minY < 0) := by omega
  have habove : ¬ ((p.1 - minX).toNat ≥ (maxX - minX + 1).toNat ∨
      (p.2 - minY).toNat ≥ (maxY - minY + 1).toNat) := by omega
  refine (if_neg hbelow).trans ((if_neg habove).trans ?_)
  refine (congrArg Option.join (CellGrid.getElem?_snapshotCellsRect hrow hcol)).trans ?_
  rw [hp, Option.join_some]

/-- The snapshot of a batch shows all that the analysis of its candidates reads. -/
theorem get_forCandidates {first c : Pos} {rest : List Pos} (hc : c ∈ first :: rest)
    (hx : -1 ≤ q.1 - c.1 ∧ q.1 - c.1 ≤ 1) (hy : 0 ≤ q.2 - c.2 ∧ q.2 - c.2 ≤ 3) :
    (forCandidates g first rest).get q = g.look q := by
  obtain ⟨hx1, hx1'⟩ := foldl_min_le (fun c => c.1 - granularCacheXPad) rest (first.1 - granularCacheXPad)
  obtain ⟨hx2, hx2'⟩ := le_foldl_max (fun c => c.1 + granularCacheXPad) rest (first.1 + granularCacheXPad)
  obtain ⟨hy1, hy1'⟩ := foldl_min_le (fun c => c.2) rest first.2
  obtain ⟨hy2, hy2'⟩ := le_foldl_max (fun c => c.2 + granularCacheYLookahead) rest
    (first.2 + granularCacheYLookahead)
  simp only [granularCacheXPad, granularCacheYLookahead] at hx1 hx1' hx2 hx2' hy2 hy2'
  refine get_ofBounds ?_ ?_
  · simp only [granularCacheXPad]
    rcases List.mem_cons.mp hc with rfl | hc
    · omega
    · have := hx1' c hc
      have := hx2' c hc
      omega
  · simp only [granularCacheYLookahead]
    rcases List.mem_cons.mp hc with rfl | hc
    · omega
    · have := hy1' c hc
      have := hy2' c hc
      omega

theorem get_reads {first c : Pos} {rest : List Pos} (hc : c ∈ first :: rest) (hq : q ∈ reads c) :
    (forCandidates g first rest).get q = g.look q := by
  simp only [reads, List.mem_cons, List.not_mem_nil, or_false] at hq
  apply get_forCandidates hc
  · rcases hq with rfl | rfl | rfl | rfl | rfl | rfl | rfl | rfl <;> simp
  · rcases hq with rfl | rfl | rfl | rfl | rfl | rfl | rfl | rfl <;> simp

end GranularScanCache

open GranularScanCache

theorem isPassableCached_congr (defs : CellDefs) {cache cache' : GranularScanCache} (hget : cache.get q = cache'.get q) :
    isPassableCached defs cache q = isPassableCached defs cache' q := by
  rw [isPassableCached, isPassableCached, hget]

theorem granularSlideOrder_mem (x y : Int) :
    ((granularSlideOrder x y).1 = x + 1 ∨ (granularSlideOrder x y).1 = x - 1) ∧
      ((granularSlideOrder x y).2 = x + 1 ∨ (granularSlideOrder x y).2 = x - 1) := by
  unfold granularSlideOrder
  split <;> simp

/-- The cell three rows down only matters for how far the way down is free. -/
theorem analyze_congr_of_downFree {cache cache' : GranularScanCache} (hvalid : g.validCoord p = h.validCoord p)
    (hget : ∀ q ∈ reads p, q ≠ (p.1, p.2 + 3) → cache.get q = cache'.get q)
    (hdown : downFreeCached defs cache p.1 p.2 = downFreeCached defs cache' p.1 p.2) :
    analyzeGranularCandidate defs g cache p = analyzeGranularCandidate defs h cache' p := by
  have hpass (dx dy : Int) (hq : (p.1 + dx, p.2 + dy) ∈ reads p) (hdy : dy ≠ 3) :
      isPassableCached defs cache (p.1 + dx, p.2 + dy) = isPassableCached defs cache' (p.1 + dx, p.2 + dy) :=
    isPassableCached_congr defs (hget _ hq (by simp [hdy]))
  have hslide (cell : UInt8) (dx : Int) (hdx : dx = 1 ∨ dx = -1) :
      canSlide defs cache cell p.2 (p.1 + dx) = canSlide defs cache' cell p.2 (p.1 + dx) := by
    have hrow := hpass dx 0 (by rcases hdx with rfl | rfl <;> simp [reads, Int.sub_eq_add_neg]) (by decide)
    have hbelow := hpass dx 1 (by rcases hdx with rfl | rfl <;> simp [reads, Int.sub_eq_add_neg]) (by decide)
    rw [Int.add_zero] at hrow
    rw [canSlide, canSlide, hrow, hbelow]
  have hmem := granularSlideOrder_mem p.1 p.2
  obtain ⟨dx, hdx, hfirst⟩ : ∃ dx, (dx = 1 ∨ dx = -1) ∧ (granularSlideOrder p.1 p.2).1 = p.1 + dx := by
    rcases hmem.1 with he | he
    · exact ⟨1, .inl rfl, he⟩
    · exact ⟨-1, .inr rfl, he⟩
  obtain ⟨ex, hex, hsecond⟩ : ∃ dx, (dx = 1 ∨ dx = -1) ∧ (granularSlideOrder p.1 p.2).2 = p.1 + dx := by
    rcases hmem.2 with he | he
    · exact ⟨1, .inl rfl, he⟩
    · exact ⟨-1, .inr rfl, he⟩
  rw [analyzeGranularCandidate, analyzeGranularCandidate, hvalid,
    hget p (by simp [reads]) (fun he => by simpa using congrArg Prod.snd he)]
  congr 2
  funext cell
  rw [granularIntent, granularIntent, hdown, hfirst, hsecond, hslide cell dx hdx, hslide cell ex hex]

/-- The analysis reads nothing else. -/
theorem analyze_congr {cache cache' : GranularScanCache} (hvalid : g.validCoord p = h.validCoord p)
    (hget : ∀ q ∈ reads p, cache.get q = cache'.get q) :
    analyzeGranularCandidate defs g cache p = analyzeGranularCandidate defs h cache' p := by
  refine analyze_congr_of_downFree hvalid (fun q hq _ => hget q hq) ?_
  have hone := isPassableCached_congr defs (hget (p.1, p.2 + 1) (by simp [reads]))
  have hthree := isPassableCached_congr defs (hget (p.1, p.2 + 3) (by simp [reads]))
  rw [downFreeCached, downFreeCached, hone, hthree, hget (p.1, p.2 + 1) (by simp [reads]),
    hget (p.1, p.2 + 2) (by simp [reads])]

/-- What a grain does in the world as it is. -/
def analyzeAt (defs : CellDefs) (g : CellGrid) (p : Pos) : Option GranularIntent :=
  analyzeGranularCandidate defs g (forCandidates g p []) p

theorem analyze_eq_analyzeAt {first : Pos} {rest : List Pos} (hp : p ∈ first :: rest) :
    analyzeGranularCandidate defs g (forCandidates g first rest) p = analyzeAt defs g p := by
  refine analyze_congr rfl fun q hq => ?_
  rw [get_reads hp hq, get_reads (List.mem_singleton.mpr rfl) hq]

theorem isPassableCached_reads (hq : q ∈ reads p) :
    isPassableCached defs (forCandidates g p []) q = isPassable defs g q := by
  rw [isPassableCached, get_reads (List.mem_singleton.mpr rfl) hq, CellGrid.look, isPassable]
  cases g.validCoord q <;> simp

theorem downFree_ne_two {cache : GranularScanCache} {i : GranularIntent}
    (hi : analyzeGranularCandidate defs g cache p = some i) : downFreeCached defs cache p.1 p.2 ≠ 2 := by
  intro hdown
  unfold analyzeGranularCandidate at hi
  split at hi
  · cases hi
  · obtain ⟨cell, -, hi⟩ := Option.bind_eq_some_iff.mp hi
    simp [granularIntent, hdown] at hi

/-- A grain that comes to be able to move, while what it reads nearby has not changed,
has lost the passable cell three rows down. -/
theorem analyzeAt_or_blocked (hlook : ∀ q ∈ reads p, q ≠ (p.1, p.2 + 3) → g.look q = h.look q)
    (hvalid : g.validCoord p = h.validCoord p) (hmobile : (analyzeAt defs h p).isSome = true) :
    analyzeAt defs g p = analyzeAt defs h p ∨
      isPassable defs g (p.1, p.2 + 3) = true ∧ isPassable defs h (p.1, p.2 + 3) = false := by
  obtain ⟨i, hi⟩ := Option.isSome_iff_exists.mp hmobile
  have hget (q : Pos) (hq : q ∈ reads p) (hne : q ≠ (p.1, p.2 + 3)) :
      (forCandidates g p []).get q = (forCandidates h p []).get q := by
    rw [get_reads (List.mem_singleton.mpr rfl) hq, get_reads (List.mem_singleton.mpr rfl) hq, hlook q hq hne]
  have hthree (g : CellGrid) : isPassableCached defs (forCandidates g p []) (p.1, p.2 + 3) =
      isPassable defs g (p.1, p.2 + 3) := isPassableCached_reads (by simp [reads])
  by_cases hblocked : isPassable defs g (p.1, p.2 + 3) = true ∧ isPassable defs h (p.1, p.2 + 3) = false
  · exact .inr hblocked
  · left
    refine analyze_congr_of_downFree hvalid hget ?_
    have hdown := downFree_ne_two hi
    have hone : isPassableCached defs (forCandidates g p []) (p.1, p.2 + 1) =
        isPassableCached defs (forCandidates h p []) (p.1, p.2 + 1) :=
      isPassableCached_congr defs (hget _ (by simp [reads]) (by simp))
    simp only [downFreeCached, hthree, hone, hget (p.1, p.2 + 1) (by simp [reads]) (by simp),
      hget (p.1, p.2 + 2) (by simp [reads]) (by simp)] at hdown ⊢
    split
    · split
      · cases hg : isPassable defs g (p.1, p.2 + 3) <;> cases hh : isPassable defs h (p.1, p.2 + 3) <;>
          simp_all
      · rfl
    · rfl

theorem analyzeAt_congr (hlook : ∀ q ∈ reads p, g.look q = h.look q)
    (hvalid : g.validCoord p = h.validCoord p) : analyzeAt defs g p = analyzeAt defs h p := by
  refine analyze_congr hvalid fun q hq => ?_
  rw [get_reads (List.mem_singleton.mpr rfl) hq, get_reads (List.mem_singleton.mpr rfl) hq, hlook q hq]

/-- A grain falls or slides one row down, from inside the world. -/
structure GranularIntent.Of (defs : CellDefs) (g : CellGrid) (p : Pos) (i : GranularIntent) : Prop where
  src : i.src = p
  valid : g.validCoord p = true
  cell : i.cell = g.getCell p
  granular : defs.cellIsGranular i.cell = true
  row : i.dest.2 = p.2 + 1
  column : -1 ≤ i.dest.1 - p.1 ∧ i.dest.1 - p.1 ≤ 1

theorem of_analyzeAt {i : GranularIntent} (hi : analyzeAt defs g p = some i) : i.Of defs g p := by
  unfold analyzeAt analyzeGranularCandidate at hi
  split at hi
  · cases hi
  · rename_i hvalid
    have hvalid : g.validCoord p = true := by simpa using hvalid
    obtain ⟨cell, hcell, hi⟩ := Option.bind_eq_some_iff.mp hi
    rw [get_reads (List.mem_singleton.mpr rfl) (by simp [reads]), CellGrid.look, if_pos hvalid] at hcell
    cases hcell
    obtain ⟨hfirst, hsecond⟩ := granularSlideOrder_mem p.1 p.2
    unfold granularIntent at hi
    split at hi
    · cases hi
    · rename_i hgrain
      have hgranular : defs.cellIsGranular (g.getCell p) = true := by
        rw [CellDefs.cellIsGranular]
        revert hgrain
        cases defs.isSand (g.getCell p) <;> cases isBoulder (g.getCell p) <;> simp
      split at hi
      · cases hi
        exact ⟨rfl, hvalid, rfl, hgranular, rfl, by simp⟩
      · split at hi
        · cases hi
        · split at hi
          · cases hi
            exact ⟨rfl, hvalid, rfl, hgranular, rfl, by simp only; omega⟩
          · split at hi
            · cases hi
              exact ⟨rfl, hvalid, rfl, hgranular, rfl, by simp only; omega⟩
            · cases hi

theorem mem_batch {candidates : List Pos} {batch : GranularCandidateBatch}
    (h : batch ∈ buildGranularCandidateBatches g candidates) :
    ∃ first rest, batch.candidates = first :: rest ∧ batch.snapshot = forCandidates g first rest ∧
      ∀ c ∈ batch.candidates, c ∈ candidates := by
  simp only [buildGranularCandidateBatches, List.mem_filterMap] at h
  obtain ⟨owner, -, h⟩ := h
  split at h
  · cases h
  · rename_i first rest hfilter
    cases h
    refine ⟨first, rest, rfl, rfl, fun c hc => ?_⟩
    rw [← hfilter] at hc
    exact (List.mem_filter.mp hc).1

theorem exists_batch {candidates : List Pos} {c : Pos} (h : c ∈ candidates) :
    ∃ batch ∈ buildGranularCandidateBatches g candidates, c ∈ batch.candidates := by
  have hfilter : c ∈ candidates.filter (fun d => granularChunkKey d = granularChunkKey c) := by
    simp [h]
  simp only [buildGranularCandidateBatches, List.mem_filterMap]
  cases hc : candidates.filter (fun d => granularChunkKey d = granularChunkKey c) with
  | nil =>
      rw [hc] at hfilter
      cases hfilter
  | cons first rest =>
      rw [hc] at hfilter
      refine ⟨_, ⟨granularChunkKey c, ?_, by rw [hc]⟩, hfilter⟩
      rw [List.mem_mergeSort, List.mem_dedup]
      exact List.mem_map_of_mem h

/-- Batches and their snapshots do not change what is found. -/
theorem mem_analyzeGranularCandidates {candidates : List Pos} {i : GranularIntent} :
    i ∈ analyzeGranularCandidates defs g candidates ↔ ∃ c ∈ candidates, analyzeAt defs g c = some i := by
  simp only [analyzeGranularCandidates, List.mem_flatMap, analyzeGranularBatch, List.mem_filterMap]
  constructor
  · rintro ⟨batch, hbatch, c, hc, hi⟩
    obtain ⟨first, rest, hcands, hsnap, hsub⟩ := mem_batch hbatch
    rw [hsnap, analyze_eq_analyzeAt (hcands ▸ hc)] at hi
    exact ⟨c, hsub c hc, hi⟩
  · rintro ⟨c, hc, hi⟩
    obtain ⟨batch, hbatch, hmem⟩ := exists_batch (g := g) hc
    obtain ⟨first, rest, hcands, hsnap, -⟩ := mem_batch hbatch
    refine ⟨batch, hbatch, c, hmem, ?_⟩
    rw [hsnap, analyze_eq_analyzeAt (hcands ▸ hmem), hi]

end OpenMines
