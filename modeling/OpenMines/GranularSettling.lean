import OpenMines.GranularConservation

namespace OpenMines

open CellGrid Lib.Conservation Lib.Run

section Destination

variable {defs : CellDefs} {g : CellGrid} {p : Pos} {i : GranularIntent}

/-- A grain intends to go to a cell that is free when it looks. -/
theorem isPassable_dest_of_analyzeAt (hi : analyzeAt defs g p = some i) : isPassable defs g i.dest = true := by
  have hbelow : isPassableCached defs (.forCandidates g p []) (p.1, p.2 + 1) = isPassable defs g (p.1, p.2 + 1) :=
    isPassableCached_reads (by simp [reads])
  have hslide (cell : UInt8) (tx : Int) (htx : tx = p.1 + 1 ∨ tx = p.1 - 1)
      (h : canSlide defs (.forCandidates g p []) cell p.2 tx = true) : isPassable defs g (tx, p.2 + 1) = true := by
    rw [canSlide, Bool.and_eq_true] at h
    rw [← isPassableCached_reads (p := p) (by rcases htx with rfl | rfl <;> simp [reads])]
    exact h.1
  obtain ⟨hfirst, hsecond⟩ := granularSlideOrder_mem p.1 p.2
  unfold analyzeAt analyzeGranularCandidate at hi
  split at hi
  · cases hi
  · obtain ⟨cell, _, hi⟩ := Option.bind_eq_some_iff.mp hi
    unfold granularIntent at hi
    split at hi
    · cases hi
    · split at hi
      · rename_i hdown
        cases hi
        rw [downFreeCached] at hdown
        split at hdown
        · rename_i hpass
          rw [← hbelow, hpass]
        · split at hdown <;> cases hdown
      · split at hi
        · cases hi
        · split at hi
          · rename_i hcan
            cases hi
            exact hslide cell _ hfirst hcan
          · split at hi
            · rename_i hcan
              cases hi
              exact hslide cell _ hsecond hcan
            · cases hi

end Destination

section Energy

variable {defs : CellDefs} {g : CellGrid} {i : GranularIntent} {is : List GranularIntent} {io : List (Bool × Bool)}

/-- How far a grain is above the lower border, and nothing for other cells. -/
def CellGrid.heightOf (defs : CellDefs) (g : CellGrid) (p : Pos) : Nat :=
  if defs.cellIsGranular (g.getCell p) then (g.height - p.2).toNat else 0

/-- The sum of the heights of all grains. -/
def CellGrid.energy (defs : CellDefs) (g : CellGrid) : Nat := ∑ p ∈ g.coords, g.heightOf defs p

@[simp] theorem height_moveGrain (srcOk destOk : Bool) : (moveGrain defs g i srcOk destOk).height = g.height := by
  simp [moveGrain, setCellTyped]

/-- A move whose source is cleared lowers its grain, or loses it. -/
theorem energy_moveGrain (h : defs.Sound) (hi : i.Ready defs g) (hrow : i.dest.2 = i.src.2 + 1)
    (hdest : isPassable defs g i.dest = true) (destOk : Bool) :
    (moveGrain defs g i true destOk).energy defs < g.energy defs := by
  have hne := hi.ne_of_passable h hdest
  obtain ⟨hvalid, hcell, hgrain⟩ := hi
  have hdestValid : g.validCoord i.dest = true := (Bool.and_eq_true_iff.mp hdest).1
  have hemptyCell : defs.cellIsGranular emptyCell = false := by
    cases hgrain : defs.cellIsGranular emptyCell with
    | false => rfl
    | true => exact absurd (h.grain _ hgrain) (by simp [h.empty])
  rw [energy, energy, coords_moveGrain]
  refine sum_lt_of_pair (mem_coords.mpr hvalid) (mem_coords.mpr hdestValid) hne ?_ ?_
  · have hafter : (moveGrain defs g i true destOk).heightOf defs i.dest ≤ (g.height - i.dest.2).toNat := by
      rw [heightOf, height_moveGrain]
      split <;> omega
    have hsrcAfter : (moveGrain defs g i true destOk).heightOf defs i.src = 0 := by
      rw [heightOf, moveGrain_src hvalid hne, hemptyCell]
      rfl
    have hsrc : g.heightOf defs i.src = (g.height - i.src.2).toNat := by
      rw [heightOf, hcell, if_pos hgrain]
    have hbound : i.src.2 < g.height := by
      rw [validCoord, decide_eq_true_eq] at hvalid
      exact hvalid.2.2.2
    omega
  · intro x _ hsrc hdest
    rw [heightOf, heightOf, height_moveGrain, (moveGrain_of_ne hsrc hdest).1]

/-- The moves of a step lower the energy, when the first one is made and all clear their sources. -/
theorem energy_apply (h : defs.Sound) (hready : ∀ j ∈ is, j.Ready defs g) (hrows : ∀ j ∈ is, j.dest.2 = j.src.2 + 1)
    (hsrcs : is.Pairwise (fun a b => a.src ≠ b.src)) (hio : ∀ ok ∈ io, ok.1 = true) :
    (applyGranularIntents defs g io is).grid.energy defs ≤ g.energy defs ∧
      ∀ j, is.head? = some j → isPassable defs g j.dest = true →
        (applyGranularIntents defs g io is).grid.energy defs < g.energy defs := by
  induction is generalizing g io with
  | nil => exact ⟨le_refl _, fun j hj => by cases hj⟩
  | cons i is ih =>
      have hrest : ∀ j ∈ is, j.dest.2 = j.src.2 + 1 := fun j hj => hrows j (List.mem_cons_of_mem _ hj)
      have hpairs := (List.pairwise_cons.mp hsrcs).2
      rw [applyGranularIntents]
      split
      · rename_i hdest
        have hok : (io.headD (true, true)).1 = true := by
          cases io with
          | nil => rfl
          | cons ok io => exact hio ok List.mem_cons_self
        have hmove := energy_moveGrain h (hready i List.mem_cons_self) (hrows i List.mem_cons_self) hdest
          (io.headD (true, true)).2
        have hnext : ∀ j ∈ is, j.Ready defs (moveGrain defs g i true (io.headD (true, true)).2) :=
          ready_moveGrain h hready hsrcs hdest
        have hmoves := (ih hnext hrest hpairs fun ok hmem => hio ok (List.mem_of_mem_tail hmem)).1
        dsimp only
        rw [hok]
        exact ⟨(hmoves.trans_lt hmove).le, fun _ _ _ => hmoves.trans_lt hmove⟩
      · rename_i hdest
        refine ⟨(ih (fun j hj => hready j (List.mem_cons_of_mem _ hj)) hrest hpairs hio).1, fun j hj hpass => ?_⟩
        obtain rfl := Option.some_inj.mp hj
        exact absurd hpass hdest

end Energy

namespace GranularPhysicsState

variable {state : GranularPhysicsState}

/-- A step with a budget takes candidates, unless there are none. -/
theorem length_takeCandidates {limit : Nat} (hlimit : 0 < limit) (hactive : state.activeCells ≠ []) :
    (state.takeCandidates limit).1.activeCells.length < state.activeCells.length := by
  unfold takeCandidates
  dsimp only
  split
  · exact List.length_pos_iff.mpr hactive
  · rw [List.length_filter_lt_length_iff_exists]
    cases hsorted : state.activeCells.mergeSort (fun a b => decide (b.2 < a.2 ∨ a.2 = b.2 ∧ a.1 ≤ b.1)) with
    | nil =>
        have hlength := congrArg List.length hsorted
        rw [List.length_mergeSort] at hlength
        exact absurd (List.length_eq_zero_iff.mp hlength) hactive
    | cons p ps =>
        refine ⟨p, ?_, ?_⟩
        · have hmem : p ∈ p :: ps := List.mem_cons_self
          rw [← hsorted] at hmem
          exact List.mem_mergeSort.mp hmem
        · cases limit with
          | zero => cases hlimit
          | succ limit => simp

end GranularPhysicsState

/-- When a tick of the physics system runs, its budget, and which writes of its moves are journaled. -/
structure GranularTick where
  now : Nat
  budget : Nat
  io : List (Bool × Bool)

namespace GranularSystem

variable {defs : CellDefs} {s : GranularSystem} {tick : GranularTick}

def ticked (defs : CellDefs) (s : GranularSystem) (ticks : Nat → GranularTick) : Nat → GranularSystem
  | 0 => s
  | n + 1 => (s.ticked defs ticks n).granularPhysicsSystem defs (ticks n).now (ticks n).budget (ticks n).io

theorem activateWoken_of_asleep (h : s.wake = ⟨[], []⟩) (now : Nat) : s.activateWokenGranularCells defs now = s := by
  obtain ⟨grid, wake, state⟩ := s
  obtain rfl := h
  simp [activateWokenGranularCells, activateWindows, buildGranularCandidateBatches]

theorem asleep_ticked (ticks : Nat → GranularTick) (n : Nat) : (s.ticked defs ticks (n + 1)).wake = ⟨[], []⟩ := rfl

/-- A step lowers the energy, or else moves nothing and shortens the frontier. -/
theorem lessens_granularStep (h : defs.Sound) {budget : Nat} (hbudget : 0 < budget) {io : List (Bool × Bool)}
    (hio : ∀ ok ∈ io, ok.1 = true) (hactive : s.state.activeCells ≠ []) :
    (s.granularStep defs budget io).1.grid.energy defs < s.grid.energy defs ∨
      (s.granularStep defs budget io).1.grid.energy defs = s.grid.energy defs ∧
        (s.granularStep defs budget io).1.state.activeCells.length < s.state.activeCells.length := by
  cases hintents : s.intents defs budget with
  | nil =>
      right
      have hstep : (s.granularStep defs budget io).1 = { s with state := (s.state.takeCandidates budget).1 } := by
        change canonicalizeGranularIntents
          (analyzeGranularCandidates defs s.grid (s.state.takeCandidates budget).2.1) = [] at hintents
        simp only [granularStep, hintents, applyGranularIntents, List.foldl_nil]
      rw [hstep]
      exact ⟨rfl, GranularPhysicsState.length_takeCandidates hbudget hactive⟩
  | cons i is =>
      left
      have hi : i ∈ s.intents defs budget := by
        rw [hintents]
        exact List.mem_cons_self
      obtain ⟨c, _, hc⟩ := mem_analyzeGranularCandidates.mp (mem_canonicalize hi)
      rw [granularStep_grid]
      refine (energy_apply h ready_intents (fun j hj => (of_mem_intents hj).row) (pairwise_canonicalize _) hio).2 i ?_
        (isPassable_dest_of_analyzeAt hc)
      rw [hintents]
      rfl

theorem rest_granularStep (defs : CellDefs) (hactive : s.state.activeCells = []) (budget : Nat) (io : List (Bool × Bool)) :
    (s.granularStep defs budget io).1.state.activeCells = [] := by
  have hintents : s.intents defs budget = [] := by
    cases hintents : s.intents defs budget with
    | nil => rfl
    | cons i is =>
        have hi : i ∈ s.intents defs budget := by
          rw [hintents]
          exact List.mem_cons_self
        obtain ⟨c, hc, _⟩ := mem_analyzeGranularCandidates.mp (mem_canonicalize hi)
        simp [GranularPhysicsState.takeCandidates, hactive] at hc
  change canonicalizeGranularIntents
    (analyzeGranularCandidates defs s.grid (s.state.takeCandidates budget).2.1) = [] at hintents
  simp only [granularStep, hintents, applyGranularIntents, List.foldl_nil]
  simp [GranularPhysicsState.takeCandidates, hactive]

/-- Nothing else writes the world or wakes anything: the ticks empty the frontier, and it stays
empty, where in the end every write that clears the source of a move is journaled. -/
theorem ticks_settle (h : defs.Sound) (s : GranularSystem) (ticks : Nat → GranularTick)
    (hbudget : ∀ n, 0 < (ticks n).budget) (hjournal : ∃ m, ∀ n, m ≤ n → ∀ ok ∈ (ticks n).io, ok.1 = true) :
    ∃ n, ∀ k, n ≤ k → (s.ticked defs ticks k).state.activeCells = [] := by
  obtain ⟨m, hm⟩ := hjournal
  have hstep (n : Nat) : s.ticked defs ticks (m + n + 1 + 1) =
      ((s.ticked defs ticks (m + n + 1)).granularStep defs (ticks (m + n + 1)).budget (ticks (m + n + 1)).io).1 := by
    rw [ticked, granularPhysicsSystem, activateWoken_of_asleep (asleep_ticked ticks (m + n))]
  obtain ⟨n, hn⟩ := exists_of_lessens (P := fun t : GranularSystem => t.state.activeCells = [])
    (fun n => s.ticked defs ticks (m + n + 1)) (fun t => t.grid.energy defs) (fun t => t.state.activeCells.length)
    fun n hactive => by
      rw [← Nat.add_assoc, hstep]
      exact lessens_granularStep h (hbudget _) (hm _ (by omega)) hactive
  refine ⟨m + n + 1, fun k hk => ?_⟩
  obtain ⟨d, rfl⟩ := Nat.exists_eq_add_of_le hk
  induction d with
  | zero => exact hn
  | succ d ih =>
      have hrest := rest_granularStep defs (ih (by omega)) (ticks (m + (n + d) + 1)).budget
        (ticks (m + (n + d) + 1)).io
      have hindex : m + n + 1 + (d + 1) = m + (n + d) + 1 + 1 := by omega
      have hindex' : m + n + 1 + d = m + (n + d) + 1 := by omega
      rw [hindex, hstep]
      rw [hindex'] at hrest
      exact hrest

theorem ticks_settle_sand : ∃ n, ∀ k, n ≤ k →
    (sandSystem.ticked .cellsJson (fun _ => ⟨0, 1, [(true, true)]⟩) k).state.activeCells = [] :=
  ticks_settle CellDefs.cellsJson_sound sandSystem _ (fun _ => Nat.one_pos) ⟨0, fun _ _ => by decide⟩

theorem sandSystem_unjournaled :
    sandSystem.granularPhysicsSystem .cellsJson 0 1 [(false, false)] = sandSystem := by
  have hintents : sandSystem.intents .cellsJson 1 = [⟨(0, 0), (0, 1), 100⟩] := by decide +kernel
  have hgrid : (sandSystem.granularStep .cellsJson 1 [(false, false)]).1.grid = sandSystem.grid := by
    have hdest : isPassable .cellsJson sandSystem.grid (0, 1) = true := by decide
    rw [granularStep_grid, hintents, applyGranularIntents, if_pos hdest]
    change moveGrain .cellsJson sandSystem.grid ⟨(0, 0), (0, 1), 100⟩ false false = sandSystem.grid
    exact moveGrain_failed
  have hactive : (sandSystem.granularStep .cellsJson 1 [(false, false)]).1.state.activeCells = [(0, 0)] := by
    decide +kernel
  have hseeded : (sandSystem.granularStep .cellsJson 1 [(false, false)]).1.state.regionSeededAt = [] := by
    decide +kernel
  rw [granularPhysicsSystem, activateWoken_of_asleep rfl]
  generalize hstep : (sandSystem.granularStep .cellsJson 1 [(false, false)]).1 = t at hgrid hactive hseeded
  have hwake : t.wake = ⟨[], []⟩ := by
    rw [← hstep]
    rfl
  obtain ⟨grid, wake, ⟨active, seeded⟩⟩ := t
  obtain rfl := hgrid
  obtain rfl := hactive
  obtain rfl := hseeded
  obtain rfl := hwake
  rfl

/-- A journal that takes no record keeps the grain where it is, and the frontier awake. -/
theorem sand_retries : ¬ ∃ n,
    (sandSystem.ticked .cellsJson (fun _ => ⟨0, 1, [(false, false)]⟩) n).state.activeCells = [] := by
  rintro ⟨n, hn⟩
  have hsame : sandSystem.ticked .cellsJson (fun _ => ⟨0, 1, [(false, false)]⟩) n = sandSystem := by
    clear hn
    induction n with
    | zero => rfl
    | succ n ih => rw [ticked, ih, sandSystem_unjournaled]
  rw [hsame] at hn
  cases hn

end GranularSystem

end OpenMines
