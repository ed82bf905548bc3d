import OpenMines.GranularStep

namespace OpenMines

open Lib.Run CellGrid

variable {defs : CellDefs}

namespace GranularPhysicsState

variable {state : GranularPhysicsState} {p : Pos}

theorem mem_foldl_activate {granular : Pos → Bool} {ps cells : List Pos} :
    p ∈ ps.foldl (fun cells p => if granular p then cells.insert p else cells) cells ↔
      p ∈ cells ∨ p ∈ ps ∧ granular p = true := by
  induction ps generalizing cells with
  | nil => simp
  | cons q ps ih =>
      rw [List.foldl_cons, ih, List.mem_cons]
      by_cases hq : granular q = true
      · rw [if_pos hq, List.mem_insert_iff]
        constructor
        · rintro ((rfl | h) | h)
          · exact .inr ⟨.inl rfl, hq⟩
          · exact .inl h
          · exact .inr ⟨.inr h.1, h.2⟩
        · rintro (h | ⟨rfl | h, hp⟩)
          · exact .inl (.inr h)
          · exact .inl (.inl rfl)
          · exact .inr ⟨h, hp⟩
      · rw [if_neg hq]
        constructor
        · rintro (h | h)
          · exact .inl h
          · exact .inr ⟨.inr h.1, h.2⟩
        · rintro (h | ⟨rfl | h, hp⟩)
          · exact .inl h
          · exact absurd hp hq
          · exact .inr ⟨h, hp⟩

theorem mem_activate {granular : Pos → Bool} {ps : List Pos} :
    p ∈ (state.activate granular ps).activeCells ↔ p ∈ state.activeCells ∨ p ∈ ps ∧ granular p = true :=
  mem_foldl_activate

/-- All grains around the anchors become active, and none is forgotten. -/
theorem mem_activateAnchors {g : CellGrid} {anchors : List Pos} :
    p ∈ (anchors.foldl (fun state a => state.activateGranularNeighborhood defs g a) state).activeCells ↔
      p ∈ state.activeCells ∨ (∃ a ∈ anchors, p ∈ window (-1) 1 (-2) 1 a) ∧
        g.validCoord p = true ∧ defs.cellIsGranular (g.getCell p) = true := by
  induction anchors generalizing state with
  | nil => simp
  | cons a anchors ih =>
      rw [List.foldl_cons, ih, activateGranularNeighborhood, mem_activate]
      simp only [Bool.and_eq_true, List.mem_cons, exists_eq_or_imp]
      tauto

/-- A candidate that is not taken stays active. -/
theorem mem_takeCandidates (limit : Nat) (hp : p ∈ state.activeCells) :
    p ∈ (state.takeCandidates limit).2.1 ∨ p ∈ (state.takeCandidates limit).1.activeCells := by
  unfold takeCandidates
  simp only
  split
  · exact .inl (List.mem_mergeSort.mpr hp)
  · by_cases htaken : p ∈ (state.activeCells.mergeSort
        (fun a b => decide (b.2 < a.2 ∨ a.2 = b.2 ∧ a.1 ≤ b.1))).take limit
    · exact .inl htaken
    · exact .inr (List.mem_filter.mpr ⟨hp, by simpa using htaken⟩)

theorem mem_seedActiveRegion {g : CellGrid} {player : Pos} {now : Nat} (hp : p ∈ state.activeCells) :
    p ∈ (state.seedActiveRegion defs g player now).activeCells := by
  unfold seedActiveRegion
  simp only
  split
  · exact hp
  · exact mem_activate.mpr (.inl hp)

theorem mem_foldl_seedActiveRegion {g : CellGrid} {seeds : List Pos} {now : Nat}
    (hp : p ∈ state.activeCells) :
    p ∈ (seeds.foldl (fun state s => state.seedActiveRegion defs g s now) state).activeCells := by
  induction seeds generalizing state with
  | nil => exact hp
  | cons s seeds ih => exact ih (mem_seedActiveRegion hp)

end GranularPhysicsState

open GranularPhysicsState

/-- The analysis of the cell yields an intent. -/
def Mobile (defs : CellDefs) (g : CellGrid) (p : Pos) : Prop := (analyzeAt defs g p).isSome = true

instance (defs : CellDefs) (g : CellGrid) (p : Pos) : Decidable (Mobile defs g p) :=
  inferInstanceAs (Decidable (_ = true))

/-- Every grain that can move is active. -/
def CoversMobile (defs : CellDefs) (g : CellGrid) (active : List Pos) : Prop := ∀ p, Mobile defs g p → p ∈ active

theorem Mobile.grain {g : CellGrid} {p : Pos} (h : Mobile defs g p) :
    g.validCoord p = true ∧ defs.cellIsGranular (g.getCell p) = true := by
  obtain ⟨i, hi⟩ := Option.isSome_iff_exists.mp h
  have hof := of_analyzeAt hi
  exact ⟨hof.valid, hof.cell ▸ hof.granular⟩

theorem reads_mem_window {p q : Pos} (hq : q ∈ reads p) (hne : q ≠ (p.1, p.2 + 3)) :
    p ∈ window (-1) 1 (-2) 1 q := by
  simp only [reads, List.mem_cons, List.not_mem_nil, or_false] at hq
  rw [mem_window]
  rcases hq with rfl | rfl | rfl | rfl | rfl | rfl | rfl | rfl
  case inr.inr.inr.inl => exact absurd rfl hne
  all_goals simp

namespace GranularSystem

variable {s : GranularSystem} {budget now : Nat} {io : List (Bool × Bool)}

/-- The intents of a step of the system, in the order they are applied. -/
def intents (defs : CellDefs) (s : GranularSystem) (budget : Nat) : List GranularIntent :=
  canonicalizeGranularIntents (analyzeGranularCandidates defs s.grid (s.state.takeCandidates budget).2.1)

theorem granularStep_grid : (s.granularStep defs budget io).1.grid =
    (applyGranularIntents defs s.grid io (s.intents defs budget)).grid := rfl

theorem of_mem_intents {i : GranularIntent} (hi : i ∈ s.intents defs budget) : i.Of defs s.grid i.src := by
  obtain ⟨c, -, hc⟩ := mem_analyzeGranularCandidates.mp (mem_canonicalize hi)
  have hof := of_analyzeAt hc
  rw [hof.src]
  exact hof

/-- A step leaves no grain behind that can move. -/
theorem covered_granularStep (hempty : defs.isEmpty emptyCell = true)
    (h : CoversMobile defs s.grid s.state.activeCells) :
    CoversMobile defs (s.granularStep defs budget io).1.grid (s.granularStep defs budget io).1.state.activeCells := by
  intro p hmobile
  obtain ⟨hvalid, hgrain⟩ := hmobile.grain
  rw [granularStep_grid] at hmobile hvalid hgrain
  refine mem_activateAnchors.mpr ?_
  by_cases hanchor : ∃ a ∈ (applyGranularIntents defs s.grid io (s.intents defs budget)).anchors,
      p ∈ window (-1) 1 (-2) 1 a
  · exact .inr ⟨hanchor, hvalid, hgrain⟩
  · left
    have hlook (q : Pos) (hq : q ∈ reads p) (hne : q ≠ (p.1, p.2 + 3)) :
        s.grid.look q = (applyGranularIntents defs s.grid io (s.intents defs budget)).grid.look q := by
      have hnot : q ∉ (applyGranularIntents defs s.grid io (s.intents defs budget)).anchors :=
        fun hmem => hanchor ⟨q, hmem, reads_mem_window hq hne⟩
      exact (look_congr validCoord_apply (apply_of_notMem hnot).1).symm
    rcases analyzeAt_or_blocked hlook validCoord_apply.symm hmobile with hsame | ⟨hbefore, hafter⟩
    · -- nothing near the grain has changed, so it was active
      have hbefore : Mobile defs s.grid p := by rw [Mobile, hsame]; exact hmobile
      rcases mem_takeCandidates budget (h p hbefore) with htaken | hkept
      · obtain ⟨i, hi⟩ := Option.isSome_iff_exists.mp hbefore
        obtain ⟨j, hj, hsrc⟩ :=
          exists_mem_canonicalize (mem_analyzeGranularCandidates.mpr ⟨p, htaken, hi⟩)
        rw [(of_analyzeAt hi).src] at hsrc
        exact absurd ⟨p, hsrc ▸ src_mem_anchors hj, by simp [mem_window]⟩ hanchor
      · exact hkept
    · -- the grain that came to rest three rows down started beside the cell two rows down
      obtain ⟨i, hi, hdest⟩ := exists_dest_of_blocked hempty hbefore hafter
      have hof := of_mem_intents hi
      have hcolumn := hof.column
      have hrow := hof.row
      rw [hdest] at hcolumn hrow
      refine absurd ⟨i.src, src_mem_anchors hi, ?_⟩ hanchor
      rw [mem_window]
      simp only at hrow hcolumn
      omega

theorem mem_foldl_batches {batches : List GranularCandidateBatch} {state : GranularPhysicsState}
    {p : Pos} : p ∈ (batches.foldl (fun state batch =>
        state.activate (fun p => (batch.snapshot.get p).any defs.cellIsGranular) batch.candidates)
      state).activeCells ↔ p ∈ state.activeCells ∨ ∃ batch ∈ batches, p ∈ batch.candidates ∧
        (batch.snapshot.get p).any defs.cellIsGranular = true := by
  induction batches generalizing state with
  | nil => simp
  | cons batch batches ih =>
      rw [List.foldl_cons, ih, mem_activate]
      simp only [List.mem_cons, exists_eq_or_imp]
      tauto

/-- The grains in the windows of the wake points become active, and none is forgotten. -/
theorem mem_activateWindows {g : CellGrid} {points : List Pos} {state : GranularPhysicsState} {p : Pos} :
    p ∈ (activateWindows defs g points state).activeCells ↔ p ∈ state.activeCells ∨
      (∃ q ∈ points, p ∈ wakeWindow q) ∧ g.validCoord p = true ∧
        defs.cellIsGranular (g.getCell p) = true := by
  rw [activateWindows, mem_foldl_batches]
  have hlook {batch : GranularCandidateBatch} (hp : p ∈ batch.candidates)
      (hbatch : batch ∈ buildGranularCandidateBatches g (points.flatMap wakeWindow).dedup) :
      batch.snapshot.get p = g.look p := by
    obtain ⟨first, rest, hcands, hsnap, -⟩ := mem_batch hbatch
    rw [hsnap]
    exact GranularScanCache.get_reads (hcands ▸ hp) (by simp [reads])
  have hgrain : (g.look p).any defs.cellIsGranular = true ↔
      g.validCoord p = true ∧ defs.cellIsGranular (g.getCell p) = true := by
    rw [look]
    cases g.validCoord p <;> simp
  apply or_congr Iff.rfl
  constructor
  · rintro ⟨batch, hbatch, hp, hany⟩
    obtain ⟨first, rest, -, -, hsub⟩ := mem_batch hbatch
    rw [hlook hp hbatch, hgrain] at hany
    exact ⟨by simpa using hsub p hp, hany⟩
  · rintro ⟨hwindow, hany⟩
    have hmem : p ∈ (points.flatMap wakeWindow).dedup := by simpa using hwindow
    obtain ⟨batch, hbatch, hp⟩ := exists_batch (g := g) hmem
    refine ⟨batch, hbatch, hp, ?_⟩
    rw [hlook hp hbatch, hgrain]
    exact hany

/-- A write outside of what a grain reads does not move it. -/
theorem mobile_put {g : CellGrid} {p q : Pos} {foreground road : UInt8} {durability : UInt32}
    (h : Mobile defs (g.put q foreground road durability) p) : Mobile defs g p ∨ p ∈ wakeWindow q := by
  by_cases hq : q ∈ reads p
  · right
    simp only [reads, List.mem_cons, List.not_mem_nil, or_false] at hq
    rw [wakeWindow, mem_window]
    rcases hq with rfl | rfl | rfl | rfl | rfl | rfl | rfl | rfl <;>
      simp [granularWakeXMin, granularWakeXMax, granularWakeYMin, granularWakeYMax]
  · left
    have hlook (r : Pos) (hr : r ∈ reads p) : g.look r = (g.put q foreground road durability).look r := by
      have hne : r ≠ q := fun he => hq (he ▸ hr)
      exact (look_congr (validCoord_put _ _ _) (put_of_ne _ _ _ hne).1).symm
    rw [Mobile, analyzeAt_congr hlook (validCoord_put _ _ _).symm]
    exact h

theorem covered_activateWindows {g : CellGrid} {state : GranularPhysicsState} {q : Pos}
    {foreground road : UInt8} {durability : UInt32} (h : CoversMobile defs g state.activeCells) :
    CoversMobile defs (g.put q foreground road durability)
      (activateWindows defs (g.put q foreground road durability) [q] state).activeCells := by
  intro p hmobile
  refine mem_activateWindows.mpr ((mobile_put hmobile).imp (h p) fun hp => ⟨?_, hmobile.grain⟩)
  exact ⟨q, List.mem_singleton.mpr rfl, hp⟩

end GranularSystem

/-- What happens to the grains of a server. -/
inductive GranularEvent
  /-- any write to the three layers of a coordinate, which is then woken -/
  | write (p : Pos) (foreground road : UInt8) (durability : UInt32)
  | seed (p : Pos)
  | tick (now budget : Nat) (io : List (Bool × Bool))

namespace GranularSystem

variable {s : GranularSystem}

def step (defs : CellDefs) (s : GranularSystem) : GranularEvent → GranularSystem
  | .write p foreground road durability =>
    { s with grid := s.grid.put p foreground road durability, wake := wakeNeighborhood s.wake p }
  | .seed p => { s with wake := seedRegion s.wake p }
  | .tick now budget io => s.granularPhysicsSystem defs now budget io

/-- Every grain that can move is active or about to be woken. -/
def Awake (defs : CellDefs) (s : GranularSystem) : Prop :=
  ∀ p, Mobile defs s.grid p → p ∈ s.state.activeCells ∨ ∃ q ∈ s.wake.points, p ∈ wakeWindow q

theorem covered_activateWoken (h : s.Awake defs) (now : Nat) :
    CoversMobile defs (s.activateWokenGranularCells defs now).grid
      (s.activateWokenGranularCells defs now).state.activeCells := by
  intro p hmobile
  refine mem_foldl_seedActiveRegion (mem_activateWindows.mpr ?_)
  exact (h p hmobile).imp id fun hq => ⟨hq, Mobile.grain hmobile⟩

theorem awake_step (hempty : defs.isEmpty emptyCell = true) (h : s.Awake defs) (e : GranularEvent) :
    (s.step defs e).Awake defs := by
  cases e with
  | write p foreground road durability =>
      intro q hmobile
      rcases mobile_put hmobile with hbefore | hwindow
      · refine (h q hbefore).imp id ?_
        rintro ⟨r, hr, hq⟩
        exact ⟨r, List.mem_insert_of_mem hr, hq⟩
      · exact .inr ⟨p, List.mem_insert_self, hwindow⟩
  | seed p => exact h
  | tick now budget io =>
      intro p hmobile
      exact .inl (covered_granularStep hempty (covered_activateWoken h now) p hmobile)

theorem awake_run (hempty : defs.isEmpty emptyCell = true) (h : s.Awake defs) (es : List GranularEvent) :
    (es.foldl (step defs) s).Awake defs := by
  induction es generalizing s with
  | nil => exact h
  | cons e es ih => exact ih (awake_step hempty h e)

/-- No grain is lost: neither by a step, whatever its budget, nor by a write that is woken,
nor by any run of these, so that an empty frontier means that no grain can move. -/
theorem covered_step_write_run (hempty : defs.isEmpty emptyCell = true) :
    (∀ s : GranularSystem, ∀ budget io, CoversMobile defs s.grid s.state.activeCells →
      CoversMobile defs (s.granularStep defs budget io).1.grid
        (s.granularStep defs budget io).1.state.activeCells) ∧
    (∀ g state q foreground road durability, CoversMobile defs g state.activeCells →
      CoversMobile defs (g.put q foreground road durability)
        (activateWindows defs (g.put q foreground road durability) [q] state).activeCells) ∧
    ∀ (s : GranularSystem) (es : List GranularEvent), s.Awake defs →
      (es.foldl (step defs) s).Awake defs ∧
      ((es.foldl (step defs) s).state.activeCells = [] → (es.foldl (step defs) s).wake.points = [] →
        ∀ p, ¬ Mobile defs (es.foldl (step defs) s).grid p) := by
  refine ⟨fun s budget io h => covered_granularStep hempty h,
    fun g state q foreground road durability h => covered_activateWindows h, fun s es h => ?_⟩
  have hawake := awake_run hempty h es
  refine ⟨hawake, fun hactive hpoints p hmobile => ?_⟩
  rcases hawake p hmobile with hp | ⟨q, hq, -⟩
  · rw [hactive] at hp
    cases hp
  · rw [hpoints] at hq
    cases hq

/-- A world that is empty as yet. -/
def emptySystem : GranularSystem :=
  { grid := { width := 3, height := 4, foreground := fun _ => 0, road := fun _ => 0, durability := fun _ => 0 }
    wake := ⟨[], []⟩
    state := ⟨[], []⟩ }

theorem awake_emptySystem : emptySystem.Awake .cellsJson := by
  intro p hmobile
  obtain ⟨hvalid, hgrain⟩ := hmobile.grain
  have hcell : emptySystem.grid.getCell p = emptyCell := if_pos hvalid
  rw [hcell] at hgrain
  exact absurd hgrain (by decide)

theorem awake_emptySystem_run : Mobile .cellsJson (emptySystem.grid.put (1, 0) 100 32 0) (1, 0) ∧
    ([.write (1, 0) 100 32 0, .tick 0 1 [(true, true)]].foldl (step .cellsJson) emptySystem).Awake .cellsJson := by
  have hempty : CellDefs.cellsJson.isEmpty emptyCell = true := by decide
  exact ⟨by decide, ((covered_step_write_run hempty).2.2 emptySystem _ awake_emptySystem).1⟩

end GranularSystem

end OpenMines
