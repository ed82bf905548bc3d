import OpenMines.GranularFrontier
import OpenMines.Lib.Conservation

namespace OpenMines

open CellGrid Lib.Conservation

/-- What the steps need of the definitions of the cells. -/
structure CellDefs.Sound (defs : CellDefs) : Prop where
  empty : defs.isEmpty emptyCell = true
  grain : ∀ c, defs.cellIsGranular c = true → defs.isEmpty c = false
  protect : ∀ c, isProtected c = true → defs.cellIsGranular c = false

theorem CellDefs.cellsJson_sound : CellDefs.cellsJson.Sound where
  empty := by decide
  grain c := by
    have h : ∀ n < 256, CellDefs.cellsJson.cellIsGranular (.ofNat n) = true →
      CellDefs.cellsJson.isEmpty (.ofNat n) = false := by
      set_option maxRecDepth 1000 in
      decide
    simpa using h c.toNat c.toNat_lt
  protect c := by
    have h : ∀ n < 256, isProtected (.ofNat n) = true →
      CellDefs.cellsJson.cellIsGranular (.ofNat n) = false := by
      set_option maxRecDepth 1000 in
      decide
    simpa using h c.toNat c.toNat_lt

namespace GranularEvent

def isWrite : GranularEvent → Bool
  | .write .. => true
  | .seed _ => false
  | .tick .. => false

/-- Of every move, either both writes or none reaches the journal. -/
def Paired : GranularEvent → Prop
  | .write .. => True
  | .seed _ => True
  | .tick _ _ io => ∀ ok ∈ io, ok.1 = ok.2

end GranularEvent

section Canonical

def GranularIntent.srcLt (a b : GranularIntent) : Prop :=
  a.src.1 < b.src.1 ∨ a.src.1 = b.src.1 ∧ a.src.2 < b.src.2

theorem GranularIntent.srcLt_trans {a b c : GranularIntent} (h : a.srcLt b) (h' : b.srcLt c) : a.srcLt c := by
  unfold srcLt at *
  omega

theorem GranularIntent.srcLt_of_stableLe {a b : GranularIntent} (h : a.stableLe b = true) (hne : a.src ≠ b.src) :
    a.srcLt b := by
  simp only [stableLe, decide_eq_true_eq] at h
  have hx : ¬ b.src.1 < a.src.1 := fun hlt => not_lt.mpr h (List.Lex.rel hlt)
  have hy : a.src.1 = b.src.1 → ¬ b.src.2 < a.src.2 := by
    intro he hlt
    refine not_lt.mpr h ?_
    rw [he]
    exact List.Lex.cons (List.Lex.rel hlt)
  rcases lt_or_eq_of_le (not_lt.mp hx) with hlt | he
  · exact .inl hlt
  · rcases lt_or_eq_of_le (not_lt.mp (hy he)) with hlt | hy
    · exact .inr ⟨he, hlt⟩
    · exact absurd (Prod.ext he hy) hne

theorem sorted_mergeSort (is : List GranularIntent) :
    (is.mergeSort GranularIntent.stableLe).Pairwise (fun a b => a.stableLe b = true) := by
  refine List.pairwise_mergeSort ?_ ?_ is
  · intro a b c hab hbc
    simp only [GranularIntent.stableLe, decide_eq_true_eq] at *
    exact le_trans hab hbc
  · intro a b
    simp only [GranularIntent.stableLe, Bool.or_eq_true, decide_eq_true_eq]
    exact le_total _ _

theorem pairwise_srcLt {is : List GranularIntent} (hsorted : is.Pairwise (fun a b => a.stableLe b = true))
    (hchain : is.IsChain (fun a b => a.src ≠ b.src)) : is.Pairwise GranularIntent.srcLt := by
  induction is with
  | nil => exact .nil
  | cons a is ih =>
      have hrest := ih (List.pairwise_cons.mp hsorted).2 hchain.tail
      refine List.pairwise_cons.mpr ⟨?_, hrest⟩
      cases is with
      | nil => simp
      | cons b is =>
          have hab := GranularIntent.srcLt_of_stableLe ((List.pairwise_cons.mp hsorted).1 b List.mem_cons_self)
            (List.isChain_cons_cons.mp hchain).1
          intro c hc
          rcases List.mem_cons.mp hc with rfl | hc
          · exact hab
          · exact GranularIntent.srcLt_trans hab ((List.pairwise_cons.mp hrest).1 c hc)

/-- Of the intents of one source, one is left. -/
theorem pairwise_canonicalize (is : List GranularIntent) :
    (canonicalizeGranularIntents is).Pairwise (fun a b => a.src ≠ b.src) := by
  refine (pairwise_srcLt ((sorted_mergeSort is).sublist (List.destutter_sublist _ _))
    (List.isChain_destutter _ _)).imp fun h he => ?_
  rw [GranularIntent.srcLt, he] at h
  omega

end Canonical

section Move

variable {defs : CellDefs} {g : CellGrid} {p : Pos} {i : GranularIntent} {is : List GranularIntent}
  {srcOk destOk : Bool} {io : List (Bool × Bool)}

def CellGrid.content (g : CellGrid) (p : Pos) : UInt8 × UInt32 := (g.getCell p, g.getDurability p)

/-- The grains of a world, with the damage of each. -/
def CellGrid.grains (defs : CellDefs) (g : CellGrid) : Multiset (UInt8 × UInt32) :=
  contents (fun c => defs.cellIsGranular c.1 = true) g.coords g.content

/-- A cell that no step may touch. -/
def CellGrid.Fixed (defs : CellDefs) (g : CellGrid) (p : Pos) : Prop :=
  defs.cellIsGranular (g.getCell p) = false ∧ isPassable defs g p = false

/-- The intent moves the grain that lies at its source. -/
def GranularIntent.Ready (defs : CellDefs) (g : CellGrid) (i : GranularIntent) : Prop :=
  g.validCoord i.src = true ∧ g.getCell i.src = i.cell ∧ defs.cellIsGranular i.cell = true

theorem not_granular_of_passable (h : defs.Sound) (hp : isPassable defs g p = true) :
    defs.cellIsGranular (g.getCell p) = false := by
  simp only [isPassable, CellDefs.passable, Bool.and_eq_true] at hp
  cases hgrain : defs.cellIsGranular (g.getCell p) with
  | false => rfl
  | true =>
      have hempty := h.grain _ hgrain
      rw [hp.2.1] at hempty
      cases hempty

theorem GranularIntent.Ready.ne_of_passable (h : defs.Sound) (hi : i.Ready defs g)
    (hp : isPassable defs g p = true) : i.src ≠ p := by
  rintro rfl
  have hgrain := not_granular_of_passable h hp
  rw [hi.2.1, hi.2.2] at hgrain
  cases hgrain

theorem content_moveGrain_of_ne (hsrc : p ≠ i.src) (hdest : p ≠ i.dest) :
    (moveGrain defs g i srcOk destOk).content p = g.content p := by
  exact Prod.ext (moveGrain_of_ne hsrc hdest).1 (moveGrain_of_ne hsrc hdest).2

/-- The moves still to come find their grains where they were. -/
theorem GranularIntent.Ready.moveGrain {j : GranularIntent} (h : defs.Sound) (hj : j.Ready defs g)
    (hdest : isPassable defs g i.dest = true) (hne : i.src ≠ j.src) :
    j.Ready defs (moveGrain defs g i srcOk destOk) := by
  obtain ⟨hvalid, hcell, hgrain⟩ := hj
  refine ⟨validCoord_moveGrain.trans hvalid, ?_, hgrain⟩
  rw [(moveGrain_of_ne hne.symm (Ready.ne_of_passable h ⟨hvalid, hcell, hgrain⟩ hdest)).1, hcell]

theorem moveGrain_failed : moveGrain defs g i false false = g := by
  rw [OpenMines.moveGrain, setCellTyped, writeWorldCell_failed, writeWorldCell_failed]

theorem moveGrain_src (hvalid : g.validCoord i.src = true) (hne : i.src ≠ i.dest) :
    (OpenMines.moveGrain defs g i true destOk).getCell i.src = emptyCell := by
  rw [OpenMines.moveGrain, (writeWorldCell_of_ne _ _ _ _ hne).1, setCellTyped_empty hvalid]

theorem moveGrain_dest (hvalid : g.validCoord i.dest = true) (hcell : i.cell ≠ 0) :
    (OpenMines.moveGrain defs g i srcOk true).content i.dest = (i.cell, g.getDurability i.src) := by
  have hself : (OpenMines.moveGrain defs g i srcOk true).getCell i.dest = i.cell ∧
      (OpenMines.moveGrain defs g i srcOk true).getDurability i.dest = g.getDurability i.src :=
    writeWorldCell_self ((validCoord_setCellTyped _).trans hvalid) hcell
  exact Prod.ext hself.1 hself.2

/-- A move whose two writes are both journaled, or neither, keeps every grain and its damage. -/
theorem grains_moveGrain (h : defs.Sound) (hi : i.Ready defs g) (hdest : isPassable defs g i.dest = true)
    (hok : srcOk = destOk) : (moveGrain defs g i srcOk destOk).grains defs = g.grains defs := by
  subst hok
  cases srcOk with
  | false => rw [moveGrain_failed]
  | true =>
      have hne := hi.ne_of_passable h hdest
      obtain ⟨hvalid, hcell, hgrain⟩ := hi
      have hdestValid : g.validCoord i.dest = true := (Bool.and_eq_true_iff.mp hdest).1
      have hzero : i.cell ≠ 0 := hcell ▸ getCell_ne_zero hvalid
      have hemptyCell : defs.cellIsGranular emptyCell = false := by
        cases hgrain : defs.cellIsGranular emptyCell with
        | false => rfl
        | true => exact absurd (h.grain _ hgrain) (by simp [h.empty])
      rw [grains, grains, coords_moveGrain]
      refine contents_move (mem_coords.mpr hvalid) (mem_coords.mpr hdestValid) hne ?_ ?_ ?_ ?_
      · rw [moveGrain_dest hdestValid hzero, content, hcell]
      · rw [content, not_granular_of_passable h hdest]
        exact Bool.false_ne_true
      · rw [content, moveGrain_src hvalid hne, hemptyCell]
        exact Bool.false_ne_true
      · intro x _ hsrc hdest
        exact content_moveGrain_of_ne hsrc hdest

theorem CellGrid.Fixed.content_moveGrain (hp : g.Fixed defs p) (hi : i.Ready defs g)
    (hdest : isPassable defs g i.dest = true) :
    (OpenMines.moveGrain defs g i srcOk destOk).content p = g.content p := by
  refine content_moveGrain_of_ne ?_ ?_
  · rintro rfl
    have hgrain := hp.1
    rw [hi.2.1, hi.2.2] at hgrain
    cases hgrain
  · rintro rfl
    rw [hp.2] at hdest
    cases hdest

theorem CellGrid.Fixed.of_content {g' : CellGrid} (hp : g.Fixed defs p) (hvalid : g'.validCoord p = g.validCoord p)
    (he : g'.content p = g.content p) : g'.Fixed defs p := by
  have hcell : g'.getCell p = g.getCell p := congrArg Prod.fst he
  rw [Fixed, isPassable, hvalid, hcell]
  exact hp

theorem CellGrid.Fixed.of_isProtected (h : defs.Sound) (hp : isProtected (g.getCell p) = true) : g.Fixed defs p := by
  refine ⟨h.protect _ hp, ?_⟩
  rw [isPassable, CellDefs.passable, hp]
  simp

/-- The intents that come after an applied one are ready, too. -/
theorem ready_moveGrain (h : defs.Sound) (hready : ∀ j ∈ i :: is, j.Ready defs g)
    (hsrcs : (i :: is).Pairwise (fun a b => a.src ≠ b.src)) (hdest : isPassable defs g i.dest = true) :
    ∀ j ∈ is, j.Ready defs (moveGrain defs g i srcOk destOk) := fun j hj =>
  (hready j (List.mem_cons_of_mem _ hj)).moveGrain h hdest ((List.pairwise_cons.mp hsrcs).1 j hj)

theorem CellGrid.Fixed.content_apply (h : defs.Sound) (hready : ∀ j ∈ is, j.Ready defs g)
    (hsrcs : is.Pairwise (fun a b => a.src ≠ b.src)) (hp : g.Fixed defs p) :
    (applyGranularIntents defs g io is).grid.content p = g.content p := by
  induction is generalizing g io with
  | nil => rfl
  | cons i is ih =>
      rw [applyGranularIntents]
      split
      · rename_i hdest
        have hmove : (OpenMines.moveGrain defs g i (io.headD (true, true)).1 (io.headD (true, true)).2).content p =
            g.content p := hp.content_moveGrain (hready i List.mem_cons_self) hdest
        refine (ih (ready_moveGrain h hready hsrcs hdest) (List.pairwise_cons.mp hsrcs).2 ?_).trans hmove
        exact hp.of_content validCoord_moveGrain hmove
      · exact ih (fun j hj => hready j (List.mem_cons_of_mem _ hj)) (List.pairwise_cons.mp hsrcs).2 hp

theorem grains_apply (h : defs.Sound) (hready : ∀ j ∈ is, j.Ready defs g)
    (hsrcs : is.Pairwise (fun a b => a.src ≠ b.src)) (hio : ∀ ok ∈ io, ok.1 = ok.2) :
    (applyGranularIntents defs g io is).grid.grains defs = g.grains defs := by
  induction is generalizing g io with
  | nil => rfl
  | cons i is ih =>
      rw [applyGranularIntents]
      split
      · rename_i hdest
        have hok : (io.headD (true, true)).1 = (io.headD (true, true)).2 := by
          cases io with
          | nil => rfl
          | cons ok io => exact hio ok List.mem_cons_self
        exact (ih (ready_moveGrain h hready hsrcs hdest) (List.pairwise_cons.mp hsrcs).2
          (fun ok hmem => hio ok (List.mem_of_mem_tail hmem))).trans
          (grains_moveGrain h (hready i List.mem_cons_self) hdest hok)
      · exact ih (fun j hj => hready j (List.mem_cons_of_mem _ hj)) (List.pairwise_cons.mp hsrcs).2 hio

end Move

namespace GranularSystem

variable {defs : CellDefs} {s : GranularSystem} {p : Pos}

theorem ready_intents {budget : Nat} : ∀ i ∈ s.intents defs budget, i.Ready defs s.grid := by
  intro i hi
  have hof := of_mem_intents hi
  exact ⟨hof.valid, hof.cell.symm, hof.granular⟩

theorem validCoord_step {e : GranularEvent} (he : e.isWrite = false) :
    (s.step defs e).grid.validCoord p = s.grid.validCoord p := by
  cases e with
  | write => cases he
  | seed => rfl
  | tick now budget io => exact validCoord_apply

theorem content_step (h : defs.Sound) {e : GranularEvent} (he : e.isWrite = false) (hp : s.grid.Fixed defs p) :
    (s.step defs e).grid.content p = s.grid.content p := by
  cases e with
  | write => cases he
  | seed => rfl
  | tick now budget io => exact hp.content_apply h ready_intents (pairwise_canonicalize _)

theorem grains_step (h : defs.Sound) {e : GranularEvent} (he : e.isWrite = false) (hpaired : e.Paired) :
    (s.step defs e).grid.grains defs = s.grid.grains defs := by
  cases e with
  | write => cases he
  | seed => rfl
  | tick now budget io => exact grains_apply h ready_intents (pairwise_canonicalize _) hpaired

theorem content_run (h : defs.Sound) {es : List GranularEvent} (hes : ∀ e ∈ es, e.isWrite = false)
    (hp : s.grid.Fixed defs p) : (es.foldl (step defs) s).grid.content p = s.grid.content p := by
  induction es generalizing s with
  | nil => rfl
  | cons e es ih =>
      have he := hes e List.mem_cons_self
      have hstep := content_step h he hp
      exact (ih (fun f hf => hes f (List.mem_cons_of_mem _ hf)) (hp.of_content (validCoord_step he) hstep)).trans
        hstep

theorem grains_run (h : defs.Sound) {es : List GranularEvent} (hes : ∀ e ∈ es, e.isWrite = false)
    (hpaired : ∀ e ∈ es, e.Paired) : (es.foldl (step defs) s).grid.grains defs = s.grid.grains defs := by
  induction es generalizing s with
  | nil => rfl
  | cons e es ih =>
      exact (ih (fun f hf => hes f (List.mem_cons_of_mem _ hf)) fun f hf => hpaired f (List.mem_cons_of_mem _ hf)).trans
        (grains_step h (hes e List.mem_cons_self) (hpaired e List.mem_cons_self))

/-- Steps keep every cell that is neither a grain nor passable, the protected ones among them, and
where no move is journaled by half they keep all grains with their damage. -/
theorem steps_conserve (h : defs.Sound) (s : GranularSystem) (es : List GranularEvent)
    (hes : ∀ e ∈ es, e.isWrite = false) :
    (∀ p, s.grid.Fixed defs p → (es.foldl (step defs) s).grid.content p = s.grid.content p) ∧
    (∀ p, isProtected (s.grid.getCell p) = true →
      (es.foldl (step defs) s).grid.content p = s.grid.content p) ∧
    ((∀ e ∈ es, e.Paired) → (es.foldl (step defs) s).grid.grains defs = s.grid.grains defs) :=
  ⟨fun _ hp => content_run h hes hp, fun _ hp => content_run h hes (.of_isProtected h hp), grains_run h hes⟩

/-- A grain of sand over an empty cell. -/
def sandSystem : GranularSystem :=
  { grid :=
      { width := 1
        height := 2
        foreground := fun p => if p = (0, 0) then 100 else 0
        road := fun _ => 32
        durability := fun _ => 7 }
    wake := ⟨[], []⟩
    state := ⟨[(0, 0)], []⟩ }

theorem steps_conserve_sand :
    ([GranularEvent.tick 0 1 [(true, true)]].foldl (step .cellsJson) sandSystem).grid.grains .cellsJson = {(100, 7)} := by
  have hrun := (steps_conserve CellDefs.cellsJson_sound sandSystem [.tick 0 1 [(true, true)]] (by decide)).2.2
    (by simp [GranularEvent.Paired])
  rw [hrun]
  decide

/-- The record of the second write gets lost, and with it the grain. -/
theorem sand_lost :
    ([GranularEvent.tick 0 1 [(true, false)]].foldl (step .cellsJson) sandSystem).grid.grains .cellsJson ≠
      sandSystem.grid.grains .cellsJson := by
  decide +kernel

end GranularSystem

end OpenMines
