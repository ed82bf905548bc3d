import OpenMines.Alive
import OpenMines.Lib.LastWins

namespace OpenMines.Alive

open CellGrid Lib.LastWins

section Evaluation

variable (rules : AliveRules) (g : CellGrid) (positions : List Pos)

/-- What one cell asks for. -/
def asked (rng : Nat → Nat) (c : Pos × UInt8) : Evaluation := evalCell rules g positions ⟨[], [], rng⟩ c

/-- What is asked for after something else. -/
def Evaluation.andThen (e f : Evaluation) : Evaluation := ⟨e.actions ++ f.actions, e.clears ++ f.clears, f.rng⟩

/-- What the cells ask for, one after the other. -/
def evaluate (rng : Nat → Nat) : List (Pos × UInt8) → Evaluation
  | [] => ⟨[], [], rng⟩
  | c :: cs => (asked rules g positions rng c).andThen (evaluate (asked rules g positions rng c).rng cs)

/-- Where a blue cell moves. -/
def target (rng : Nat → Nat) (c : Pos × UInt8) : Option Pos :=
  ((asked rules g positions rng c).actions.find? fun a => a.cell = aliveBlue).map AliveAction.pos

/-- The blue cells that move. -/
def sources (rng : Nat → Nat) : List (Pos × UInt8) → List Pos
  | [] => []
  | c :: cs => (if (target rules g positions rng c).isSome then [c.1] else []) ++
      sources (asked rules g positions rng c).rng cs

/-- No cell asks for a write where a blue cell before it moves. -/
def Undisturbed (rng : Nat → Nat) : List (Pos × UInt8) → Prop
  | [] => True
  | c :: cs => (∀ q, target rules g positions rng c = some q →
        ∀ a ∈ (evaluate rules g positions (asked rules g positions rng c).rng cs).actions, a.pos ≠ q) ∧
      Undisturbed (asked rules g positions rng c).rng cs

/-- No cell of another kind asks for a write to a blue cell. -/
def Spares (rng : Nat → Nat) : List (Pos × UInt8) → Prop
  | [] => True
  | c :: cs => (c.2 ≠ aliveBlue → ∀ a ∈ (asked rules g positions rng c).actions, g.getCell a.pos ≠ aliveBlue) ∧
      Spares (asked rules g positions rng c).rng cs

variable {rules g positions} {p : Pos} {modif : Int} {e : Evaluation} {rng : Nat → Nat} {c : Pos × UInt8}

theorem spawnOpposite_andThen (e : Evaluation) (ds : List Pos) : spawnOpposite rules g positions p modif e ds =
    e.andThen (spawnOpposite rules g positions p modif ⟨[], [], e.rng⟩ ds) := by
  induction ds with
  | nil => simp [spawnOpposite, Evaluation.andThen]
  | cons d ds ih =>
      rw [spawnOpposite, spawnOpposite]
      split
      · simp [Evaluation.andThen]
      · exact ih

theorem moveBlue_andThen (e : Evaluation) (ds : List Pos) : moveBlue rules g positions p modif e ds =
    e.andThen (moveBlue rules g positions p modif ⟨[], [], e.rng⟩ ds) := by
  induction ds generalizing e with
  | nil => simp [moveBlue, Evaluation.andThen]
  | cons d ds ih =>
      rw [moveBlue, moveBlue]
      split
      · simp [Evaluation.andThen]
      · exact ih { e with rng := rest e.rng }

theorem evalCell_andThen (e : Evaluation) (c : Pos × UInt8) :
    evalCell rules g positions e c = e.andThen (asked rules g positions e.rng c) := by
  rw [asked, evalCell, evalCell]
  split
  · simp [evalCyan, Evaluation.andThen]
  split
  · rw [evalRed, evalRed]
    split <;> simp [Evaluation.andThen]
  split
  · rw [evalViol, evalViol]
    split <;> simp [Evaluation.andThen]
  split
  · rw [evalBlack, evalBlack]
    dsimp only
    split
    · simp [Evaluation.andThen]
    · split
      · exact spawnOpposite_andThen e dirs
      · simp [Evaluation.andThen]
  split
  · rw [evalWhite, evalWhite]
    dsimp only
    split
    · split <;> simp [Evaluation.andThen]
    · simp [Evaluation.andThen]
  split
  · exact moveBlue_andThen e dirs
  split
  · simp [evalRainbow, Evaluation.andThen]
  · simp [Evaluation.andThen]

theorem foldl_evalCell (e : Evaluation) (cs : List (Pos × UInt8)) :
    cs.foldl (evalCell rules g positions) e = e.andThen (evaluate rules g positions e.rng cs) := by
  induction cs generalizing e with
  | nil => simp [evaluate, Evaluation.andThen]
  | cons c cs ih =>
      rw [List.foldl_cons, ih, evalCell_andThen, evaluate]
      simp [Evaluation.andThen]

/-- A cell that shows something and is not a blue one. -/
def Other (cell : UInt8) : Prop := cell ≠ 0 ∧ cell ≠ aliveBlue

theorem other_red : Other redCell := ⟨by decide, by decide⟩

theorem other_cyan : Other cyanCell := ⟨by decide, by decide⟩

theorem other_blackRock : Other blackRock := ⟨by decide, by decide⟩

theorem other_empty : Other emptyCell := ⟨by decide, by decide⟩

/-- The cells of other kinds make no blue ones, and what they clear they write. -/
structure AsksOther (e : Evaluation) : Prop where
  cells : ∀ a ∈ e.actions, Other a.cell
  clears : ∀ q ∈ e.clears, ∃ a ∈ e.actions, a.pos = q

theorem asksOther_flood {offsets : List Pos} {cell : UInt8} {durability : UInt32} (hcell : Other cell) :
    ∀ a ∈ flood rules g positions p offsets cell durability, Other a.cell := by
  intro a ha
  obtain ⟨q, -, rfl⟩ := List.mem_map.mp ha
  exact hcell

theorem asksOther_spawnOpposite (ds : List Pos) :
    AsksOther (spawnOpposite rules g positions p modif ⟨[], [], rng⟩ ds) := by
  induction ds with
  | nil => exact ⟨fun _ ha => absurd ha List.not_mem_nil, fun _ hq => absurd hq List.not_mem_nil⟩
  | cons d ds ih =>
      rw [spawnOpposite]
      split
      · refine ⟨fun a ha => ?_, fun _ hq => absurd hq List.not_mem_nil⟩
        obtain rfl := List.mem_singleton.mp ha
        split
        · exact other_red
        · exact other_cyan
      · exact ih

theorem asksOther_rainbow : AsksOther (evalRainbow rules g positions p modif ⟨[], [], rng⟩) := by
  refine ⟨fun a ha => ?_, fun _ hq => absurd hq List.not_mem_nil⟩
  obtain ⟨d, -, hd⟩ := List.mem_filterMap.mp ha
  rw [rainbowAction] at hd
  split at hd
  · rename_i hgrows
    dsimp only at hd
    split at hd
    · cases hd
    · rename_i hcopied
      obtain rfl := Option.some.inj hd
      simp only [Bool.and_eq_true] at hgrows
      refine ⟨getCell_ne_zero hgrows.1.2, fun hblue => hcopied ?_⟩
      dsimp only at hblue
      rw [hblue]
      rfl
  · cases hd

theorem asksOther_of_ne (hkind : c.2 ≠ aliveBlue) : AsksOther (asked rules g positions rng c) := by
  have hnone : AsksOther ⟨[], [], rng⟩ :=
    ⟨fun _ ha => absurd ha List.not_mem_nil, fun _ hq => absurd hq List.not_mem_nil⟩
  have hflood {offsets : List Pos} {cell : UInt8} {durability : UInt32} (hcell : Other cell) :
      AsksOther ⟨[] ++ flood rules g positions c.1 offsets cell durability, [], rng⟩ :=
    ⟨asksOther_flood hcell, fun _ hq => absurd hq List.not_mem_nil⟩
  rw [asked, evalCell]
  split
  · exact hflood other_cyan
  split
  · rw [evalRed]
    split
    · exact hflood other_red
    · exact hnone
  split
  · rw [evalViol]
    split
    · exact hflood ⟨by decide, by decide⟩
    · exact hnone
  split
  · rw [evalBlack]
    dsimp only
    split
    · refine ⟨fun a ha => ?_, fun q hq => ⟨_, List.mem_singleton.mpr rfl, (List.mem_singleton.mp hq).symm⟩⟩
      obtain rfl := List.mem_singleton.mp ha
      exact other_blackRock
    · split
      · exact asksOther_spawnOpposite dirs
      · exact hnone
  split
  · rw [evalWhite]
    dsimp only
    split
    · split
      · refine ⟨fun a ha => ?_, fun _ hq => absurd hq List.not_mem_nil⟩
        rcases List.mem_append.mp ha with ha | ha
        · exact asksOther_flood ⟨by decide, by decide⟩ a ha
        · obtain rfl := List.mem_singleton.mp ha
          exact other_empty
      · exact ⟨asksOther_flood ⟨by decide, by decide⟩, fun _ hq => absurd hq List.not_mem_nil⟩
    · exact hnone
  split
  · exact asksOther_rainbow
  · exact hnone

/-- A blue cell asks for nothing, or for its move to a free cell. -/
theorem asked_blue (hkind : c.2 = aliveBlue) :
    ((asked rules g positions rng c).actions = [] ∧ (asked rules g positions rng c).clears = []) ∨
      ∃ q durability, free rules g positions q = true ∧ (asked rules g positions rng c).clears = [c.1] ∧
        (asked rules g positions rng c).actions = [⟨q, aliveBlue, none⟩, ⟨c.1, blueCell, some durability⟩] := by
  have hmove (ds : List Pos) (rng : Nat → Nat) (modif : Int) :
      let e := moveBlue rules g positions c.1 modif ⟨[], [], rng⟩ ds
      (e.actions = [] ∧ e.clears = []) ∨ ∃ q durability, free rules g positions q = true ∧ e.clears = [c.1] ∧
        e.actions = [⟨q, aliveBlue, none⟩, ⟨c.1, blueCell, some durability⟩] := by
    induction ds generalizing rng with
    | nil => exact .inl ⟨rfl, rfl⟩
    | cons d ds ih =>
        rw [moveBlue]
        split
        · rename_i hfree
          exact .inr ⟨shift c.1 d, _, (Bool.and_eq_true_iff.mp hfree).2, rfl, rfl⟩
        · exact ih (rest rng)
  have hasked : asked rules g positions rng c = moveBlue rules g positions c.1 (modifier g c.1) ⟨[], [], rng⟩ dirs := by
    rw [asked, evalCell, hkind]
    rfl
  rw [hasked]
  exact hmove dirs rng _

end Evaluation

section Count

variable {rules : AliveRules} {g : CellGrid} {positions : List Pos} {p q : Pos} {rng : Nat → Nat} {c : Pos × UInt8}
  {cs : List (Pos × UInt8)}

theorem target_of_ne (hkind : c.2 ≠ aliveBlue) : target rules g positions rng c = none := by
  rw [target, Option.map_eq_none_iff, List.find?_eq_none]
  intro a ha
  rw [decide_eq_true_eq]
  exact ((asksOther_of_ne hkind).cells a ha).2

/-- A cell that does not move makes no blue cell, and what it clears it writes. -/
theorem asksOther_of_target (h : target rules g positions rng c = none) :
    AsksOther (asked rules g positions rng c) := by
  by_cases hkind : c.2 = aliveBlue
  · rcases asked_blue hkind with ⟨hactions, hclears⟩ | ⟨q, durability, -, -, hactions⟩
    · refine ⟨fun a ha => ?_, fun q hq => ?_⟩
      · rw [hactions] at ha
        exact absurd ha List.not_mem_nil
      · rw [hclears] at hq
        exact absurd hq List.not_mem_nil
    · rw [target, hactions] at h
      cases h
  · exact asksOther_of_ne hkind

/-- A move is to a free cell, and leaves another cell behind. -/
theorem asked_of_target (h : target rules g positions rng c = some q) :
    c.2 = aliveBlue ∧ ∃ durability, free rules g positions q = true ∧
      (asked rules g positions rng c).clears = [c.1] ∧
        (asked rules g positions rng c).actions = [⟨q, aliveBlue, none⟩, ⟨c.1, blueCell, some durability⟩] := by
  by_cases hkind : c.2 = aliveBlue
  · rcases asked_blue hkind with ⟨hactions, -⟩ | ⟨q', durability, hfree, hclears, hactions⟩
    · rw [target, hactions] at h
      cases h
    · rw [target, hactions] at h
      obtain rfl : q' = q := Option.some.inj h
      exact ⟨hkind, durability, hfree, hclears, hactions⟩
  · rw [target_of_ne hkind] at h
    cases h

/-- The coordinates whose last write is a blue cell. -/
def gained (rules : AliveRules) (g : CellGrid) (positions : List Pos) (rng : Nat → Nat) (cs : List (Pos × UInt8)) :
    Finset Pos :=
  g.coords.filter fun q =>
    (lastAt AliveAction.pos (evaluate rules g positions rng cs).actions q).map AliveAction.cell = some aliveBlue

theorem mem_gained : q ∈ gained rules g positions rng cs ↔ g.validCoord q = true ∧
    (lastAt AliveAction.pos (evaluate rules g positions rng cs).actions q).map AliveAction.cell = some aliveBlue := by
  rw [gained, Finset.mem_filter, mem_coords]

theorem gained_of_target_none (h : target rules g positions rng c = none) :
    gained rules g positions rng (c :: cs) = gained rules g positions (asked rules g positions rng c).rng cs := by
  refine Finset.filter_congr fun q _ => ?_
  rw [evaluate, Evaluation.andThen, lastAt_append]
  cases hlast : lastAt AliveAction.pos (evaluate rules g positions (asked rules g positions rng c).rng cs).actions q with
  | some a => rw [Option.some_or]
  | none =>
      rw [Option.none_or]
      refine iff_of_false (fun hblue => ?_) (Option.some_ne_none _).symm
      obtain ⟨a, ha, hcell⟩ := Option.map_eq_some_iff.mp hblue
      exact ((asksOther_of_target h).cells a (mem_of_lastAt ha).1).2 hcell

theorem ne_of_free (hempty : rules.isEmpty aliveBlue = false) (hp : g.getCell p = aliveBlue)
    (hfree : free rules g positions q = true) : p ≠ q := by
  rintro rfl
  simp [free, hp, hempty] at hfree

theorem gained_of_target_some (hempty : rules.isEmpty aliveBlue = false) (hc : g.getCell c.1 = c.2)
    (h : target rules g positions rng c = some q) : gained rules g positions rng (c :: cs) =
      if ∀ a ∈ (evaluate rules g positions (asked rules g positions rng c).rng cs).actions, a.pos ≠ q then
        insert q (gained rules g positions (asked rules g positions rng c).rng cs)
      else gained rules g positions (asked rules g positions rng c).rng cs := by
  obtain ⟨hkind, durability, hfree, -, hactions⟩ := asked_of_target h
  have hne : c.1 ≠ q := ne_of_free hempty (hc.trans hkind) hfree
  have hvalid : g.validCoord q = true := by
    simp only [free, Bool.and_eq_true] at hfree
    exact hfree.1.1
  have hfirst (x : Pos) : (lastAt AliveAction.pos (asked rules g positions rng c).actions x).map AliveAction.cell =
      some aliveBlue ↔ x = q := by
    rw [hactions, lastAt_pair]
    by_cases hx : c.1 = x
    · subst hx
      rw [if_pos rfl]
      have hcell : blueCell ≠ aliveBlue := by decide
      exact iff_of_false (fun h => hcell (Option.some.inj h)) hne
    · rw [if_neg hx]
      by_cases hq : q = x
      · rw [if_pos hq]
        exact iff_of_true rfl hq.symm
      · rw [if_neg hq]
        exact iff_of_false (Option.some_ne_none _).symm (Ne.symm hq)
  refine Finset.ext fun x => ?_
  rw [mem_gained, evaluate, Evaluation.andThen, lastAt_append]
  by_cases hlast : lastAt AliveAction.pos (evaluate rules g positions (asked rules g positions rng c).rng cs).actions x =
      none
  · rw [hlast, Option.none_or, hfirst]
    have hout : x ∉ gained rules g positions (asked rules g positions rng c).rng cs := by
      rw [mem_gained, hlast]
      exact fun hblue => absurd hblue.2 (Option.some_ne_none _).symm
    split
    · rw [Finset.mem_insert, or_iff_left hout]
      exact and_iff_right_of_imp fun hx => hx ▸ hvalid
    · rename_i hlater
      refine iff_of_false (fun hx => hlater ?_) hout
      exact hx.2 ▸ lastAt_eq_none.mp hlast
  · obtain ⟨a, ha⟩ := Option.ne_none_iff_exists'.mp hlast
    have hx : x ∈ gained rules g positions (asked rules g positions rng c).rng cs ↔
        g.validCoord x = true ∧ (some a).map AliveAction.cell = some aliveBlue := by rw [mem_gained, ha]
    rw [ha, Option.some_or, ← hx]
    split
    · rename_i hlater
      rw [Finset.mem_insert, or_iff_right]
      rintro rfl
      exact hlast (lastAt_eq_none.mpr hlater)
    · rfl

/-- At most as many blue cells appear as move, and as many just when no move is disturbed: by induction on the cells that
act, the later ones first. -/
theorem card_gained (hempty : rules.isEmpty aliveBlue = false) (hcs : ∀ c ∈ cs, g.getCell c.1 = c.2) :
    (gained rules g positions rng cs).card ≤ (sources rules g positions rng cs).length ∧
      ((gained rules g positions rng cs).card = (sources rules g positions rng cs).length ↔
        Undisturbed rules g positions rng cs) := by
  induction cs generalizing rng with
  | nil =>
      have hnone : gained rules g positions rng [] = ∅ :=
        Finset.filter_eq_empty_iff.mpr fun q _ => (Option.some_ne_none _).symm
      rw [hnone]
      exact ⟨Nat.le_refl _, iff_of_true rfl trivial⟩
  | cons c cs ih =>
      obtain ⟨hle, hiff⟩ := @ih (asked rules g positions rng c).rng fun c' hc' => hcs c' (List.mem_cons_of_mem c hc')
      cases htarget : target rules g positions rng c with
      | none =>
          rw [gained_of_target_none htarget, sources, Undisturbed, htarget, and_iff_right (fun _ hq => by cases hq)]
          exact ⟨hle, hiff⟩
      | some q =>
          rw [gained_of_target_some hempty (hcs c List.mem_cons_self) htarget, sources, Undisturbed, htarget]
          simp only [Option.isSome_some, if_true, List.singleton_append, List.length_cons, Option.some.injEq,
            forall_eq']
          split
          · rename_i hlater
            have hout : q ∉ gained rules g positions (asked rules g positions rng c).rng cs := by
              rw [mem_gained, lastAt_eq_none.mpr hlater]
              exact fun hblue => absurd hblue.2 (Option.some_ne_none _).symm
            rw [Finset.card_insert_of_notMem hout, and_iff_right hlater, Nat.add_right_cancel_iff]
            exact ⟨Nat.succ_le_succ hle, hiff⟩
          · rename_i hlater
            exact ⟨Nat.le_succ_of_le hle, iff_of_false (Nat.ne_of_lt (Nat.lt_succ_of_le hle)) fun h => hlater h.1⟩

end Count

section Sources

variable {rules : AliveRules} {g : CellGrid} {positions : List Pos} {p q : Pos} {rng : Nat → Nat}
  {cs : List (Pos × UInt8)} {a : AliveAction}

theorem sources_sublist (rng : Nat → Nat) (cs : List (Pos × UInt8)) :
    (sources rules g positions rng cs).Sublist (cs.map Prod.fst) := by
  induction cs generalizing rng with
  | nil => exact .slnil
  | cons c cs ih =>
      rw [sources, List.map_cons]
      split
      · exact (ih _).cons_cons c.1
      · exact (ih _).cons c.1

theorem getCell_of_mem_sources (hcs : ∀ c ∈ cs, g.getCell c.1 = c.2)
    (h : p ∈ sources rules g positions rng cs) : g.getCell p = aliveBlue := by
  induction cs generalizing rng with
  | nil => exact absurd h List.not_mem_nil
  | cons c cs ih =>
      rw [sources] at h
      rcases List.mem_append.mp h with hself | hrest
      · split at hself
        · rename_i htarget
          obtain ⟨q, hq⟩ := Option.isSome_iff_exists.mp htarget
          obtain rfl := List.mem_singleton.mp hself
          exact (hcs c List.mem_cons_self).trans (asked_of_target hq).1
        · exact absurd hself List.not_mem_nil
      · exact ih (fun c' hc' => hcs c' (List.mem_cons_of_mem c hc')) hrest

/-- A blue cell that moves is written. -/
theorem exists_action_of_mem_sources (h : p ∈ sources rules g positions rng cs) :
    ∃ a ∈ (evaluate rules g positions rng cs).actions, a.pos = p := by
  induction cs generalizing rng with
  | nil => exact absurd h List.not_mem_nil
  | cons c cs ih =>
      rw [sources] at h
      rcases List.mem_append.mp h with hself | hrest
      · split at hself
        · rename_i htarget
          obtain ⟨q, hq⟩ := Option.isSome_iff_exists.mp htarget
          obtain rfl := List.mem_singleton.mp hself
          obtain ⟨-, durability, -, -, hactions⟩ := asked_of_target hq
          refine ⟨⟨c.1, blueCell, some durability⟩, List.mem_append_left _ ?_, rfl⟩
          rw [hactions]
          exact List.mem_cons_of_mem _ (List.mem_singleton.mpr rfl)
        · exact absurd hself List.not_mem_nil
      · obtain ⟨a, ha, hpos⟩ := ih hrest
        exact ⟨a, List.mem_append_right _ ha, hpos⟩

/-- The only write to a blue cell is what it leaves behind. -/
theorem action_of_blue (hempty : rules.isEmpty aliveBlue = false) (hspares : Spares rules g positions rng cs)
    (ha : a ∈ (evaluate rules g positions rng cs).actions) (hblue : g.getCell a.pos = aliveBlue) :
    a.cell = blueCell ∧ a.pos ∈ sources rules g positions rng cs := by
  induction cs generalizing rng with
  | nil => exact absurd ha List.not_mem_nil
  | cons c cs ih =>
      rw [sources]
      rcases List.mem_append.mp ha with hself | hrest
      · by_cases hkind : c.2 = aliveBlue
        · rcases asked_blue hkind with ⟨hactions, -⟩ | ⟨q, durability, hfree, -, hactions⟩
          · rw [hactions] at hself
            exact absurd hself List.not_mem_nil
          · have htarget : (target rules g positions rng c).isSome = true := by
              rw [target, hactions]
              rfl
            rw [hactions] at hself
            rcases List.mem_pair.mp hself with rfl | rfl
            · exact absurd rfl (ne_of_free hempty hblue hfree)
            · rw [if_pos htarget]
              exact ⟨rfl, List.mem_append_left _ (List.mem_singleton.mpr rfl)⟩
        · exact absurd hblue (hspares.1 hkind a hself)
      · obtain ⟨hcell, hmem⟩ := ih hspares.2 hrest
        exact ⟨hcell, List.mem_append_right _ hmem⟩

/-- What is cleared is written, and nothing is written that shows nothing. -/
theorem evaluate_writes (rng : Nat → Nat) (cs : List (Pos × UInt8)) :
    (∀ q ∈ (evaluate rules g positions rng cs).clears, ∃ a ∈ (evaluate rules g positions rng cs).actions, a.pos = q) ∧
      ∀ a ∈ (evaluate rules g positions rng cs).actions, a.cell ≠ 0 := by
  induction cs generalizing rng with
  | nil => exact ⟨fun _ hq => absurd hq List.not_mem_nil, fun _ ha => absurd ha List.not_mem_nil⟩
  | cons c cs ih =>
      obtain ⟨hclears, hcells⟩ := ih (asked rules g positions rng c).rng
      have hfirst : (∀ q ∈ (asked rules g positions rng c).clears,
          ∃ a ∈ (asked rules g positions rng c).actions, a.pos = q) ∧
            ∀ a ∈ (asked rules g positions rng c).actions, a.cell ≠ 0 := by
        cases htarget : target rules g positions rng c with
        | none =>
            have hother := asksOther_of_target htarget
            exact ⟨hother.clears, fun a ha => (hother.cells a ha).1⟩
        | some q =>
            obtain ⟨-, durability, -, hclears, hactions⟩ := asked_of_target htarget
            rw [hclears, hactions]
            refine ⟨fun x hx => ?_, fun a ha => ?_⟩
            · obtain rfl := List.mem_singleton.mp hx
              exact ⟨_, List.mem_cons_of_mem _ (List.mem_singleton.mpr rfl), rfl⟩
            · have hcell : aliveBlue ≠ 0 ∧ blueCell ≠ 0 := by decide
              rcases List.mem_pair.mp ha with rfl | rfl
              · exact hcell.1
              · exact hcell.2
      refine ⟨fun q hq => ?_, fun a ha => ?_⟩
      · rcases List.mem_append.mp hq with hq | hq
        · obtain ⟨a, ha, hpos⟩ := hfirst.1 q hq
          exact ⟨a, List.mem_append_left _ ha, hpos⟩
        · obtain ⟨a, ha, hpos⟩ := hclears q hq
          exact ⟨a, List.mem_append_right _ ha, hpos⟩
      · rcases List.mem_append.mp ha with ha | ha
        · exact hfirst.2 a ha
        · exact hcells a ha

end Sources

section Step

variable {rules : AliveRules} {positions : List Pos} {p q : Pos} {s : AliveState}

/-- Every write reaches the journal. -/
def AliveJournal.all : AliveJournal := ⟨fun _ => true, fun _ => true⟩

theorem validCoord_applyAction (journal : AliveJournal) (g : CellGrid) (a : AliveAction) :
    (applyAction rules journal g a).validCoord q = g.validCoord q := by
  rw [applyAction]
  split
  · exact validCoord_writeWorldCell
  · exact validCoord_setCellTyped _

theorem coords_applyAction (journal : AliveJournal) (g : CellGrid) (a : AliveAction) :
    (applyAction rules journal g a).coords = g.coords := by
  rw [applyAction]
  split
  · exact coords_writeWorldCell
  · exact coords_setCellTyped _

theorem getCell_applyAction_self {g : CellGrid} {a : AliveAction} (hvalid : g.validCoord a.pos = true)
    (hcell : a.cell ≠ 0) : (applyAction rules .all g a).getCell a.pos = a.cell := by
  rw [applyAction]
  split
  · exact (writeWorldCell_self hvalid hcell).1
  · exact getCell_setCellTyped_self hvalid hcell

/-- The last write shows. -/
theorem getCell_applyActions {actions : List AliveAction} {g : CellGrid} (hvalid : g.validCoord q = true)
    (hcells : ∀ a ∈ actions, a.cell ≠ 0) : (actions.foldl (applyAction rules .all) g).getCell q =
      ((lastAt AliveAction.pos actions q).map AliveAction.cell).getD (g.getCell q) := by
  induction actions using List.reverseRecOn with
  | nil => rfl
  | append_singleton actions a ih =>
      rw [List.foldl_concat, lastAt_concat]
      have hstays : (actions.foldl (applyAction rules .all) g).validCoord q = true :=
        List.foldlRecOn (motive := fun g : CellGrid => g.validCoord q = true) _ _ hvalid fun g hg a _ => by
          rw [validCoord_applyAction, hg]
      by_cases hpos : a.pos = q
      · subst hpos
        rw [if_pos rfl]
        exact getCell_applyAction_self hstays (hcells a (List.mem_append_right _ (List.mem_singleton.mpr rfl)))
      · rw [if_neg hpos, (unchanged_applyAction (Ne.symm hpos)).cell]
        exact ih fun b hb => hcells b (List.mem_append_left _ hb)

/-- The cells that act in a step, in the order in which they are evaluated. -/
def frontier (positions : List Pos) (cellOrder : HashOrder Pos) (s : AliveState) : List (Pos × UInt8) :=
  (collect positions s.grid cellOrder (seedAliveRegions s.work s.grid)).1

/-- A step shows the last write that was asked for, and else what there was. -/
theorem getCell_alivePhysics (rules : AliveRules) (players : List AlivePlayer) (cellOrder : HashOrder Pos)
    (actionOrder : HashOrder AliveAction) (rng : Nat → Nat) (s : AliveState) (hvalid : s.grid.validCoord q = true) :
    (alivePhysics rules players cellOrder actionOrder .all rng s).grid.getCell q =
      ((lastAt AliveAction.pos (evaluate rules s.grid (playerPositions players) rng
        (frontier (playerPositions players) cellOrder s)).actions q).map AliveAction.cell).getD (s.grid.getCell q) := by
  have heval : (frontier (playerPositions players) cellOrder s).foldl
      (evalCell rules s.grid (playerPositions players)) ⟨[], [], rng⟩ =
        evaluate rules s.grid (playerPositions players) rng (frontier (playerPositions players) cellOrder s) := by
    rw [foldl_evalCell]
    simp [Evaluation.andThen]
  obtain ⟨hclears, hcells⟩ := @evaluate_writes rules s.grid (playerPositions players) rng
    (frontier (playerPositions players) cellOrder s)
  rw [← heval] at hclears hcells ⊢
  generalize hE : (frontier (playerPositions players) cellOrder s).foldl
    (evalCell rules s.grid (playerPositions players)) ⟨[], [], rng⟩ = E at hclears hcells ⊢
  have hgrid : (alivePhysics rules players cellOrder actionOrder .all rng s).grid =
      (actionOrder.arrange (lastWins AliveAction.pos E.actions)).foldl (applyAction rules .all)
        (((E.clears.mergeSort posLe).dedup).foldl (fun g p => g.setCellTyped rules.toCellDefs p emptyCell true)
          s.grid) := by
    rw [← hE]
    rfl
  have hperm := actionOrder.perm (lastWins AliveAction.pos E.actions)
  have hcleared : ((E.clears.mergeSort posLe).dedup.foldl (fun g p => g.setCellTyped rules.toCellDefs p emptyCell true)
      s.grid).validCoord q = true :=
    List.foldlRecOn (motive := fun g : CellGrid => g.validCoord q = true) _ _ hvalid fun g hg p _ => by
      rw [validCoord_setCellTyped, hg]
  rw [hgrid, getCell_applyActions hcleared, lastAt_congr_of_perm nodup_lastWins hperm, lastAt_lastWins]
  · cases hlast : lastAt AliveAction.pos E.actions q with
    | some a => rfl
    | none =>
        refine (unchanged_foldl (fun p hp g => unchanged_writeWorldCell _ _ _ _ ?_) s.grid).cell
        rintro rfl
        obtain ⟨a, ha, hpos⟩ := hclears q (List.mem_mergeSort.mp (List.mem_dedup.mp hp))
        exact lastAt_eq_none.mp hlast a ha hpos
  · exact fun a ha => hcells a (mem_of_lastAt (mem_lastWins.mp (hperm.mem_iff.mp ha))).1

theorem coords_alivePhysics (rules : AliveRules) (players : List AlivePlayer) (cellOrder : HashOrder Pos)
    (actionOrder : HashOrder AliveAction) (journal : AliveJournal) (rng : Nat → Nat) (s : AliveState) :
    (alivePhysics rules players cellOrder actionOrder journal rng s).grid.coords = s.grid.coords := by
  refine List.foldlRecOn (motive := fun g : CellGrid => g.coords = s.grid.coords) _ _ ?_ fun g hg a _ => ?_
  · refine List.foldlRecOn (motive := fun g : CellGrid => g.coords = s.grid.coords) _ _ rfl fun g hg p _ => ?_
    rw [coords_setCellTyped, hg]
  · rw [coords_applyAction, hg]

theorem nodup_noteCell {work : AliveWork} (h : work.cells.Nodup) (p : Pos) (cell : UInt8) :
    (work.noteCell p cell).cells.Nodup := by
  rw [AliveWork.noteCell]
  split
  · dsimp only
    split
    · exact h
    · rename_i hnew
      refine h.append (List.nodup_singleton p) (List.disjoint_singleton.mpr fun hmem => hnew ?_)
      exact List.contains_iff_mem.mpr hmem
  · exact h.filter _

theorem nodup_seedAliveRegions {work : AliveWork} (h : work.cells.Nodup) (g : CellGrid) :
    (seedAliveRegions work g).cells.Nodup := by
  refine List.foldlRecOn (motive := fun work : AliveWork => work.cells.Nodup) _ _ h fun work hwork p _ => ?_
  split
  · exact nodup_noteCell hwork p _
  · exact hwork

theorem map_fst_collect (g : CellGrid) (ps : List Pos) (r : List (Pos × UInt8) × AliveWork) :
    ((ps.foldl (collectCell positions g) r).1.map Prod.fst).Sublist (r.1.map Prod.fst ++ ps) := by
  induction ps generalizing r with
  | nil => rw [List.foldl_nil, List.append_nil]
  | cons p ps ih =>
      refine (ih (collectCell positions g r p)).trans ?_
      rw [List.append_cons]
      refine List.Sublist.append_right ?_ ps
      rw [collectCell]
      split
      · dsimp only
        split
        · rw [List.map_append, List.map_singleton]
        · exact List.sublist_append_left _ _
      · exact List.sublist_append_left _ _

theorem nodup_frontier (h : s.work.cells.Nodup) (cellOrder : HashOrder Pos) :
    ((frontier positions cellOrder s).map Prod.fst).Nodup := by
  have hcells : (cellOrder.arrange (seedAliveRegions s.work s.grid).cells).Nodup :=
    (cellOrder.perm _).nodup_iff.mpr (nodup_seedAliveRegions h s.grid)
  exact hcells.sublist (map_fst_collect s.grid _ _)

theorem mem_frontier {cellOrder : HashOrder Pos} {c : Pos × UInt8} (h : c ∈ frontier positions cellOrder s) :
    s.grid.validCoord c.1 = true ∧ s.grid.getCell c.1 = c.2 := by
  obtain ⟨p, -, rfl, hvalid, -⟩ := mem_collect h
  exact ⟨hvalid, rfl⟩

def blueCells (g : CellGrid) : Finset Pos := g.coords.filter fun p => g.getCell p = aliveBlue

theorem mem_blueCells {g : CellGrid} : p ∈ blueCells g ↔ g.validCoord p = true ∧ g.getCell p = aliveBlue := by
  rw [blueCells, Finset.mem_filter, mem_coords]

/-- The blue cells after a step: those that have not moved, and those at whose coordinate one is written last. -/
theorem blueCells_alivePhysics (players : List AlivePlayer) (cellOrder : HashOrder Pos)
    (actionOrder : HashOrder AliveAction) (rng : Nat → Nat) (hempty : rules.isEmpty aliveBlue = false)
    (hspares : Spares rules s.grid (playerPositions players) rng (frontier (playerPositions players) cellOrder s)) :
    let cs := frontier (playerPositions players) cellOrder s
    blueCells (alivePhysics rules players cellOrder actionOrder .all rng s).grid =
      (blueCells s.grid \ (sources rules s.grid (playerPositions players) rng cs).toFinset) ∪
        gained rules s.grid (playerPositions players) rng cs := by
  intro cs
  refine Finset.ext fun q => ?_
  rw [Finset.mem_union, Finset.mem_sdiff, List.mem_toFinset, mem_blueCells, mem_gained, mem_blueCells, ← mem_coords,
    coords_alivePhysics, mem_coords]
  by_cases hvalid : s.grid.validCoord q = true
  · rw [getCell_alivePhysics rules players cellOrder actionOrder rng s hvalid]
    simp only [hvalid, true_and]
    cases hlast : lastAt AliveAction.pos (evaluate rules s.grid (playerPositions players) rng cs).actions q with
    | none =>
        have hstays : q ∉ sources rules s.grid (playerPositions players) rng cs := by
          intro hmem
          obtain ⟨a, ha, hpos⟩ := exists_action_of_mem_sources hmem
          exact lastAt_eq_none.mp hlast a ha hpos
        rw [Option.map_none, Option.getD_none, and_iff_left hstays]
        exact (or_iff_left (Option.some_ne_none _).symm).symm
    | some a =>
        obtain ⟨ha, rfl⟩ := mem_of_lastAt hlast
        rw [Option.map_some, Option.getD_some, Option.some_inj]
        refine (or_iff_right ?_).symm
        rintro ⟨hblue, hstays⟩
        exact hstays (action_of_blue hempty hspares ha hblue).2
  · refine iff_of_false (fun h => hvalid h.1) ?_
    rintro (⟨⟨h, -⟩, -⟩ | ⟨h, -⟩)
    · exact hvalid h
    · exact hvalid h

/-- What a step makes of the number of blue cells. -/
theorem card_blueCells_add (players : List AlivePlayer) (cellOrder : HashOrder Pos)
    (actionOrder : HashOrder AliveAction) (rng : Nat → Nat) (hnodup : s.work.cells.Nodup)
    (hempty : rules.isEmpty aliveBlue = false)
    (hspares : Spares rules s.grid (playerPositions players) rng (frontier (playerPositions players) cellOrder s)) :
    let cs := frontier (playerPositions players) cellOrder s
    (blueCells (alivePhysics rules players cellOrder actionOrder .all rng s).grid).card +
        (sources rules s.grid (playerPositions players) rng cs).length =
      (blueCells s.grid).card + (gained rules s.grid (playerPositions players) rng cs).card := by
  intro cs
  have hsources : (sources rules s.grid (playerPositions players) rng cs).toFinset ⊆ blueCells s.grid := by
    intro p hp
    rw [List.mem_toFinset] at hp
    obtain ⟨c, hc, rfl⟩ := List.mem_map.mp ((sources_sublist rng cs).subset hp)
    exact mem_blueCells.mpr ⟨(mem_frontier hc).1, getCell_of_mem_sources (fun c hc => (mem_frontier hc).2) hp⟩
  have hcard : (sources rules s.grid (playerPositions players) rng cs).toFinset.card =
      (sources rules s.grid (playerPositions players) rng cs).length :=
    List.toFinset_card_of_nodup ((nodup_frontier hnodup cellOrder).sublist (sources_sublist rng cs))
  have hdisjoint : Disjoint (blueCells s.grid \ (sources rules s.grid (playerPositions players) rng cs).toFinset)
      (gained rules s.grid (playerPositions players) rng cs) := by
    refine Finset.disjoint_left.mpr fun q hq hgained => ?_
    obtain ⟨hblue, hstays⟩ := Finset.mem_sdiff.mp hq
    obtain ⟨a, hlast, -⟩ := Option.map_eq_some_iff.mp (mem_gained.mp hgained).2
    obtain ⟨ha, rfl⟩ := mem_of_lastAt hlast
    exact hstays (List.mem_toFinset.mpr (action_of_blue hempty hspares ha (mem_blueCells.mp hblue).2).2)
  have hle := Finset.card_le_card hsources
  rw [blueCells_alivePhysics players cellOrder actionOrder rng hempty hspares, Finset.card_union_of_disjoint hdisjoint,
    Finset.card_sdiff_of_subset hsources, ← hcard]
  omega

/-- A blue cell in a corridor, with a second one or without. -/
def corridor (second : Bool) : AliveState where
  grid := ⟨3, 1, fun p => if p = (0, 0) ∨ second = true ∧ p = (2, 0) then aliveBlue else 0, fun _ => 0, fun _ => 0⟩
  work := ⟨if second then [(0, 0), (2, 0)] else [(0, 0)], [], true⟩
  broadcasts := []

def sampleRules : AliveRules where
  isEmpty cell := cell = emptyCell
  isSand _ := false
  durability _ := 0
  isDiggable _ := true
  isDestructible _ := true
  ofI16 _ := 0
  mul _ _ := 0

def givenOrder (α : Type) : HashOrder α := ⟨fun l => l, fun l => .refl l⟩

end Step

end OpenMines.Alive
