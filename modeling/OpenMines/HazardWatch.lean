import OpenMines.HazardSystem

namespace OpenMines

open Lib

namespace HazardWorld

variable {cells : BuildingCells} {rules : HazardRules} {s t : HazardWorld} {player q : PlayerId} {pos : WorldPos}

/-! ### Players that come, go and move -/

section Players

variable {presence : Presence} {now : Nat}

theorem Linked.moved (h : s.Linked) (hmoved : Presence.Moved s.presence presence player) :
    Linked { s with presence := presence } := by
  refine ⟨h.sound, h.owned, h.fresh, fun q hsome => h.present q ?_⟩
  by_cases hq : q = player
  · subst hq
    exact hmoved.present hsome
  · exact hmoved.others q hq ▸ hsome

theorem sameWatch_moved (hmoved : Presence.Moved s.presence presence player) (hq : q ≠ player) :
    SameWatch s { s with presence := presence } q :=
  ⟨congrFun hmoved.active q, hmoved.others q hq, Iff.rfl, Iff.rfl, rfl⟩

/-- Where nobody is moved, the bookkeeping is as it was. -/
theorem Watched.stays (h : s.Watched rules) (hlinked : s.Linked) (hactive : presence.active = s.presence.active)
    (hposition : ∀ q, presence.position q = s.presence.position q) :
    Linked { s with presence := presence } ∧ Watched rules { s with presence := presence } := by
  refine ⟨⟨hlinked.sound, hlinked.owned, hlinked.fresh, fun q hsome => hlinked.present q (hposition q ▸ hsome)⟩,
    fun q => ?_⟩
  have hsame : SameWatch s { s with presence := presence } q :=
    ⟨congrFun hactive q, hposition q, Iff.rfl, Iff.rfl, rfl⟩
  exact (hsame.quiet_iff _).mpr (h q)

/-- A player that is moved and scheduled. -/
theorem Watched.scheduleMoved (h : s.Watched rules) (hlinked : s.Linked)
    (hmoved : Presence.Moved s.presence presence player) (hplayer : (s.presence.position player).isSome) (now : Nat) :
    (HazardWorld.scheduleHazard { s with presence := presence } player now).Linked ∧
      (HazardWorld.scheduleHazard { s with presence := presence } player now).Watched rules := by
  have hlinked' := hlinked.moved hmoved
  refine ⟨hlinked'.scheduleHazard player now, fun q => ?_⟩
  rw [scheduleHazard_grid]
  by_cases hq : q = player
  · subst hq
    exact quiet_of_hasEntry ((hlinked'.hasEntry_scheduleHazard q now).mpr (.inl ⟨rfl, hlinked.present q hplayer⟩)) _
  · exact ((hlinked'.sameWatch_scheduleHazard hq now).quiet_iff _).mpr
      (((sameWatch_moved hmoved hq).quiet_iff _).mpr (h q))

theorem moved_seen (hmoved : Presence.Moved (s.seen rules) presence player) :
    Presence.Moved s.presence presence player := ⟨hmoved.active, hmoved.others, hmoved.present⟩

theorem Watched.handleMove (h : s.Watched rules) (hlinked : s.Linked) (cells : BuildingCells) (player : PlayerId)
    (session : Option SessionId) (request : MoveRequest) (now : Nat) :
    (s.handleMove cells rules player session request now).Linked ∧
      (s.handleMove cells rules player session request now).Watched rules := by
  rw [HazardWorld.handleMove]
  have hcases := Presence.handleMove_eq cells (s.seen rules) player session request
  have hmoved : Presence.Moved s.presence ((s.seen rules).handleMove cells player session request) player := by
    rcases hcases with ⟨-, heq⟩ | heq <;> rw [heq]
    · exact moved_seen (Presence.moved_applyMove cells _ player request)
    · exact moved_seen (Presence.Moved.refl _ player)
  split
  · rename_i hmoves
    unfold moves at hmoves
    rw [Bool.and_eq_true, Option.any_eq_true] at hmoves
    obtain ⟨-, p, hp, -⟩ := hmoves
    exact h.scheduleMoved hlinked hmoved (by rw [Presence.position_of hp]; rfl) now
  · rename_i hstill
    have hsame : (s.seen rules).handleMove cells player session request = s.seen rules := by
      rcases hcases with ⟨hhandles, heq⟩ | heq
      · rw [heq, Presence.applyMove]
        cases hp : (s.seen rules).players player with
        | none => rfl
        | some p =>
            dsimp only
            rw [if_neg]
            intro hallowed
            refine hstill ?_
            unfold moves
            rw [Bool.and_eq_true, Option.any_eq_true]
            refine ⟨?_, p, hp, hallowed⟩
            cases session with
            | none => exact hhandles
            | some session => exact decide_eq_true hhandles
      · exact heq
    rw [hsame]
    exact h.stays hlinked rfl fun _ => rfl

theorem Watched.applyTeleport (h : s.Watched rules) (hlinked : s.Linked) (player : PlayerId) (session : SessionId)
    (coords : String) (now : Nat) : (s.applyTeleport player session coords now).Linked ∧
      (s.applyTeleport player session coords now).Watched rules := by
  rw [HazardWorld.applyTeleport]
  have hmoved := Presence.moved_applyTeleport s.presence player session coords
  split
  · rename_i hteleports
    rw [teleports, Bool.and_eq_true, Option.any_eq_true] at hteleports
    obtain ⟨-, p, hp, -⟩ := hteleports
    exact h.scheduleMoved hlinked hmoved (by rw [Presence.position_of hp]; rfl) now
  · rename_i hstill
    have hsame : s.presence.applyTeleport player session coords = s.presence := by
      rw [Presence.applyTeleport]
      split
      · rename_i hactive
        cases hp : s.presence.players player with
        | none => rfl
        | some p =>
            dsimp only
            cases htarget : s.presence.teleportTarget p coords with
            | none => rfl
            | some target =>
                refine absurd ?_ hstill
                rw [teleports, Bool.and_eq_true, Option.any_eq_true]
                exact ⟨decide_eq_true hactive, p, hp, by rw [htarget]; rfl⟩
      · rfl
    rw [hsame]
    exact h.stays hlinked rfl fun _ => rfl

theorem enter_registry (s : HazardWorld) (player : PlayerId) (health maxHealth : Int32) :
    ((s.enter player health maxHealth).registry player).isSome ∧
      ∀ q, q ≠ player → (s.enter player health maxHealth).registry q = s.registry q ∧
        (s.enter player health maxHealth).health q = s.health q := by
  rw [enter]
  split
  · rename_i entity hentity
    exact ⟨by rw [hentity]; rfl, fun q _ => ⟨rfl, rfl⟩⟩
  · refine ⟨by dsimp only; rw [Function.update_self]; rfl, fun q hq => ⟨?_, ?_⟩⟩
    · exact Function.update_of_ne hq _ _
    · exact Function.update_of_ne hq _ _

theorem enter_same (s : HazardWorld) (player : PlayerId) (health maxHealth : Int32) :
    (s.enter player health maxHealth).presence = s.presence ∧ (s.enter player health maxHealth).grid = s.grid ∧
      (s.enter player health maxHealth).schedule = s.schedule ∧
        (s.enter player health maxHealth).deaths = s.deaths := by
  rw [enter]
  split <;> exact ⟨rfl, rfl, rfl, rfl⟩

/-- A new entity belongs to nobody else. -/
theorem Linked.enter (h : s.Linked) (player : PlayerId) (health maxHealth : Int32) :
    (s.enter player health maxHealth).Linked := by
  rw [HazardWorld.enter]
  split
  · exact h
  · rename_i hnone
    refine ⟨h.sound, fun q e => ?_, fun q e he => ?_, fun q hsome => ?_⟩
    · dsimp only
      have hother : s.registry q = some e → e ≠ s.nextEntity := fun he => Nat.ne_of_lt (h.fresh q e he)
      by_cases hq : q = player
      · subst hq
        rw [Function.update_self]
        by_cases he : e = s.nextEntity
        · rw [he, Function.update_self]
          exact iff_of_true rfl rfl
        · rw [Function.update_of_ne he, ← h.owned q e, hnone]
          exact iff_of_false (fun heq => he (Option.some_inj.mp heq).symm) (Option.some_ne_none e).symm
      · rw [Function.update_of_ne hq]
        by_cases he : e = s.nextEntity
        · rw [he, Function.update_self]
          exact iff_of_false (fun heq => hother (he ▸ heq) he) (fun heq => hq (Option.some_inj.mp heq).symm)
        · rw [Function.update_of_ne he]
          exact h.owned q e
    · dsimp only at he
      by_cases hq : q = player
      · rw [hq, Function.update_self] at he
        exact Option.some_inj.mp he ▸ Nat.lt_succ_self _
      · rw [Function.update_of_ne hq] at he
        exact (h.fresh q e he).trans (Nat.lt_succ_self _)
    · dsimp only
      by_cases hq : q = player
      · rw [hq, Function.update_self]
        rfl
      · rw [Function.update_of_ne hq]
        exact h.present q hsome

/-- A login schedules its player; the cell that it clears is another matter. -/
theorem Linked.connect (h : s.Linked) (player : PlayerId) (session : SessionId) (isOpen : Bool) (choice : Nat)
    (body : PlayerBody) (health maxHealth : Int32) (now : Nat) (journal : WorldPos → Bool) (hs : s.Watched rules) :
    (s.connectEntityInTick rules player session isOpen choice body health maxHealth now journal).Linked ∧
      ((s.connectEntityInTick rules player session isOpen choice body health maxHealth now journal).Watched rules ↔
        ∀ q, q ≠ player → s.Quiet rules
          (s.connectEntityInTick rules player session isOpen choice body health maxHealth now journal).grid q) := by
  rw [connectEntityInTick]
  split
  · have honly := Presence.only_connect s.presence player session isOpen choice body
    obtain ⟨t, ht⟩ : ∃ t, t = { s with grid := clearMilitaryBlock rules s.grid (s.rowPos player choice) journal } :=
      ⟨_, rfl⟩
    have htlinked : t.Linked := by
      rw [ht]
      exact ⟨h.sound, h.owned, h.fresh, h.present⟩
    obtain ⟨hself, hothers⟩ := enter_registry t player health maxHealth
    obtain ⟨hpresence, hgrid, hschedule, hdeaths⟩ := enter_same t player health maxHealth
    have henter := htlinked.enter player health maxHealth
    have hlinked : Linked { t.enter player health maxHealth with
        presence := s.presence.connectEntityInTick player session isOpen choice body } := by
      refine ⟨henter.sound, henter.owned, henter.fresh, fun q hsome => ?_⟩
      by_cases hq : q = player
      · exact hq ▸ hself
      · dsimp only at hsome ⊢
        rw [(honly q hq).position] at hsome
        rw [(hothers q hq).1, ht]
        exact h.present q hsome
    rw [← ht]
    refine ⟨hlinked.scheduleHazard player now, watched_iff_others (fun q hq => ?_) ?_⟩
    · have hwatch := hlinked.sameWatch_scheduleHazard hq now
      refine ⟨?_, ?_, ?_, ?_, ?_⟩
      · rw [hwatch.active]
        exact (honly q hq).active
      · rw [hwatch.position]
        exact (honly q hq).position
      · rw [hwatch.entry, HasEntry, HasEntry]
        dsimp only
        rw [(hothers q hq).1, hschedule, ht]
      · rw [hwatch.deaths]
        dsimp only
        rw [hdeaths, ht]
      · rw [hwatch.health]
        dsimp only
        rw [(hothers q hq).2, ht]
    · exact quiet_of_hasEntry ((hlinked.hasEntry_scheduleHazard player now).mpr (.inl ⟨rfl, hself⟩)) _
  · exact ⟨h, iff_of_true hs fun q _ => hs q⟩

theorem Watched.disconnect (h : s.Watched rules) (hlinked : s.Linked) (player : PlayerId) (session : SessionId) :
    (s.disconnectInTick player session).Linked ∧ (s.disconnectInTick player session).Watched rules := by
  rw [disconnectInTick]
  split
  · rename_i hactive
    have honly := Presence.only_disconnect s.presence player session
    have hgone := Presence.active_disconnect hactive
    have hquiet {t : HazardWorld} (ht : t.presence = s.presence.disconnectInTick player session) :
        t.Quiet rules t.grid player := fun pos hunscheduled => by
      have hconnected := hunscheduled.connected
      rw [ht, hgone] at hconnected
      cases hconnected
    have hpresent (q : PlayerId) (hsome : ((s.presence.disconnectInTick player session).position q).isSome) :
        (s.registry q).isSome := by
      refine hlinked.present q ?_
      by_cases hq : q = player
      · subst hq
        exact Presence.isSome_position_disconnect s.presence q session hsome
      · exact (honly q hq).position ▸ hsome
    dsimp only
    split
    · rename_i entity hentity hplayers
      have howner := (hlinked.owned player entity).mp hentity
      refine ⟨⟨hlinked.sound, fun q e => ?_, fun q e he => ?_, fun q hsome => ?_⟩, ?_⟩
      · dsimp only
        by_cases hq : q = player
        · subst hq
          rw [Function.update_self]
          refine iff_of_false (Option.some_ne_none e).symm fun he => ?_
          by_cases hee : e = entity
          · rw [hee, Function.update_self] at he
            cases he
          · rw [Function.update_of_ne hee, ← hlinked.owned q e, hentity] at he
            exact hee (Option.some_inj.mp he).symm
        · rw [Function.update_of_ne hq]
          by_cases hee : e = entity
          · subst hee
            rw [Function.update_self, hlinked.owned q e, howner]
            exact iff_of_false (fun heq => hq (Option.some_inj.mp heq).symm) (Option.some_ne_none q).symm
          · rw [Function.update_of_ne hee]
            exact hlinked.owned q e
      · dsimp only at he
        by_cases hq : q = player
        · rw [hq, Function.update_self] at he
          cases he
        · rw [Function.update_of_ne hq] at he
          exact hlinked.fresh q e he
      · dsimp only at hsome ⊢
        by_cases hq : q = player
        · rw [hq, Presence.position, hplayers] at hsome
          cases hsome
        · rw [Function.update_of_ne hq]
          exact hpresent q hsome
      · refine (watched_iff_others (s := s) (fun q hq => ?_) (hquiet rfl)).mpr fun q _ => h q
        refine ⟨(honly q hq).active, (honly q hq).position, ?_, Iff.rfl, rfl⟩
        simp only [HasEntry, Function.update_of_ne hq]
    · refine ⟨⟨hlinked.sound, hlinked.owned, hlinked.fresh, hpresent⟩, ?_⟩
      refine (watched_iff_others (s := s) (fun q hq => ?_) (hquiet rfl)).mpr fun q _ => h q
      exact ⟨(honly q hq).active, (honly q hq).position, Iff.rfl, Iff.rfl, rfl⟩
  · exact ⟨hlinked, h⟩

theorem Linked.adminTeleport (h : s.Linked) (player : PlayerId) (session : SessionId) (isAdmin : Bool)
    (target : WorldPos) (hs : s.Watched rules) : (s.adminTeleport player session isAdmin target).Linked ∧
      ((s.adminTeleport player session isAdmin target).Watched rules ↔
        (s.presence.active player = some session → isAdmin = true → s.presence.validCoord target = true →
          ∀ pos, s.Unscheduled player pos → 0 < s.health player → rules.standingEffect s.grid target = false)) := by
  rw [HazardWorld.adminTeleport, Presence.adminTeleport]
  split
  · rename_i hallowed
    simp only [Bool.and_eq_true, decide_eq_true_eq] at hallowed
    cases hp : s.presence.players player with
    | none =>
        refine ⟨h, iff_of_true hs fun _ _ _ pos hunscheduled => ?_⟩
        have hposition := hunscheduled.position
        rw [Presence.position, hp] at hposition
        cases hposition
    | some p =>
        dsimp only
        have hmoved := Presence.moved_setPlayer hp ⟨target, none, { p.body with currentWindow := none }⟩
        have hmoved' : Presence.Moved s.presence { s.presence.setPlayer player
            (some ⟨target, none, { p.body with currentWindow := none }⟩) with
              refreshes := s.presence.refreshes ++ [player] } player :=
          ⟨hmoved.active, hmoved.others, hmoved.present⟩
        refine ⟨h.moved hmoved', ?_⟩
        have htarget := (Presence.puts_setPlayer s.presence player
          ⟨target, none, { p.body with currentWindow := none }⟩).position player
        rw [if_pos rfl] at htarget
        constructor
        · intro hwatched _ _ _ pos hunscheduled hhealth
          exact hwatched player target ⟨htarget, hunscheduled.connected, hunscheduled.noEntry, hunscheduled.settled⟩
            hhealth
        · intro hquiet q
          by_cases hq : q = player
          · subst hq
            intro pos hunscheduled hhealth
            obtain rfl := Option.some_inj.mp (hunscheduled.position.symm.trans htarget)
            exact hquiet hallowed.1.1 hallowed.1.2 hallowed.2 p.pos ⟨Presence.position_of hp, hunscheduled.connected,
              hunscheduled.noEntry, hunscheduled.settled⟩ hhealth
          · exact ((sameWatch_moved hmoved' hq).quiet_iff _).mpr (hs q)
  · rename_i hrefused
    refine ⟨h, iff_of_true hs fun hactive hadmin hvalid => absurd ?_ hrefused⟩
    simp [hactive, hadmin, hvalid]

/-- The player that dies gets its entry at the end of the tick. -/
theorem Linked.death (h : s.Linked) (player : PlayerId) (draw : RespawnDraw) (maxHealth : Int32)
    (journal : WorldPos → Bool) (hs : s.Watched rules) :
    (s.applyPlayerDeathCore rules player draw maxHealth journal).Linked ∧
      ((s.applyPlayerDeathCore rules player draw maxHealth journal).Watched rules ↔
        ∀ q, q ≠ player →
          s.Quiet rules (s.applyPlayerDeathCore rules player draw maxHealth journal).grid q) := by
  rw [applyPlayerDeathCore]
  cases hcore : (s.seen rules).applyPlayerDeathCore player draw with
  | none => exact ⟨h, iff_of_true hs fun q _ => hs q⟩
  | some t =>
      dsimp only
      have hmoved : Presence.Moved s.presence t player := by
        cases hp : (s.seen rules).players player with
        | none =>
            rw [Presence.applyPlayerDeathCore, hp] at hcore
            cases hcore
        | some p =>
            rcases Presence.applyPlayerDeathCore_spec hp draw with ⟨-, hnone⟩ | ⟨pos, u, -, hu, hrespawned⟩
            · rw [hnone] at hcore
              cases hcore
            · obtain rfl := Option.some_inj.mp (hu.symm.trans hcore)
              refine moved_seen ⟨hrespawned.active, fun q hq => ?_, fun _ => ?_⟩
              · rw [Presence.position, hrespawned.others q hq, Presence.position]
              · rw [Presence.position_of hp]
                rfl
      have hlinked := h.moved hmoved
      refine ⟨⟨hlinked.sound, hlinked.owned, hlinked.fresh, hlinked.present⟩,
        watched_iff_others (s := s) (fun q hq => ?_) fun pos hunscheduled => ?_⟩
      · have hwatch := sameWatch_moved hmoved hq
        refine ⟨hwatch.active, hwatch.position, Iff.rfl, ?_, Function.update_of_ne hq _ _⟩
        rw [List.mem_append, List.mem_singleton, or_iff_left hq]
      · exact absurd (List.mem_append_right _ (List.mem_singleton_self player)) hunscheduled.settled

theorem Linked.settleDeath (h : s.Linked) (now : Nat) (player : PlayerId) : (s.settleDeath now player).Linked ∧
    (s.settleDeath now player).grid = s.grid ∧ (s.settleDeath now player).deaths = s.deaths ∧
      (∀ q, q ≠ player → SameWatch s (s.settleDeath now player) q) ∧
        ∀ pos, ¬ (s.settleDeath now player).Unscheduled player pos := by
  have hlinked := h.scheduleHazard player now
  have hmoved : Presence.Moved (s.scheduleHazard player now).presence
      ((s.scheduleHazard player now).presence.prepareChunkChanged player) player :=
    Presence.moved_prepareChunkChanged _ player
  have hsettled := hlinked.moved hmoved
  refine ⟨hsettled, scheduleHazard_grid s player now, scheduleHazard_deaths s player now, fun q hq => ?_,
    fun pos hunscheduled => ?_⟩
  · have hwatch := h.sameWatch_scheduleHazard hq now
    have hwatch' := sameWatch_moved hmoved hq
    exact ⟨hwatch'.active.trans hwatch.active, hwatch'.position.trans hwatch.position,
      hwatch'.entry.trans hwatch.entry, hwatch'.deaths.trans hwatch.deaths, hwatch'.health.trans hwatch.health⟩
  · have hsome := hsettled.present player (Option.isSome_iff_exists.mpr ⟨pos, hunscheduled.position⟩)
    have hregistry : (s.registry player).isSome := by
      rw [← scheduleHazard_registry s player now]
      exact hsome
    exact hunscheduled.noEntry ((h.hasEntry_scheduleHazard player now).mpr (.inl ⟨rfl, hregistry⟩))

/-- After the effects of the deaths nobody waits for its entry any more. -/
theorem Watched.applyDeaths (h : s.Watched rules) (hlinked : s.Linked) (now : Nat) :
    (s.applyDeaths now).Linked ∧ (s.applyDeaths now).Watched rules := by
  have hloop : ∀ (deaths : List PlayerId) (t : HazardWorld), t.Linked → t.deaths = [] →
      (∀ q, q ∉ deaths → t.Quiet rules t.grid q) →
      (deaths.foldl (fun s player => s.settleDeath now player) t).Linked ∧
        (deaths.foldl (fun s player => s.settleDeath now player) t).Watched rules := by
    intro deaths
    induction deaths with
    | nil => exact fun t ht _ hquiet => ⟨ht, fun q => hquiet q List.not_mem_nil⟩
    | cons player deaths ih =>
        intro t ht hnone hquiet
        obtain ⟨hlinked, hgrid, hdeaths, hothers, hself⟩ := ht.settleDeath now player
        refine ih _ hlinked (hdeaths.trans hnone) fun q hq => ?_
        by_cases hplayer : q = player
        · exact fun pos hunscheduled => absurd (hplayer ▸ hunscheduled) (hself pos)
        · rw [hgrid, (hothers q hplayer).quiet_iff]
          exact hquiet q fun hmem => hq ((List.mem_cons.mp hmem).resolve_left hplayer)
  refine hloop s.deaths { s with deaths := [] } ⟨hlinked.sound, hlinked.owned, hlinked.fresh, hlinked.present⟩ rfl ?_
  intro q hq pos hunscheduled hhealth
  exact h q pos ⟨hunscheduled.position, hunscheduled.connected, hunscheduled.noEntry, hq⟩ hhealth

end Players

/-! ### Runs -/

section Runs

/-- What an event must not do in the state before it: change a cell, move a player or bring one back to life so
that a connected live player without an entry stands on a cell that does something. -/
def Harmless (rules : HazardRules) (s : HazardWorld) : HazardEvent → Prop
  | .connect player session isOpen choice body health maxHealth now journal => ∀ q, q ≠ player → s.Quiet rules
      (s.connectEntityInTick rules player session isOpen choice body health maxHealth now journal).grid q
  | .adminTeleport player session isAdmin target =>
      s.presence.active player = some session → isAdmin = true → s.presence.validCoord target = true →
        ∀ pos, s.Unscheduled player pos → 0 < s.health player → rules.standingEffect s.grid target = false
  | .death player draw maxHealth journal => ∀ q, q ≠ player →
      s.Quiet rules (s.applyPlayerDeathCore rules player draw maxHealth journal).grid q
  | .build player block dir skills allowed pays journal =>
      ∀ q, s.Quiet rules (s.handleBuild rules player block dir skills allowed pays journal).grid q
  | .write p foreground road durability => ∀ q, s.Quiet rules (s.grid.put (worldPos p) foreground road durability) q
  | .setHealth player health =>
      0 < health → ∀ pos, s.Unscheduled player pos → rules.standingEffect s.grid pos = false
  | _ => True

theorem sameWatch_grid (s : HazardWorld) (g : CellGrid) (player : PlayerId) :
    SameWatch s { s with grid := g } player :=
  ⟨rfl, rfl, Iff.rfl, Iff.rfl, rfl⟩

theorem exists_grid_handleBuild (rules : HazardRules) (s : HazardWorld) (player : PlayerId) (block : String) (dir : Int32)
    (skills : BuildSkills) (allowed pays : Bool) (journal : WorldPos → Bool) : ∃ g,
      s.handleBuild rules player block dir skills allowed pays journal = { s with grid := g } := by
  rw [handleBuild]
  split
  · exact ⟨s.grid, rfl⟩
  · dsimp only
    split
    · split
      · exact ⟨s.grid, rfl⟩
      · exact ⟨_, rfl⟩
    · exact ⟨s.grid, rfl⟩

/-- One step from a state that is watched. -/
theorem Linked.step (h : s.Linked) (cells : BuildingCells) (hs : s.Watched rules) (e : HazardEvent) :
    (s.step cells rules e).Linked ∧ ((s.step cells rules e).Watched rules ↔ s.Harmless rules e) := by
  have hkept (hkeeps : (s.step cells rules e).Linked ∧ (s.step cells rules e).Watched rules)
      (hharmless : s.Harmless rules e) :
      (s.step cells rules e).Linked ∧ ((s.step cells rules e).Watched rules ↔ s.Harmless rules e) :=
    ⟨hkeeps.1, iff_of_true hkeeps.2 hharmless⟩
  cases e with
  | hazards now limit nextDue journal => exact hkept (hs.standingCellHazardSystem h now limit nextDue journal) trivial
  | connect player session isOpen choice body health maxHealth now journal =>
      exact h.connect player session isOpen choice body health maxHealth now journal hs
  | disconnect player session => exact hkept (hs.disconnect h player session) trivial
  | move player session request now => exact hkept (hs.handleMove h cells player session request now) trivial
  | teleport player session coords now => exact hkept (hs.applyTeleport h player session coords now) trivial
  | adminTeleport player session isAdmin target => exact h.adminTeleport player session isAdmin target hs
  | death player draw maxHealth journal => exact h.death player draw maxHealth journal hs
  | applyDeaths now => exact hkept (hs.applyDeaths h now) trivial
  | build player block dir skills allowed pays journal =>
      obtain ⟨g, hg⟩ := exists_grid_handleBuild rules s player block dir skills allowed pays journal
      rw [HazardWorld.step, Harmless, hg]
      exact ⟨⟨h.sound, h.owned, h.fresh, h.present⟩, forall_congr' fun q => (s.sameWatch_grid g q).quiet_iff g⟩
  | write p foreground road durability =>
      exact ⟨⟨h.sound, h.owned, h.fresh, h.present⟩, forall_congr' fun q => (s.sameWatch_grid _ q).quiet_iff _⟩
  | setHealth player health =>
      refine ⟨⟨h.sound, h.owned, h.fresh, h.present⟩, fun hwatched hhealth pos hunscheduled => ?_,
        fun hquiet q => ?_⟩
      · refine hwatched player pos ⟨hunscheduled.position, hunscheduled.connected, hunscheduled.noEntry,
          hunscheduled.settled⟩ (show 0 < Function.update s.health player health player from ?_)
        rwa [Function.update_self]
      · rintro pos ⟨hpos, hconnected, hentry, hsettled⟩ (hhealth : 0 < Function.update s.health player health q)
        by_cases hq : q = player
        · subst hq
          rw [Function.update_self] at hhealth
          exact hquiet hhealth pos ⟨hpos, hconnected, hentry, hsettled⟩
        · rw [Function.update_of_ne hq] at hhealth
          exact hs q pos ⟨hpos, hconnected, hentry, hsettled⟩ hhealth
  | save player =>
      exact hkept (hs.stays h (Presence.active_saveRow _ player) fun q =>
        congrArg (Option.map PresentPlayer.pos) (congrFun (Presence.players_saveRow _ player) q)) trivial
  | refresh sameSession =>
      exact hkept (hs.stays h (Presence.active_deliverRefresh _ sameSession)
        (Presence.position_deliverRefresh _ sameSession)) trivial
  | change index cost bodies =>
      exact hkept (hs.stays h rfl (Presence.position_change _ index cost _ bodies)) trivial

theorem opened_linked (rules : HazardRules) {presence : Presence} (hnobody : presence.NobodyConnected) (grid : CellGrid) :
    (opened presence grid).Linked ∧ (opened presence grid).Watched rules := by
  have hposition (q : PlayerId) : presence.position q = none := by
    rw [Presence.position, hnobody.players]
    rfl
  refine ⟨⟨DueSchedule.sound_empty, fun _ _ => ?_, fun _ _ he => (by cases he), fun q hsome => ?_⟩,
    fun q pos hunscheduled => ?_⟩
  · exact iff_of_false (Option.some_ne_none _).symm (Option.some_ne_none _).symm
  · rw [show (opened presence grid).presence = presence from rfl, hposition] at hsome
    cases hsome
  · have hpos : presence.position q = some pos := hunscheduled.position
    rw [hposition] at hpos
    cases hpos

/-- In every run from the start of the server, each connected live player on a cell that does something has an entry
in every state just when no event is harmful. -/
theorem watched_iff {presence : Presence} (hnobody : presence.NobodyConnected) (grid : CellGrid)
    (es : List HazardEvent) : (∀ fs, fs <+: es → Watched rules (fs.foldl (step cells rules) (opened presence grid))) ↔
      ∀ fs e, fs ++ [e] <+: es → Harmless rules (fs.foldl (step cells rules) (opened presence grid)) e := by
  obtain ⟨hlinked, hwatched⟩ := opened_linked rules hnobody grid
  constructor
  · intro h fs e hprefix
    have hrun : ∀ fs, fs <+: es → Linked (fs.foldl (step cells rules) (opened presence grid)) := by
      intro fs hfs
      induction fs using List.reverseRecOn with
      | nil => exact hlinked
      | append_singleton fs e ih =>
          have hfs' := (List.prefix_append fs [e]).trans hfs
          rw [List.foldl_concat]
          exact ((ih hfs').step cells (h fs hfs') e).1
    have hfs := (List.prefix_append fs [e]).trans hprefix
    have hnext := h _ hprefix
    rw [List.foldl_concat] at hnext
    exact ((hrun fs hfs).step cells (h fs hfs) e).2.mp hnext
  · intro h fs hfs
    have hboth : Linked (fs.foldl (step cells rules) (opened presence grid)) ∧
        Watched rules (fs.foldl (step cells rules) (opened presence grid)) := by
      induction fs using List.reverseRecOn with
      | nil => exact ⟨hlinked, hwatched⟩
      | append_singleton fs e ih =>
          obtain ⟨hl, hw⟩ := ih ((List.prefix_append fs [e]).trans hfs)
          rw [List.foldl_concat]
          have hstep := hl.step cells hw e
          exact ⟨hstep.1, hstep.2.mpr (h fs e hfs)⟩
    exact hboth.2

def plainGrid : CellGrid := ⟨32, 32, fun _ => 0, fun _ => emptyCell, fun _ => 0⟩

/-- A player that comes, is found on an empty cell, moves and goes. -/
theorem watched_connect_move_disconnect :
    Watched .cellsJson (([.connect 1 1 true 0 (Presence.newBody none) 100 100 0 (fun _ => true),
      .hazards 5 64 15 (fun _ => true), .move 1 (some 1) ⟨(10, 11), false⟩ 6, .disconnect 1 1] :
        List HazardEvent).foldl (step buildingsConfig.cells .cellsJson) (opened Presence.oneChunk plainGrid)) := by
  refine (watched_iff Presence.nobodyConnected_oneChunk plainGrid _).mpr (fun fs e hprefix => ?_) _ List.prefix_rfl
  match fs with
  | [] =>
      obtain rfl := (List.cons_prefix_cons.mp hprefix).1
      intro q _ pos hunscheduled
      cases hunscheduled.position
  | [f] =>
      obtain ⟨rfl, hrest⟩ := List.cons_prefix_cons.mp hprefix
      obtain ⟨rfl, -⟩ := List.cons_prefix_cons.mp hrest
      trivial
  | [f, g] =>
      obtain ⟨rfl, hrest⟩ := List.cons_prefix_cons.mp hprefix
      obtain ⟨rfl, hlast⟩ := List.cons_prefix_cons.mp hrest
      obtain ⟨rfl, -⟩ := List.cons_prefix_cons.mp hlast
      trivial
  | [f, g, i] =>
      obtain ⟨rfl, hrest⟩ := List.cons_prefix_cons.mp hprefix
      obtain ⟨rfl, hthird⟩ := List.cons_prefix_cons.mp hrest
      obtain ⟨rfl, hlast⟩ := List.cons_prefix_cons.mp hthird
      obtain ⟨rfl, -⟩ := List.cons_prefix_cons.mp hlast
      trivial
  | _ :: _ :: _ :: _ :: _ =>
      have hlength := hprefix.length_le
      simp only [List.length_append, List.length_cons, List.length_nil] at hlength
      omega

/-- A player is found on an empty cell, and another one builds a green block there. -/
def builtUnder : List HazardEvent :=
  [.connect 1 1 true 0 (Presence.newBody none) 100 100 0 (fun _ => true), .hazards 5 64 15 (fun _ => true),
    .connect 2 2 true 0 (Presence.newBody none) 100 100 6 (fun _ => true), .move 2 (some 2) ⟨(10, 11), false⟩ 7,
    .build 2 "G" 2 ⟨1, oneF32, 1, oneF32, 1, oneF32⟩ true true (fun _ => true)]

/-- The first player has no entry, so the block does nothing to it. -/
theorem not_watched_builtUnder : Presence.oneChunk.NobodyConnected ∧ ¬ Watched .cellsJson
    (builtUnder.foldl (step buildingsConfig.cells .cellsJson) (opened Presence.oneChunk plainGrid)) := by
  refine ⟨Presence.nobodyConnected_oneChunk, fun hwatched => ?_⟩
  have hentry : ¬ HasEntry (builtUnder.foldl (step buildingsConfig.cells .cellsJson)
      (opened Presence.oneChunk plainGrid)) 1 := by
    rintro ⟨entity, dueAt, hentity, hscheduled, -⟩
    obtain rfl : 0 = entity := Option.some_inj.mp hentity
    cases hscheduled
  have hquiet := hwatched 1 (10, 10) ⟨rfl, rfl, hentry, List.not_mem_nil⟩ (by decide)
  cases hquiet

end Runs

end HazardWorld

end OpenMines
