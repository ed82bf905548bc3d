import OpenMines.Teleport

namespace OpenMines

open Lib.Text

namespace TeleportWorld

/-- The button is in the menu that the player would get now at the teleport of its window. -/
def Offered (cells : BuildingCells) (s : TeleportWorld) (player : PlayerId) (coords : String) (dest : WorldPos) :
    Prop :=
  ∃ p src view, s.players player = some p ∧ Presence.windowPack p.body = some src ∧
    s.prepareView cells player src = some view ∧ 0 < view.charge ∧
    parsePair (splitOn coords ':') = some dest ∧ dest ∈ view.destinations

structure Moves (s t : TeleportWorld) (player : PlayerId) (dest : WorldPos) : Prop where
  moved : ∃ p q, s.players player = some p ∧ t.players player = some q ∧ q.pos = (dest.1, dest.2 + 3) ∧
    q.body = { p.body with currentWindow := none }
  hazard : (t.hazards player).isSome
  granular : (dest.1, dest.2 + 3) ∈ t.granularSeeds
  alive : (dest.1, dest.2 + 3) ∈ t.aliveSeeds

structure Stays (s t : TeleportWorld) (player : PlayerId) : Prop where
  kept : t.players player = s.players player
  hazards : t.hazards = s.hazards
  granular : t.granularSeeds = s.granularSeeds
  alive : t.aliveSeeds = s.aliveSeeds

/-- A button moves the player where the menu offers it, and does nothing where it does not. -/
def AgreesWithMenu (cells : BuildingCells) (s : TeleportWorld) (player : PlayerId) (coords : String) (now : Nat) :
    Prop :=
  (∀ dest, s.Offered cells player coords dest → s.Moves (s.apply player coords now) player dest) ∧
    ((¬ ∃ dest, s.Offered cells player coords dest) → s.Stays (s.apply player coords now) player)

/-- What the menu asks of the player and of the place of the destination. -/
structure Allowed (cells : BuildingCells) (source : PackView) (p : PresentPlayer) (dest : WorldPos) : Prop where
  opens : canOpen cells source p.pos (p.body.clanId.getD 0) = true
  away : dest ≠ source.origin
  near : inRange source dest = true

/-- A charged teleport stands there, wherever the index by origins leads. -/
def StandsAt (s : TeleportWorld) (dest : WorldPos) : Prop :=
  ∃ entity b, s.entities entity = some b ∧ b.view.origin = dest ∧ b.pending = none ∧ b.view.packType = .teleport ∧
    0 < b.view.charge

/-- The button names a teleport that the menu allows, and one that stands there is the one of the index. -/
def Clear (cells : BuildingCells) (s : TeleportWorld) (player : PlayerId) (coords : String) : Prop :=
  ∀ p dest src source, s.players player = some p → parsePair (splitOn coords ':') = some dest →
    Presence.windowPack p.body = some src → s.teleportAt src = some source →
      ((s.teleportAt dest).isSome → Allowed cells source p dest) ∧
        (Allowed cells source p dest → s.StandsAt dest → (s.teleportAt dest).isSome)

/-- What every run keeps: the indexes lead to what is there, and every building is in the world. -/
structure Inv (s : TeleportWorld) : Prop where
  sound : s.toBuildingIndex.Sound
  inside : ∀ entity b, s.entities entity = some b → s.validCoord b.view.origin = true

variable {cells : BuildingCells} {s t : TeleportWorld} {player : PlayerId} {p : PresentPlayer} {source : PackView}
  {dest src : WorldPos} {coords : String}

section Runs

theorem inv_noBuildings (s : TeleportWorld) : s.noBuildings.Inv where
  sound := by
    constructor
    case fresh => exact fun _ _ => rfl
    case byOrigin =>
      intro p entity h
      cases h
    case chunk =>
      intro c entity
      refine iff_of_false List.not_mem_nil ?_
      rintro ⟨b, h, -⟩
      cases h
    case nodup => exact fun _ => List.nodup_nil
  inside entity b h := by cases h

/-- The steps of the players leave the buildings and the size alone. -/
structure SameIndex (s t : TeleportWorld) : Prop where
  index : t.toBuildingIndex = s.toBuildingIndex
  chunksW : t.chunksW = s.chunksW
  chunksH : t.chunksH = s.chunksH

theorem Inv.of_sameIndex (hs : s.Inv) (h : SameIndex s t) : t.Inv := by
  refine ⟨h.index ▸ hs.sound, fun entity b hb => ?_⟩
  have hvalid := hs.inside entity b (h.index ▸ hb)
  rw [Presence.validCoord] at hvalid ⊢
  rwa [h.chunksW, h.chunksH]

theorem sameIndex_openMenu (s : TeleportWorld) (player : PlayerId) (p : WorldPos) :
    SameIndex s (s.openMenu cells player p) := by
  rw [openMenu]
  split
  · exact ⟨rfl, rfl, rfl⟩
  · exact ⟨rfl, rfl, rfl⟩

theorem sameIndex_apply (s : TeleportWorld) (player : PlayerId) (coords : String) (now : Nat) :
    SameIndex s (s.apply player coords now) := by
  rw [apply]
  split
  · exact ⟨rfl, rfl, rfl⟩
  · exact ⟨rfl, rfl, rfl⟩

theorem Inv.withIndex {index : BuildingIndex} (hs : s.Inv) (hsound : index.Sound)
    (hentities : ∀ entity b, index.entities entity = some b →
      s.validCoord b.view.origin = true ∨ ∃ old, s.entities entity = some old ∧ b.view.origin = old.view.origin) :
    (s.withIndex index).Inv := by
  refine ⟨hsound, fun entity b hb => ?_⟩
  rcases hentities entity b hb with hvalid | ⟨old, hold, horigin⟩
  · exact hvalid
  · have hvalid := hs.inside entity old hold
    rw [← horigin] at hvalid
    exact hvalid

theorem Inv.step (hs : s.Inv) (e : TeleportEvent) : (s.step cells e).Inv := by
  cases e with
  | openMenu player p => exact hs.of_sameIndex (sameIndex_openMenu s player p)
  | press player coords now => exact hs.of_sameIndex (sameIndex_apply s player coords now)
  | build b =>
      simp only [TeleportWorld.step]
      split
      · rename_i hvalid
        refine hs.withIndex hs.sound.spawnBuilding fun entity c hc => ?_
        by_cases hnew : entity = s.nextEntity
        · subst hnew
          have hb : some b = some c := by simpa [BuildingIndex.spawnBuilding, BuildingIndex.registerBuildingEntity,
            BuildingIndex.setEntity] using hc
          exact .inl (Option.some_inj.mp hb ▸ hvalid)
        · have hold : s.entities entity = some c := by simpa [BuildingIndex.spawnBuilding,
            BuildingIndex.registerBuildingEntity, BuildingIndex.setEntity, hnew] using hc
          exact .inr ⟨c, hold, rfl⟩
      · exact hs
  | change entity b =>
      simp only [TeleportWorld.step]
      split
      · rename_i hany
        obtain ⟨old, hold, hsame⟩ := (Option.any_eq_true _ _).mp hany
        have horigin : b.view.origin = old.view.origin := of_decide_eq_true hsame
        refine hs.withIndex (hs.sound.setEntity hold horigin) fun e c hc => ?_
        by_cases hsame : e = entity
        · subst hsame
          have hb : some b = some c := by simpa [BuildingIndex.setEntity] using hc
          exact .inr ⟨old, hold, Option.some_inj.mp hb ▸ horigin⟩
        · have hc' : s.entities e = some c := by simpa [BuildingIndex.setEntity, hsame] using hc
          exact .inr ⟨c, hc', rfl⟩
      · exact hs
  | remove entity =>
      simp only [TeleportWorld.step]
      cases hremoved : (s.entities entity).bind fun b => s.toBuildingIndex.removeBuilding b.view entity with
      | none => exact hs
      | some index =>
          obtain ⟨b, hb, hindex⟩ := Option.bind_eq_some_iff.mp hremoved
          refine hs.withIndex (hs.sound.removeBuilding hindex) fun e c hc => ?_
          obtain ⟨-, rfl⟩ := BuildingIndex.removeBuilding_eq_some hindex
          by_cases hsame : e = entity
          · subst hsame
            simp at hc
          · have hc' : s.entities e = some c := by simpa [hsame] using hc
            exact .inr ⟨c, hc', rfl⟩
  | others t => exact hs.of_sameIndex ⟨rfl, rfl, rfl⟩

theorem Inv.run (hs : s.Inv) (es : List TeleportEvent) : (s.run cells es).Inv := by
  induction es generalizing s with
  | nil => exact hs
  | cons e es ih => exact ih (hs.step e)

end Runs

section Menu

theorem getPackAt_eq_some {view : PackView} {q : WorldPos} : s.getPackAt q = some view ↔
    ∃ entity b, s.byOrigin q = some entity ∧ s.entities entity = some b ∧ b.pending = none ∧ b.view = view := by
  simp only [BuildingIndex.getPackAt, Option.bind_eq_some_iff, Prod.exists, BuildingIndex.buildingEntityAt_eq_some]
  constructor
  · rintro ⟨entity, b, ⟨hat, hb⟩, hview⟩
    obtain ⟨hpending, hview⟩ := Option.ite_none_left_eq_some.mp hview
    exact ⟨entity, b, hat, hb, by simpa using hpending, Option.some_inj.mp hview⟩
  · rintro ⟨entity, b, hat, hb, hpending, hview⟩
    exact ⟨entity, b, ⟨hat, hb⟩, by simp [hpending, hview]⟩

theorem teleportAt_eq_some {view : PackView} {q : WorldPos} : s.teleportAt q = some view ↔
    s.getPackAt q = some view ∧ view.packType = .teleport ∧ 0 < view.charge := by
  simp only [Presence.teleportAt, Option.filter_eq_some_iff, decide_eq_true_eq]

/-- A teleport of the index stands where the index says. -/
theorem Inv.standsAt (hs : s.Inv) {view : PackView} {q : WorldPos} (h : s.teleportAt q = some view) :
    view.origin = q ∧ s.validCoord q = true ∧ s.StandsAt q := by
  obtain ⟨hat, htype, hcharge⟩ := teleportAt_eq_some.mp h
  obtain ⟨entity, b, horigin, hb, hpending, rfl⟩ := getPackAt_eq_some.mp hat
  obtain ⟨b', hb', hplace⟩ := hs.sound.byOrigin q entity horigin
  obtain rfl := Option.some_inj.mp (hb.symm.trans hb')
  exact ⟨hplace, hplace ▸ hs.inside entity b hb, entity, b, hb, hplace, hpending, htype, hcharge⟩

theorem mem_chunkSpan {c source last : Nat} :
    c ∈ chunkSpan source last ↔ source ≤ c + 32 ∧ c ≤ source + 32 ∧ c ≤ last := by
  have hradius : rangeCells.toInt.toNat / 32 + 1 = 32 := by decide
  simp only [chunkSpan, hradius, List.mem_range'_1]
  omega

theorem toInt_abs_lt {a b : Int32} (ha : 0 ≤ a.toInt) (hb : 0 ≤ b.toInt) :
    (a - b).abs < rangeCells ↔ (a.toInt - b.toInt).natAbs < 1000 := by
  have hsub : (a - b).toInt = a.toInt - b.toInt := by
    have := a.toInt_lt
    have := b.toInt_lt
    rw [Int32.toInt_sub]
    exact Int.bmod_eq_of_le (by omega) (by omega)
  have hne : (a - b).toBitVec ≠ BitVec.intMin 32 := by
    intro hmin
    have hvalue : (a - b).toInt = (BitVec.intMin 32).toInt := congrArg BitVec.toInt hmin
    rw [hsub, show (BitVec.intMin 32).toInt = -2147483648 from by decide] at hvalue
    have := b.toInt_lt
    omega
  have habs : (a - b).abs.toInt = (a - b).toInt.natAbs := BitVec.toInt_abs_eq_natAbs_of_ne_intMin hne
  rw [Int32.lt_iff_toInt_lt, habs, hsub, show rangeCells.toInt = 1000 from by decide]
  omega

theorem bounds_of_valid {q : WorldPos} (h : s.validCoord q = true) :
    0 ≤ q.1.toInt ∧ 0 ≤ q.2.toInt ∧ q.1.toInt < s.chunksW * 32 ∧ q.2.toInt < s.chunksH * 32 := of_decide_eq_true h

/-- The scanned chunks have everything in range. -/
theorem mem_chunksInRange {source : PackView} (hsource : s.validCoord source.origin = true)
    (hdest : s.validCoord dest = true) (hnear : inRange source dest = true) :
    chunkPos dest ∈ s.chunksInRange (chunkPos source.origin) := by
  obtain ⟨hx, hy, hxw, hyh⟩ := bounds_of_valid hdest
  obtain ⟨hsx, hsy, -, -⟩ := bounds_of_valid hsource
  obtain ⟨hnx, hny⟩ := Bool.and_eq_true_iff.mp hnear
  have hnx := (toInt_abs_lt hx hsx).mp (of_decide_eq_true hnx)
  have hny := (toInt_abs_lt hy hsy).mp (of_decide_eq_true hny)
  have hsize : chunkSize.toNat = 32 := rfl
  simp only [chunksInRange, List.mem_flatMap, List.mem_map, mem_chunkSpan]
  refine ⟨(chunkPos dest).2, ?_, (chunkPos dest).1, ?_, rfl⟩
  · simp only [chunkPos, hsize]
    omega
  · simp only [chunkPos, hsize]
    omega

theorem mem_nearbyDestinations (hs : s.Inv) {source : PackView} (hsource : s.validCoord source.origin = true) :
    dest ∈ s.nearbyDestinations source ↔ s.StandsAt dest ∧ dest ≠ source.origin ∧ inRange source dest = true := by
  simp only [nearbyDestinations, List.mem_filterMap, List.mem_flatMap, Option.bind_eq_bind, Option.bind_eq_some_iff,
    Option.guard_eq_some', Option.some_inj]
  constructor
  · rintro ⟨entity, -, b, hb, -, ⟨hpending, htype, hcharge, haway, hnear⟩, rfl⟩
    exact ⟨⟨entity, b, hb, rfl, by simpa using hpending, htype, hcharge⟩, haway, hnear⟩
  · rintro ⟨⟨entity, b, hb, rfl, hpending, htype, hcharge⟩, haway, hnear⟩
    refine ⟨entity, ⟨chunkPos b.view.origin, ?_, (hs.sound.chunk _ entity).mpr ⟨b, hb, rfl⟩⟩, b, hb, (), ?_, rfl⟩
    · exact mem_chunksInRange hsource (hs.inside entity b hb) hnear
    · exact ⟨by simp [hpending], htype, hcharge, haway, hnear⟩

theorem prepareView_eq_some {view : TeleportGuiView} : s.prepareView cells player src = some view ↔
    ∃ source p, s.getPackAt src = some source ∧ source.packType = .teleport ∧ s.players player = some p ∧
      canOpen cells source p.pos (p.body.clanId.getD 0) = true ∧ view =
        { source := source.origin
          charge := source.charge
          hp := source.hp
          maxHp := source.maxHp
          destinations := (s.nearbyDestinations source).mergeSort posLe
          mapTiles := s.captureMap source.origin } := by
  simp only [prepareView, Option.bind_eq_bind, Option.bind_eq_some_iff, Option.guard_eq_some', Option.some_inj]
  constructor
  · rintro ⟨source, hat, -, htype, p, hp, -, hopen, hview⟩
    exact ⟨source, p, hat, htype, hp, hopen, hview.symm⟩
  · rintro ⟨source, p, hat, htype, hp, hopen, hview⟩
    exact ⟨source, hat, (), htype, p, hp, (), hopen, hview.symm⟩

theorem offered_iff (hs : s.Inv) : s.Offered cells player coords dest ↔
    ∃ p src source, s.players player = some p ∧ Presence.windowPack p.body = some src ∧
      s.teleportAt src = some source ∧ parsePair (splitOn coords ':') = some dest ∧ Allowed cells source p dest ∧
      s.StandsAt dest := by
  have hlisted {src : WorldPos} {source : PackView} (h : s.teleportAt src = some source) :
      dest ∈ (s.nearbyDestinations source).mergeSort posLe ↔
        s.StandsAt dest ∧ dest ≠ source.origin ∧ inRange source dest = true := by
    obtain ⟨rfl, hvalid, -⟩ := hs.standsAt h
    rw [List.mem_mergeSort, mem_nearbyDestinations hs hvalid]
  constructor
  · rintro ⟨p, src, view, hp, hwindow, hview, hcharge, hcoords, hmem⟩
    obtain ⟨source, p', hat, htype, hp', hopen, rfl⟩ := prepareView_eq_some.mp hview
    obtain rfl := Option.some_inj.mp (hp.symm.trans hp')
    have hsource := teleportAt_eq_some.mpr ⟨hat, htype, hcharge⟩
    obtain ⟨hstands, haway, hnear⟩ := (hlisted hsource).mp hmem
    exact ⟨p, src, source, hp, hwindow, hsource, hcoords, ⟨hopen, haway, hnear⟩, hstands⟩
  · rintro ⟨p, src, source, hp, hwindow, hsource, hcoords, hallowed, hstands⟩
    obtain ⟨hat, htype, hcharge⟩ := teleportAt_eq_some.mp hsource
    refine ⟨p, src, _, hp, hwindow, prepareView_eq_some.mpr ⟨source, p, hat, htype, hp, hallowed.opens, rfl⟩, hcharge,
      hcoords, (hlisted hsource).mpr ⟨hstands, hallowed.away, hallowed.near⟩⟩

end Menu

section Button

theorem teleportTarget_eq_some {target : WorldPos} : s.teleportTarget p coords = some target ↔
    ∃ dest src source, parsePair (splitOn coords ':') = some dest ∧ (s.teleportAt dest).isSome ∧
      Presence.windowPack p.body = some src ∧ s.teleportAt src = some source ∧ target = (dest.1, dest.2 + 3) := by
  simp only [Presence.teleportTarget, Option.bind_eq_bind, Option.bind_eq_some_iff, Option.some_inj,
    Option.isSome_iff_exists]
  constructor
  · rintro ⟨dest, hcoords, view, hview, src, hwindow, source, hsource, rfl⟩
    exact ⟨dest, src, source, hcoords, ⟨view, hview⟩, hwindow, hsource, rfl⟩
  · rintro ⟨dest, src, source, hcoords, ⟨view, hview⟩, hwindow, hsource, rfl⟩
    exact ⟨dest, hcoords, view, hview, src, hwindow, source, hsource, rfl⟩

theorem players_prepareChunkChanged {s : Presence} (hp : s.players player = some p) :
    ∃ q, (s.prepareChunkChanged player).players player = some q ∧ q.pos = p.pos ∧ q.body = p.body := by
  rw [Presence.prepareChunkChanged, hp]
  dsimp only
  split
  · exact ⟨p, hp, rfl, rfl⟩
  · refine ⟨{ p with lastChunk := some (chunkPos p.pos) }, ?_, rfl, rfl⟩
    cases p.lastChunk with
    | none =>
        dsimp only [Presence.registerPlayerChunk]
        split
        · exact Function.update_self ..
        · exact Function.update_self ..
    | some old =>
        dsimp only [Presence.registerPlayerChunk]
        split
        · exact Function.update_self ..
        · exact Function.update_self ..

theorem apply_stays (now : Nat) (h : ∀ p, s.players player = some p → s.teleportTarget p coords = none) :
    s.apply player coords now = s := by
  have hnone : (s.players player).bind (fun p => s.teleportTarget p coords) = none := Option.bind_eq_none_iff.mpr h
  rw [apply, hnone]

theorem apply_moves (now : Nat) (hp : s.players player = some p)
    (htarget : s.teleportTarget p coords = some (dest.1, dest.2 + 3)) :
    s.Moves (s.apply player coords now) player dest := by
  have hsome : (s.players player).bind (fun p => s.teleportTarget p coords) = some (dest.1, dest.2 + 3) :=
    Option.bind_eq_some_iff.mpr ⟨p, hp, htarget⟩
  rw [apply, hsome]
  constructor
  case moved =>
    have hplayers : ((((((s.setWindow player none).setPos player (dest.1, dest.2 + 3)).scheduleHazard player
        now).seedGranularRegion (dest.1, dest.2 + 3)).seedAliveRegion (dest.1, dest.2 + 3)).players player) =
          some { p with pos := (dest.1, dest.2 + 3), body := { p.body with currentWindow := none } } := by
      simp [seedAliveRegion, seedGranularRegion, scheduleHazard, setPos, setWindow, hp]
    obtain ⟨q, hq, hpos, hbody⟩ := players_prepareChunkChanged hplayers
    exact ⟨p, q, hp, hq, hpos, hbody⟩
  case hazard => simp [checkChunkChanged, seedAliveRegion, seedGranularRegion, scheduleHazard]
  case granular => simp [checkChunkChanged, seedAliveRegion, seedGranularRegion]
  case alive => simp [checkChunkChanged, seedAliveRegion]

/-- A move closes the window, so it shows. -/
theorem Moves.not_stays (h : s.Moves t player dest) (hp : s.players player = some p)
    (hwindow : Presence.windowPack p.body = some src) : ¬ s.Stays t player := by
  intro hstays
  obtain ⟨p', q, hp', hq, -, hbody⟩ := h.moved
  obtain rfl := Option.some_inj.mp (hp.symm.trans hp')
  obtain rfl := Option.some_inj.mp (hq.symm.trans (hstays.kept.trans hp))
  have hclosed : q.body.currentWindow = none := congrArg PlayerBody.currentWindow hbody
  simp [Presence.windowPack, hclosed] at hwindow

theorem agreesWithMenu_iff (hs : s.Inv) (now : Nat) :
    s.AgreesWithMenu cells player coords now ↔ s.Clear cells player coords := by
  constructor
  · rintro ⟨hmoves, hstays⟩ p dest src source hp hcoords hwindow hsource
    constructor
    · intro hdest
      have htarget := teleportTarget_eq_some.mpr ⟨dest, src, source, hcoords, hdest, hwindow, hsource, rfl⟩
      have hmoved := apply_moves now hp htarget
      obtain ⟨dest', hoffered⟩ := not_imp_comm.mp hstays (hmoved.not_stays hp hwindow)
      obtain ⟨p', src', source', hp', hwindow', hsource', hcoords', hallowed, -⟩ := (offered_iff hs).mp hoffered
      obtain rfl := Option.some_inj.mp (hp.symm.trans hp')
      obtain rfl := Option.some_inj.mp (hwindow.symm.trans hwindow')
      obtain rfl := Option.some_inj.mp (hsource.symm.trans hsource')
      obtain rfl := Option.some_inj.mp (hcoords.symm.trans hcoords')
      exact hallowed
    · intro hallowed hstands
      have hmoved := hmoves dest ((offered_iff hs).mpr ⟨p, src, source, hp, hwindow, hsource, hcoords, hallowed, hstands⟩)
      by_contra hdest
      have hnone (p' : PresentPlayer) (hp' : s.players player = some p') : s.teleportTarget p' coords = none := by
        cases htarget : s.teleportTarget p' coords with
        | none => rfl
        | some target =>
            obtain ⟨dest', -, -, hcoords', hdest', -⟩ := teleportTarget_eq_some.mp htarget
            obtain rfl := Option.some_inj.mp (hcoords.symm.trans hcoords')
            exact absurd hdest' hdest
      rw [apply_stays now hnone] at hmoved
      exact hmoved.not_stays hp hwindow ⟨rfl, rfl, rfl, rfl⟩
  · intro hclear
    constructor
    · intro dest hoffered
      obtain ⟨p, src, source, hp, hwindow, hsource, hcoords, hallowed, hstands⟩ := (offered_iff hs).mp hoffered
      have hdest := (hclear p dest src source hp hcoords hwindow hsource).2 hallowed hstands
      exact apply_moves now hp (teleportTarget_eq_some.mpr ⟨dest, src, source, hcoords, hdest, hwindow, hsource, rfl⟩)
    · intro hnot
      have hnone (p : PresentPlayer) (hp : s.players player = some p) : s.teleportTarget p coords = none := by
        cases htarget : s.teleportTarget p coords with
        | none => rfl
        | some target =>
            obtain ⟨dest, src, source, hcoords, hdest, hwindow, hsource, -⟩ := teleportTarget_eq_some.mp htarget
            have hallowed := (hclear p dest src source hp hcoords hwindow hsource).1 hdest
            obtain ⟨view, hview⟩ := Option.isSome_iff_exists.mp hdest
            exact absurd ⟨dest, (offered_iff hs).mpr ⟨p, src, source, hp, hwindow, hsource, hcoords, hallowed,
              (hs.standsAt hview).2.2⟩⟩ hnot
      rw [apply_stays now hnone]
      exact ⟨rfl, rfl, rfl, rfl⟩

end Button

/-- After every run from a world without buildings, a button agrees with the menu just where it is clear. -/
theorem teleportAgrees_iff (cells : BuildingCells) (t : TeleportWorld) (es : List TeleportEvent) (player : PlayerId)
    (coords : String) (now : Nat) :
    (t.noBuildings.run cells es).AgreesWithMenu cells player coords now ↔
      (t.noBuildings.run cells es).Clear cells player coords :=
  agreesWithMenu_iff ((inv_noBuildings t).run es) now

def loneTraveller (pos : WorldPos) (currentWindow : Option String) : TeleportWorld where
  entities := fun _ => none
  byOrigin := fun _ => none
  chunkBuildings := fun _ => []
  nextEntity := 0
  chunksW := 4
  chunksH := 4
  sized := ⟨Nat.succ_pos 3, Nat.succ_pos 3⟩
  isEmpty := fun _ => true
  cost := fun _ => 0
  players := fun player =>
    if player = 1 then some ⟨pos, none, ⟨none, none, 0, none, currentWindow, false, false, true⟩⟩ else none
  active := fun _ => none
  chunkPlayers := fun _ => []
  refreshes := []
  saved := fun _ => []
  fits := by decide
  hazards := fun _ => none
  granularSeeds := []
  aliveSeeds := []

def station (id : Int32) (p : WorldPos) : BuildingEntity :=
  ⟨⟨id, .teleport, p.1, p.2, 7, 0, 100, 1000, 1000, 1000⟩, some ⟨0, fun _ => 0⟩, some false, none⟩

/-- A player that opens the menu and is then moved away keeps the window, and the button takes it from there. -/
def carriedAway : List TeleportEvent :=
  [.build (station 1 (10, 10)), .build (station 2 (40, 10)), .openMenu 1 (10, 10),
    .others (loneTraveller (100, 100) (some "pack:10:10"))]

theorem leavesFromAfar : ¬ (((loneTraveller (10, 10) none).noBuildings.run buildingsConfig.cells
    carriedAway).AgreesWithMenu buildingsConfig.cells 1 "40:10" 0) := by
  intro hagrees
  have hclear := (agreesWithMenu_iff ((inv_noBuildings _).run carriedAway) 0).mp hagrees
  have hallowed := (hclear _ (40, 10) (10, 10) (station 1 (10, 10)).view rfl (by decide) (by decide)
    (by decide)).1 (by decide)
  exact absurd hallowed.opens (by decide)

end TeleportWorld

end OpenMines
