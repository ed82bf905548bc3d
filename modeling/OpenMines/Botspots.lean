import OpenMines.BuildingIndex
import OpenMines.Lib.Run

namespace OpenMines

open Lib.Run

structure BotSpotData where
  botId : Int32
  ownerId : PlayerId
  clanId : Int32
  x : Int32
  y : Int32
  dir : Int32
  buildingEntity : EntityId

structure BotSpotView where
  botId : Int32
  x : Int32
  y : Int32
  dir : Int32
  clanId : Int32

/-- The buildings, and the botspots of the Spots among them. -/
structure SpotWorld where
  index : BuildingIndex
  botspots : EntityId → Option BotSpotData
  botspotIndex : PlayerId → Option EntityId
  chunkBotspots : ChunkPos → List EntityId
  botsRenderBotspots : ChunkPos → List BotSpotView

namespace SpotWorld

variable (s : SpotWorld)

def registerBotspotEntity (ownerId : PlayerId) (p : WorldPos) (clanId : Int32) (entity : EntityId) : SpotWorld :=
  { s with
    botspotIndex := Function.update s.botspotIndex ownerId (some entity)
    chunkBotspots := Function.update s.chunkBotspots (chunkPos p) (s.chunkBotspots (chunkPos p) ++ [entity])
    botsRenderBotspots := Function.update s.botsRenderBotspots (chunkPos p)
      (s.botsRenderBotspots (chunkPos p) ++ [⟨-ownerId, p.1, p.2, 0, clanId⟩]) }

def spawnBotspotRuntime (ownerId : PlayerId) (p : WorldPos) (clanId : Int32) (buildingEntity : EntityId) :
    SpotWorld :=
  let botspot := s.index.nextEntity
  { s with
    index := { s.index with nextEntity := botspot + 1 }
    botspots := Function.update s.botspots botspot (some ⟨-ownerId, ownerId, clanId, p.1, p.2, 0, buildingEntity⟩)
  }.registerBotspotEntity ownerId p clanId botspot

/-- A building that is placed or loaded; a Spot has the clan of its owner. -/
def insertBuildingRuntime (b : BuildingEntity) (ownerClanId : Int32) : SpotWorld :=
  let spawned := { s with index := s.index.spawnBuilding b }
  if b.view.packType = .spot then
    spawned.spawnBotspotRuntime b.view.ownerId b.view.origin ownerClanId s.index.nextEntity
  else spawned

def removeBotspotRuntime (ownerId : PlayerId) (p : WorldPos) : SpotWorld :=
  match s.botspotIndex ownerId with
  | none => s
  | some entity =>
      { s with
        botspots := Function.update s.botspots entity none
        botspotIndex := Function.update s.botspotIndex ownerId none
        chunkBotspots := Function.update s.chunkBotspots (chunkPos p)
          ((s.chunkBotspots (chunkPos p)).filter (· ≠ entity))
        botsRenderBotspots := Function.update s.botsRenderBotspots (chunkPos p)
          ((s.botsRenderBotspots (chunkPos p)).filter fun spot => spot.botId ≠ -ownerId) }

/-- Nothing where the building is not at its origin any more. -/
def removeBuildingRuntime (view : PackView) (entity : EntityId) : Option SpotWorld :=
  (s.index.removeBuilding view entity).map fun index =>
    let s := { s with index }
    if view.packType = .spot then s.removeBotspotRuntime view.ownerId view.origin else s

end SpotWorld

inductive SpotEvent
  | insert (b : BuildingEntity) (ownerClanId : Int32)
  | remove (entity : EntityId)

namespace SpotWorld

def step (s : SpotWorld) : SpotEvent → Option SpotWorld
  | .insert b ownerClanId => some (s.insertBuildingRuntime b ownerClanId)
  | .remove entity => (s.index.entities entity).bind fun b => s.removeBuildingRuntime b.view entity

def start : SpotWorld where
  index := ⟨fun _ => none, fun _ => none, fun _ => [], 0⟩
  botspots _ := none
  botspotIndex _ := none
  chunkBotspots _ := []
  botsRenderBotspots _ := []

/-- A Spot building that is alive. -/
def LiveSpot (s : SpotWorld) (entity : EntityId) (view : PackView) : Prop :=
  ∃ b, s.index.entities entity = some b ∧ b.view = view ∧ view.packType = .spot

/-- The index of the botspots has one of a building, under a player. -/
def IndexedFor (s : SpotWorld) (entity : EntityId) (entry : PlayerId × EntityId) : Prop :=
  s.botspotIndex entry.1 = some entry.2 ∧ ∃ data, s.botspots entry.2 = some data ∧ data.buildingEntity = entity

/-- Each Spot has one botspot in the index. -/
def Agrees (s : SpotWorld) : Prop :=
  ∀ entity view, s.LiveSpot entity view → ∃! entry, s.IndexedFor entity entry

/-- The botspot of a Spot goes with it, and no other. -/
def RemovesOwn (s : SpotWorld) : Prop :=
  ∀ entity view t, s.LiveSpot entity view → s.step (.remove entity) = some t →
    ∃ entry, s.IndexedFor entity entry ∧ t.botspotIndex = Function.update s.botspotIndex entry.1 none ∧
      t.botspots = Function.update s.botspots entry.2 none

/-- No Spot is inserted for a player who has one. -/
def OneSpot (s : SpotWorld) : SpotEvent → Prop
  | .insert b _ => b.view.packType = .spot → ∀ entity view, s.LiveSpot entity view → view.ownerId ≠ b.view.ownerId
  | .remove _ => True

/-- What is in the index is the botspot of a Spot of the player, in the chunk of the Spot. -/
structure Sound (s : SpotWorld) : Prop where
  fresh : ∀ entity, s.index.nextEntity ≤ entity → s.index.entities entity = none
  indexed : ∀ p bot, s.botspotIndex p = some bot → bot < s.index.nextEntity ∧ ∃ data view, s.botspots bot = some data ∧
    s.LiveSpot data.buildingEntity view ∧ data.ownerId = p ∧ view.ownerId = p ∧
      ∀ c, bot ∈ s.chunkBotspots c ↔ c = chunkPos view.origin
  lists : ∀ c bot, bot ∈ s.chunkBotspots c → bot < s.index.nextEntity
  nodup : ∀ c, (s.chunkBotspots c).Nodup

section Insert

variable {s : SpotWorld} {b : BuildingEntity} {ownerClanId : Int32} {entity : EntityId} {view : PackView}

theorem entities_insert : (s.insertBuildingRuntime b ownerClanId).index.entities =
    Function.update s.index.entities s.index.nextEntity (some b) := by
  rw [insertBuildingRuntime]
  split <;> rfl

theorem insert_of_ne (h : b.view.packType ≠ .spot) :
    s.insertBuildingRuntime b ownerClanId = { s with index := s.index.spawnBuilding b } := if_neg h

theorem insert_of_spot (h : b.view.packType = .spot) : s.insertBuildingRuntime b ownerClanId =
    { s with index := s.index.spawnBuilding b }.spawnBotspotRuntime b.view.ownerId b.view.origin ownerClanId
      s.index.nextEntity := if_pos h

theorem Sound.ne_next (h : s.Sound) (hlive : s.LiveSpot entity view) : entity ≠ s.index.nextEntity := by
  rintro rfl
  obtain ⟨b, hb, -⟩ := hlive
  cases hb.symm.trans (h.fresh _ (Nat.le_refl _))

theorem liveSpot_insert (h : s.Sound) : (s.insertBuildingRuntime b ownerClanId).LiveSpot entity view ↔
    s.LiveSpot entity view ∨ entity = s.index.nextEntity ∧ b.view = view ∧ view.packType = .spot := by
  rw [LiveSpot, entities_insert]
  by_cases hnew : entity = s.index.nextEntity
  · subst hnew
    rw [Function.update_self]
    constructor
    · rintro ⟨c, hc, hview⟩
      exact .inr ⟨rfl, Option.some.inj hc ▸ hview⟩
    · rintro (hlive | ⟨-, hview⟩)
      · exact absurd rfl (h.ne_next hlive)
      · exact ⟨b, rfl, hview⟩
  · rw [Function.update_of_ne hnew]
    exact ⟨.inl, fun hlive => hlive.resolve_right fun hnew' => hnew hnew'.1⟩

theorem Sound.insert_of_ne (h : s.Sound) (hspot : b.view.packType ≠ .spot) :
    (s.insertBuildingRuntime b ownerClanId).Sound := by
  have hlive {entity view} (hlive : s.LiveSpot entity view) :
      (s.insertBuildingRuntime b ownerClanId).LiveSpot entity view := (liveSpot_insert h).mpr (.inl hlive)
  rw [SpotWorld.insert_of_ne hspot] at hlive ⊢
  refine ⟨fun e he => ?_, fun p bot hbot => ?_, fun c bot hmem => Nat.lt_succ_of_lt (h.lists c bot hmem), h.nodup⟩
  · have he' : s.index.nextEntity + 1 ≤ e := he
    exact (Function.update_of_ne (Nat.ne_of_gt he') ..).trans (h.fresh e (Nat.le_of_succ_le he'))
  · obtain ⟨hlt, data, view, hdata, hspot, howner⟩ := h.indexed p bot hbot
    exact ⟨Nat.lt_succ_of_lt hlt, data, view, hdata, hlive hspot, howner⟩

theorem Sound.insert_of_spot (h : s.Sound) (hspot : b.view.packType = .spot) :
    (s.insertBuildingRuntime b ownerClanId).Sound := by
  have hlive {entity view} (hlive : s.LiveSpot entity view) :
      (s.insertBuildingRuntime b ownerClanId).LiveSpot entity view := (liveSpot_insert h).mpr (.inl hlive)
  have hnew : (s.insertBuildingRuntime b ownerClanId).LiveSpot s.index.nextEntity b.view :=
    (liveSpot_insert h).mpr (.inr ⟨rfl, rfl, hspot⟩)
  rw [SpotWorld.insert_of_spot hspot] at hlive hnew ⊢
  have hnext (c : ChunkPos) : s.index.nextEntity + 1 ∉ s.chunkBotspots c := fun hmem =>
    Nat.not_lt.mpr (Nat.le_succ _) (h.lists c _ hmem)
  refine ⟨fun e he => ?_, fun p bot hbot => ?_, fun c bot hmem => ?_, fun c => ?_⟩
  · have he' : s.index.nextEntity + 2 ≤ e := he
    exact (Function.update_of_ne (Nat.ne_of_gt (Nat.le_of_succ_le he')) ..).trans
      (h.fresh e (Nat.le_of_succ_le (Nat.le_of_succ_le he')))
  · change Function.update s.botspotIndex b.view.ownerId (some (s.index.nextEntity + 1)) p = some bot at hbot
    rw [Function.update_apply] at hbot
    split at hbot
    · rename_i hp
      obtain rfl := Option.some.inj hbot
      refine ⟨Nat.lt_succ_self _, _, b.view, Function.update_self .., hnew, hp.symm, hp.symm, fun c => ?_⟩
      change _ ∈ Function.update s.chunkBotspots (chunkPos b.view.origin) _ c ↔ _
      by_cases hc : c = chunkPos b.view.origin
      · subst hc
        rw [Function.update_self]
        exact iff_of_true (List.mem_append_right _ (List.mem_singleton.mpr rfl)) rfl
      · rw [Function.update_of_ne hc]
        exact iff_of_false (hnext c) hc
    · obtain ⟨hlt, data, view, hdata, hthere, howner, howner', hchunk⟩ := h.indexed p bot hbot
      have hne : bot ≠ s.index.nextEntity + 1 := Nat.ne_of_lt (Nat.lt_succ_of_lt hlt)
      refine ⟨Nat.lt_succ_of_lt (Nat.lt_succ_of_lt hlt), data, view, ?_, hlive hthere, howner, howner', fun c => ?_⟩
      · exact (Function.update_of_ne hne ..).trans hdata
      · refine Iff.trans ?_ (hchunk c)
        change _ ∈ Function.update s.chunkBotspots (chunkPos b.view.origin) _ c ↔ _
        by_cases hc : c = chunkPos b.view.origin
        · subst hc
          rw [Function.update_self, List.mem_append, List.mem_singleton]
          exact or_iff_left hne
        · rw [Function.update_of_ne hc]
  · change bot ∈ Function.update s.chunkBotspots (chunkPos b.view.origin) _ c at hmem
    change bot < s.index.nextEntity + 2
    by_cases hc : c = chunkPos b.view.origin
    · subst hc
      rw [Function.update_self, List.mem_append, List.mem_singleton] at hmem
      rcases hmem with hmem | rfl
      · exact Nat.lt_succ_of_lt (Nat.lt_succ_of_lt (h.lists _ bot hmem))
      · exact Nat.lt_succ_self _
    · rw [Function.update_of_ne hc] at hmem
      exact Nat.lt_succ_of_lt (Nat.lt_succ_of_lt (h.lists c bot hmem))
  · change (Function.update s.chunkBotspots (chunkPos b.view.origin) _ c).Nodup
    by_cases hc : c = chunkPos b.view.origin
    · subst hc
      rw [Function.update_self]
      exact (h.nodup _).append (List.nodup_singleton _) (List.disjoint_singleton.mpr (hnext _))
    · rw [Function.update_of_ne hc]
      exact h.nodup c

end Insert

section Remove

variable {s t : SpotWorld} {b : BuildingEntity} {entity bot : EntityId} {view : PackView} {owner : PlayerId}
  {p : WorldPos}

theorem index_removeBotspot (s : SpotWorld) (owner : PlayerId) (p : WorldPos) :
    (s.removeBotspotRuntime owner p).index = s.index := by
  rw [removeBotspotRuntime]
  split <;> rfl

theorem botspotIndex_removeBotspot (s : SpotWorld) (owner : PlayerId) (p : WorldPos) :
    (s.removeBotspotRuntime owner p).botspotIndex = Function.update s.botspotIndex owner none := by
  rw [removeBotspotRuntime]
  split
  · rename_i hnone
    rw [← hnone, Function.update_eq_self]
  · rfl

theorem removeBotspot_setIndex (s : SpotWorld) (owner : PlayerId) (p : WorldPos) (index : BuildingIndex) :
    { s with index : SpotWorld }.removeBotspotRuntime owner p = { s.removeBotspotRuntime owner p with index } := by
  simp only [removeBotspotRuntime]
  cases s.botspotIndex owner <;> rfl

/-- A building leaves the world after the botspot of its owner, when it is a Spot. -/
theorem remove_eq_some (h : s.step (.remove entity) = some t) : ∃ b index, s.index.entities entity = some b ∧
    t = { (if b.view.packType = .spot then s.removeBotspotRuntime b.view.ownerId b.view.origin else s) with index } ∧
      index.entities = Function.update s.index.entities entity none ∧
        index.nextEntity = s.index.nextEntity := by
  obtain ⟨b, hb, hremove⟩ := Option.bind_eq_some_iff.mp h
  obtain ⟨index, hindex, rfl⟩ := Option.map_eq_some_iff.mp hremove
  obtain ⟨-, heq⟩ := BuildingIndex.removeBuilding_eq_some hindex
  refine ⟨b, index, hb, ?_, by rw [heq], by rw [heq]⟩
  dsimp only
  split
  · exact removeBotspot_setIndex s _ _ index
  · rfl

theorem Sound.removeBotspot (h : s.Sound) (owner : PlayerId) (p : WorldPos) :
    (s.removeBotspotRuntime owner p).Sound := by
  rw [removeBotspotRuntime]
  split
  · exact h
  · rename_i entity hentity
    obtain ⟨-, data, -, hdata, -, howner, -⟩ := h.indexed owner entity hentity
    have hsub (c : ChunkPos) : (Function.update s.chunkBotspots (chunkPos p)
        ((s.chunkBotspots (chunkPos p)).filter (· ≠ entity)) c).Sublist (s.chunkBotspots c) := by
      by_cases hc : c = chunkPos p
      · subst hc
        rw [Function.update_self]
        exact List.filter_sublist
      · rw [Function.update_of_ne hc]
    refine ⟨h.fresh, fun q bot hbot => ?_, fun c bot hmem => ?_, fun c => (h.nodup c).sublist (hsub c)⟩
    · dsimp only at hbot
      rw [Function.update_apply] at hbot
      split at hbot
      · cases hbot
      · rename_i hq
        obtain ⟨hlt, data', view, hdata', hlive, howner', hview, hchunk⟩ := h.indexed q bot hbot
        have hne : bot ≠ entity := by
          rintro rfl
          obtain rfl := Option.some.inj (hdata.symm.trans hdata')
          exact hq (howner'.symm.trans howner)
        refine ⟨hlt, data', view, (Function.update_of_ne hne ..).trans hdata', hlive, howner', hview, fun c => ?_⟩
        refine Iff.trans ?_ (hchunk c)
        dsimp only
        by_cases hc : c = chunkPos p
        · subst hc
          rw [Function.update_self, List.mem_filter]
          exact and_iff_left (decide_eq_true hne)
        · rw [Function.update_of_ne hc]
    · exact h.lists c bot ((hsub c).subset hmem)

/-- Where no botspot in the index is that of the building. -/
theorem Sound.despawn {index : BuildingIndex} (h : s.Sound)
    (hnone : ∀ entry, ¬ s.IndexedFor entity entry)
    (hentities : index.entities = Function.update s.index.entities entity none)
    (hnext : index.nextEntity = s.index.nextEntity) : { s with index : SpotWorld }.Sound := by
  refine ⟨fun e he => ?_, fun p bot hbot => ?_, fun c bot hmem => hnext ▸ h.lists c bot hmem, h.nodup⟩
  · dsimp only at he ⊢
    rw [hentities, Function.update_apply]
    split
    · rfl
    · exact h.fresh e (hnext ▸ he)
  · obtain ⟨hlt, data, view, hdata, ⟨b, hb, hview⟩, howner⟩ := h.indexed p bot hbot
    have hne : data.buildingEntity ≠ entity := fun heq => hnone (p, bot) ⟨hbot, data, hdata, heq⟩
    refine ⟨hnext ▸ hlt, data, view, hdata, ⟨b, ?_, hview⟩, howner⟩
    dsimp only
    rw [hentities, Function.update_of_ne hne, hb]

/-- A botspot in the index has the owner of its Spot. -/
theorem Sound.owner_of_indexedFor (h : s.Sound) {entry : PlayerId × EntityId} (hentry : s.IndexedFor entity entry)
    (hb : s.index.entities entity = some b) : b.view.packType = .spot ∧ entry.1 = b.view.ownerId := by
  obtain ⟨hbot, data, hdata, rfl⟩ := hentry
  obtain ⟨-, data', view, hdata', ⟨b', hb', rfl, hspot⟩, -, hview, -⟩ := h.indexed _ _ hbot
  obtain rfl := Option.some.inj (hdata.symm.trans hdata')
  obtain rfl := Option.some.inj (hb.symm.trans hb')
  exact ⟨hspot, hview.symm⟩

theorem Sound.remove (h : s.Sound) (hstep : s.step (.remove entity) = some t) : t.Sound := by
  obtain ⟨b, index, hb, rfl, hentities, hnext⟩ := remove_eq_some hstep
  split
  · refine @Sound.despawn _ entity index (h.removeBotspot _ _) (fun entry hentry => ?_) ?_ ?_
    · have hb' : (s.removeBotspotRuntime b.view.ownerId b.view.origin).index.entities entity = some b := by
        rw [index_removeBotspot, hb]
      have howner := ((h.removeBotspot _ _).owner_of_indexedFor hentry hb').2
      have hgone := hentry.1
      rw [howner, botspotIndex_removeBotspot, Function.update_self] at hgone
      cases hgone
    · rw [index_removeBotspot, hentities]
    · rw [index_removeBotspot, hnext]
  · rename_i hspot
    refine h.despawn (fun entry hentry => hspot (h.owner_of_indexedFor hentry hb).1) hentities hnext

theorem sound_start : start.Sound where
  fresh _ _ := rfl
  indexed _ _ hbot := absurd hbot (Option.some_ne_none _).symm
  lists _ _ hmem := absurd hmem List.not_mem_nil
  nodup _ := List.nodup_nil

theorem Sound.step {e : SpotEvent} (h : s.Sound) (hstep : s.step e = some t) : t.Sound := by
  cases e with
  | insert b ownerClanId =>
      obtain rfl := Option.some.inj hstep
      by_cases hspot : b.view.packType = .spot
      · exact h.insert_of_spot hspot
      · exact h.insert_of_ne hspot
  | remove entity => exact h.remove hstep

end Remove

section Agreement

variable {s t : SpotWorld} {b : BuildingEntity} {ownerClanId : Int32} {entity : EntityId} {view : PackView}
  {entry entry' : PlayerId × EntityId}

theorem Sound.owner_of_liveSpot (h : s.Sound) (hlive : s.LiveSpot entity view) (hentry : s.IndexedFor entity entry) :
    entry.1 = view.ownerId := by
  obtain ⟨b, hb, rfl, -⟩ := hlive
  exact (h.owner_of_indexedFor hentry hb).2

theorem Sound.indexedFor_unique (h : s.Sound) (hlive : s.LiveSpot entity view) (hentry : s.IndexedFor entity entry)
    (hentry' : s.IndexedFor entity entry') : entry = entry' := by
  have howner := (h.owner_of_liveSpot hlive hentry).trans (h.owner_of_liveSpot hlive hentry').symm
  refine Prod.ext howner (Option.some.inj ?_)
  rw [← hentry.1, howner, hentry'.1]

/-- A player's entry in the index is that of one building. -/
theorem IndexedFor.entity_unique {other : EntityId} (h : s.IndexedFor entity entry) (h' : s.IndexedFor other entry')
    (howner : entry.1 = entry'.1) : entity = other := by
  obtain ⟨hbot, data, hdata, rfl⟩ := h
  obtain ⟨hbot', data', hdata', rfl⟩ := h'
  rw [howner, hbot'] at hbot
  rw [Option.some.inj hbot, hdata] at hdata'
  rw [Option.some.inj hdata']

theorem Sound.agrees_iff (h : s.Sound) :
    s.Agrees ↔ ∀ entity view, s.LiveSpot entity view → ∃ entry, s.IndexedFor entity entry := by
  constructor
  · exact fun hagrees entity view hlive => (hagrees entity view hlive).exists
  · intro hall entity view hlive
    obtain ⟨entry, hentry⟩ := hall entity view hlive
    exact ⟨entry, hentry, fun entry' hentry' => h.indexedFor_unique hlive hentry' hentry⟩

/-- What is put in the index under a player leaves the entries of the others as they are. -/
theorem Sound.indexedFor_insert (h : s.Sound) (hspot : b.view.packType = .spot) (hne : entry.1 ≠ b.view.ownerId)
    (hentry : s.IndexedFor entity entry) : (s.insertBuildingRuntime b ownerClanId).IndexedFor entity entry := by
  obtain ⟨hbot, data, hdata, hbuilding⟩ := hentry
  have hlt : entry.2 ≠ s.index.nextEntity + 1 := Nat.ne_of_lt (Nat.lt_succ_of_lt (h.indexed _ _ hbot).1)
  rw [SpotWorld.insert_of_spot hspot]
  refine ⟨(Function.update_of_ne hne ..).trans hbot, data, ?_, hbuilding⟩
  exact (Function.update_of_ne hlt ..).trans hdata

theorem indexedFor_inserted (hspot : b.view.packType = .spot) :
    (s.insertBuildingRuntime b ownerClanId).IndexedFor s.index.nextEntity (b.view.ownerId, s.index.nextEntity + 1) := by
  rw [SpotWorld.insert_of_spot hspot]
  exact ⟨Function.update_self .., _, Function.update_self .., rfl⟩

theorem agrees_insert (h : s.Sound) (hagrees : s.Agrees) :
    (s.insertBuildingRuntime b ownerClanId).Agrees ↔ s.OneSpot (.insert b ownerClanId) := by
  have ht : (s.insertBuildingRuntime b ownerClanId).Sound := @Sound.step s _ (.insert b ownerClanId) h rfl
  rw [ht.agrees_iff]
  constructor
  · intro hall hspot entity view hlive howner
    obtain ⟨entry, hentry⟩ := hall entity view ((liveSpot_insert h).mpr (.inl hlive))
    have hlive' := ht.owner_of_liveSpot ((liveSpot_insert h).mpr (.inl hlive)) hentry
    exact h.ne_next hlive (hentry.entity_unique (indexedFor_inserted hspot) (hlive'.trans howner))
  · intro hone entity view hlive
    rcases (liveSpot_insert h).mp hlive with hold | ⟨rfl, rfl, hspot⟩
    · obtain ⟨entry, hentry⟩ := (hagrees entity view hold).exists
      by_cases hspot : b.view.packType = .spot
      · refine ⟨entry, h.indexedFor_insert hspot ?_ hentry⟩
        rw [h.owner_of_liveSpot hold hentry]
        exact hone hspot entity view hold
      · rw [SpotWorld.insert_of_ne hspot]
        exact ⟨entry, hentry⟩
    · exact ⟨_, indexedFor_inserted hspot⟩

/-- The removal of a Spot that has its botspot in the index. -/
theorem Sound.removed (h : s.Sound) (hentry : s.IndexedFor entity entry)
    (hstep : s.step (.remove entity) = some t) :
    t.botspotIndex = Function.update s.botspotIndex entry.1 none ∧
      t.botspots = Function.update s.botspots entry.2 none := by
  obtain ⟨b, index, hb, rfl, -⟩ := remove_eq_some hstep
  obtain ⟨hspot, howner⟩ := h.owner_of_indexedFor hentry hb
  rw [if_pos hspot]
  refine ⟨howner ▸ botspotIndex_removeBotspot s _ _, ?_⟩
  have hbot := hentry.1
  rw [howner] at hbot
  simp only [removeBotspotRuntime, hbot]

theorem removesOwn_of_agrees (h : s.Sound) (hagrees : s.Agrees) : s.RemovesOwn := by
  intro entity view t hlive hstep
  obtain ⟨entry, hentry⟩ := (hagrees entity view hlive).exists
  exact ⟨entry, hentry, h.removed hentry hstep⟩

theorem agrees_remove (h : s.Sound) (hagrees : s.Agrees) (hstep : s.step (.remove entity) = some t) : t.Agrees := by
  rw [(h.remove hstep).agrees_iff]
  intro other view hlive
  obtain ⟨b, index, hb, ht, hentities, -⟩ := remove_eq_some hstep
  obtain ⟨c, hc, hview⟩ := hlive
  have hne : other ≠ entity := by
    rintro rfl
    rw [ht, hentities, Function.update_self] at hc
    cases hc
  have hold : s.LiveSpot other view := by
    refine ⟨c, ?_, hview⟩
    rwa [ht, hentities, Function.update_of_ne hne] at hc
  obtain ⟨entry, hentry⟩ := (hagrees other view hold).exists
  refine ⟨entry, ?_⟩
  by_cases hspot : b.view.packType = .spot
  · obtain ⟨gone, hgone⟩ := (hagrees entity b.view ⟨b, hb, rfl, hspot⟩).exists
    obtain ⟨hindex, hbotspots⟩ := h.removed hgone hstep
    have howner : entry.1 ≠ gone.1 := fun heq => hne (hentry.entity_unique hgone heq)
    obtain ⟨hbot, data, hdata, hbuilding⟩ := hentry
    have hbot' : entry.2 ≠ gone.2 := by
      intro heq
      obtain ⟨hbotGone, data', hdata', hbuilding'⟩ := hgone
      rw [heq, hdata'] at hdata
      rw [← hbuilding, ← hbuilding', Option.some.inj hdata] at hne
      exact hne rfl
    exact ⟨by rw [hindex, Function.update_of_ne howner, hbot], data,
      by rw [hbotspots, Function.update_of_ne hbot', hdata], hbuilding⟩
  · rw [ht, if_neg hspot]
    exact hentry

theorem agrees_step {e : SpotEvent} (h : s.Sound) (hagrees : s.Agrees) (hstep : s.step e = some t) :
    t.Agrees ↔ s.OneSpot e := by
  cases e with
  | insert b ownerClanId =>
      obtain rfl := Option.some.inj hstep
      exact agrees_insert h hagrees
  | remove entity => exact iff_of_true (agrees_remove h hagrees hstep) trivial

theorem agrees_start : start.Agrees := by
  rintro entity view ⟨b, ⟨⟩, -⟩

/-- Each Spot has one botspot in the index in every state of a run, and a Spot that is removed takes its own with it,
just when no Spot is inserted for a player who has one. -/
theorem agrees_iff_oneSpot {es : List SpotEvent} (h : run step start es = some s) :
    (∀ n u, run step start (es.take n) = some u → u.Agrees ∧ u.RemovesOwn) ↔ Meets step OneSpot start es := by
  have hstep : ∀ e (u v : SpotWorld), u.Sound ∧ u.Agrees → u.step e = some v → (v.Sound ∧ v.Agrees ↔ u.OneSpot e) :=
    fun e u v hu hv => (and_iff_right (hu.1.step hv)).trans (agrees_step hu.1 hu.2 hv)
  have hall := meets_iff_forall_take (P := fun u => u.Sound ∧ u.Agrees) ⟨sound_start, agrees_start⟩ hstep h
  rw [hall]
  refine forall_congr' fun n => forall_congr' fun u => imp_congr_right fun hu => ?_
  have hsound : u.Sound := run_preserves sound_start (fun _ _ _ _ hs hstep => hs.step hstep) hu
  exact ⟨fun ⟨hagrees, _⟩ => ⟨hsound, hagrees⟩, fun ⟨_, hagrees⟩ => ⟨hagrees, removesOwn_of_agrees hsound hagrees⟩⟩

end Agreement

/-- A Spot of player 7. -/
def sampleSpot (id x : Int32) : BuildingEntity where
  view := ⟨id, .spot, x, 0, 7, 0, 0, 0, 0, 0⟩
  storage := none
  flags := some false
  pending := none

/-- The only Spot of a player is placed and removed. -/
theorem agrees_sample :
    let es := [.insert (sampleSpot 1 0) 0, .remove 0]
    ∀ n u, run step start (es.take n) = some u → u.Agrees ∧ u.RemovesOwn := by
  have hrun : ∃ s, run step start [.insert (sampleSpot 1 0) 0, .remove 0] = some s := ⟨_, rfl⟩
  obtain ⟨s, hs⟩ := hrun
  refine (agrees_iff_oneSpot hs).mpr ⟨?_, fun t _ => ⟨trivial, fun _ _ => trivial⟩⟩
  rintro - entity view ⟨b, ⟨⟩, -⟩

/-- Two Spots of one player. -/
def twoSpots : SpotWorld :=
  (start.insertBuildingRuntime (sampleSpot 1 0) 0).insertBuildingRuntime (sampleSpot 2 64) 0

theorem not_indexedFor_first (entry : PlayerId × EntityId) : ¬ twoSpots.IndexedFor 0 entry := by
  rintro ⟨hbot, data, hdata, hbuilding⟩
  change Function.update (Function.update (fun _ => none) 7 (some 1)) 7 (some 3) entry.1 = some entry.2 at hbot
  rw [Function.update_idem, Function.update_apply] at hbot
  split at hbot
  · obtain heq : 3 = entry.2 := Option.some.inj hbot
    rw [← heq] at hdata
    cases hdata
    cases hbuilding
  · cases hbot

/-- The second Spot of a player takes the first one's place in the index, and the removal of the first one removes the
botspot of the second. -/
theorem disagrees_secondSpot :
    run step start [.insert (sampleSpot 1 0) 0, .insert (sampleSpot 2 64) 0] = some twoSpots ∧
      ¬ twoSpots.Agrees ∧ ¬ twoSpots.RemovesOwn ∧ twoSpots.IndexedFor 2 (7, 3) ∧
      ∃ t, twoSpots.step (.remove 0) = some t ∧ t.LiveSpot 2 (sampleSpot 2 64).view ∧ t.botspotIndex 7 = none := by
  refine ⟨rfl, fun hagrees => ?_, fun hremoves => ?_, ⟨rfl, _, rfl, rfl⟩, _, rfl, ⟨_, rfl, rfl, rfl⟩, rfl⟩
  · obtain ⟨entry, hentry⟩ := (hagrees 0 (sampleSpot 1 0).view ⟨_, rfl, rfl, rfl⟩).exists
    exact not_indexedFor_first entry hentry
  · obtain ⟨entry, hentry, -⟩ := hremoves 0 (sampleSpot 1 0).view _ ⟨_, rfl, rfl, rfl⟩ rfl
    exact not_indexedFor_first entry hentry

end SpotWorld

end OpenMines
