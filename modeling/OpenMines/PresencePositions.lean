import Mathlib.Data.List.Infix
import OpenMines.PlayerPresence

namespace OpenMines

namespace Presence

variable {cells : BuildingCells} {s t : Presence} {player : PlayerId} {pos : WorldPos}

def position (s : Presence) (player : PlayerId) : Option WorldPos := (s.players player).map PresentPlayer.pos

theorem position_of {p : PresentPlayer} (hp : s.players player = some p) : s.position player = some p.pos := by
  rw [position, hp]
  rfl

/-- Nobody is outside the world, and no saved row says so of anybody. -/
structure Valid (s : Presence) : Prop where
  live : ∀ {player pos}, s.position player = some pos → s.validCoord pos = true
  saved : ∀ {player pos}, pos ∈ s.saved player → s.validCoord pos = true

/-- The world is as large as before, and the same rows are saved. -/
structure SameWorld (s t : Presence) : Prop where
  chunksW : t.chunksW = s.chunksW
  chunksH : t.chunksH = s.chunksH
  saved : t.saved = s.saved

theorem SameWorld.refl (s : Presence) : SameWorld s s := ⟨rfl, rfl, rfl⟩

theorem SameWorld.trans {u : Presence} (h : SameWorld s t) (h' : SameWorld t u) : SameWorld s u :=
  ⟨h'.chunksW.trans h.chunksW, h'.chunksH.trans h.chunksH, h'.saved.trans h.saved⟩

theorem SameWorld.validCoord (h : SameWorld s t) (pos : WorldPos) : t.validCoord pos = s.validCoord pos := by
  rw [Presence.validCoord, Presence.validCoord, h.chunksW, h.chunksH]

/-- Nobody is moved. -/
structure Stays (s t : Presence) : Prop extends SameWorld s t where
  position : ∀ other, t.position other = s.position other

/-- One player is put somewhere. -/
structure Puts (s t : Presence) (player : PlayerId) (pos : WorldPos) : Prop extends SameWorld s t where
  position : ∀ other, t.position other = if other = player then some pos else s.position other

theorem Stays.refl (s : Presence) : Stays s s := ⟨SameWorld.refl s, fun _ => rfl⟩

theorem Stays.trans {u : Presence} (h : Stays s t) (h' : Stays t u) : Stays s u :=
  ⟨h.toSameWorld.trans h'.toSameWorld, fun other => (h'.position other).trans (h.position other)⟩

theorem Puts.stays {u : Presence} (h : Puts s t player pos) (h' : Stays t u) : Puts s u player pos :=
  ⟨h.toSameWorld.trans h'.toSameWorld, fun other => (h'.position other).trans (h.position other)⟩

theorem Stays.puts {u : Presence} (h : Stays s t) (h' : Puts t u player pos) : Puts s u player pos where
  toSameWorld := h.toSameWorld.trans h'.toSameWorld
  position other := by rw [h'.position, h.position]

theorem Stays.valid (h : Stays s t) (hs : s.Valid) : t.Valid where
  live hpos := by
    rw [h.validCoord]
    exact hs.live ((h.position _).symm.trans hpos)
  saved hpos := by
    rw [h.validCoord]
    exact hs.saved (h.saved ▸ hpos)

/-- The one position that changes decides. -/
theorem Puts.valid_iff (h : Puts s t player pos) (hs : s.Valid) : t.Valid ↔ s.validCoord pos = true := by
  constructor
  · intro ht
    rw [← h.validCoord]
    exact ht.live ((h.position player).trans (if_pos rfl))
  · intro hpos
    refine ⟨fun {other p} hp => ?_, fun hp => ?_⟩
    · rw [h.validCoord]
      rw [h.position] at hp
      split at hp
      · obtain rfl := Option.some_inj.mp hp
        exact hpos
      · exact hs.live hp
    · rw [h.validCoord]
      exact hs.saved (h.saved ▸ hp)

theorem puts_setPlayer (s : Presence) (player : PlayerId) (p : PresentPlayer) :
    Puts s (s.setPlayer player (some p)) player p.pos where
  toSameWorld := ⟨rfl, rfl, rfl⟩
  position other := by
    rw [setPlayer, position, position]
    by_cases h : other = player <;> simp [h]

theorem stays_setPlayer {p q : PresentPlayer} (hp : s.players player = some p) (hq : q.pos = p.pos) :
    Stays s (s.setPlayer player (some q)) where
  toSameWorld := ⟨rfl, rfl, rfl⟩
  position other := by
    rw [(puts_setPlayer s player q).position]
    split
    · rename_i hother
      rw [hother, position, hp, hq]
      rfl
    · rfl

theorem stays_setActive (s : Presence) (player : PlayerId) (session : Option SessionId) :
    Stays s (s.setActive player session) := ⟨⟨rfl, rfl, rfl⟩, fun _ => rfl⟩

theorem stays_registerPlayerChunk (s : Presence) (player : PlayerId) (c : ChunkPos) :
    Stays s (s.registerPlayerChunk player c) := by
  rw [registerPlayerChunk]
  split
  · exact Stays.refl s
  · exact ⟨⟨rfl, rfl, rfl⟩, fun _ => rfl⟩

theorem stays_unregisterPlayerFromChunk (s : Presence) (player : PlayerId) (c : ChunkPos) :
    Stays s (s.unregisterPlayerFromChunk player c) := ⟨⟨rfl, rfl, rfl⟩, fun _ => rfl⟩

theorem stays_prepareChunkChanged (s : Presence) (player : PlayerId) : Stays s (s.prepareChunkChanged player) := by
  rw [prepareChunkChanged]
  cases hp : s.players player with
  | none => exact Stays.refl s
  | some p =>
      dsimp only
      split
      · exact Stays.refl s
      · have hset : Stays s (s.setPlayer player (some { p with lastChunk := some (chunkPos p.pos) })) :=
          stays_setPlayer hp rfl
        cases p.lastChunk with
        | none => exact hset.trans (stays_registerPlayerChunk _ player _)
        | some old =>
            exact hset.trans
              ((stays_unregisterPlayerFromChunk _ player old).trans (stays_registerPlayerChunk _ player _))

theorem validCoord_spawnPos (s : Presence) : s.validCoord spawnPos = true := by
  have hten : (10 : Int32).toInt = 10 := rfl
  obtain ⟨hw, hh⟩ := s.sized
  rw [validCoord, spawnPos, decide_eq_true_eq, hten]
  omega

theorem Valid.enteringPlayer (hs : s.Valid) (player : PlayerId) (choice : Nat) (body : PlayerBody) :
    s.validCoord (s.enteringPlayer player choice body).pos = true := by
  rw [Presence.enteringPlayer]
  cases hp : s.players player with
  | some p =>
      have hpos := position_of hp
      exact hs.live hpos
  | none =>
      cases hchoice : (s.saved player)[choice]? with
      | none => exact validCoord_spawnPos s
      | some pos => exact hs.saved (List.mem_of_getElem? hchoice)

theorem Valid.connect (hs : s.Valid) (player : PlayerId) (session : SessionId) (isOpen : Bool) (choice : Nat)
    (body : PlayerBody) : (s.connectEntityInTick player session isOpen choice body).Valid := by
  rw [connectEntityInTick]
  split
  · have hputs := (stays_setActive s player none).puts
      ((puts_setPlayer _ player (s.enteringPlayer player choice body)).stays
        ((stays_setActive _ player (some session)).trans
          (stays_registerPlayerChunk _ player (chunkPos (s.enteringPlayer player choice body).pos))))
    exact (hputs.valid_iff hs).mpr (hs.enteringPlayer player choice body)
  · exact hs

theorem Valid.saveRow (hs : s.Valid) (player : PlayerId) : (s.saveRow player).Valid := by
  rw [Presence.saveRow]
  cases hp : s.players player with
  | none => exact hs
  | some p =>
      refine ⟨hs.live, fun {other pos} hpos => ?_⟩
      dsimp only at hpos
      by_cases hother : other = player
      · rw [hother] at hpos
        simp only [Function.update_self, List.mem_cons] at hpos
        rcases hpos with rfl | hpos
        · exact hs.live (position_of hp)
        · exact hs.saved hpos
      · rw [Function.update_of_ne hother] at hpos
        exact hs.saved hpos

theorem Valid.removePlayer (hs : s.Valid) (player : PlayerId) : (s.setPlayer player none).Valid := by
  refine ⟨fun {other pos} hpos => ?_, hs.saved⟩
  by_cases hother : other = player
  · simp [position, setPlayer, hother] at hpos
  · simp only [position, setPlayer, Function.update_of_ne hother] at hpos
    exact hs.live hpos

theorem Valid.disconnect (hs : s.Valid) (player : PlayerId) (session : SessionId) :
    (s.disconnectInTick player session).Valid := by
  rw [disconnectInTick]
  split
  · have hsaved := ((stays_setActive s player none).valid hs).saveRow player
    dsimp only
    split
    · exact (stays_unregisterPlayerFromChunk _ player _).valid hsaved
    · split
      · exact (stays_unregisterPlayerFromChunk _ player _).valid hsaved
      · exact ((stays_unregisterPlayerFromChunk _ player _).valid hsaved).removePlayer player
  · exact hs

theorem Valid.applyMove (hs : s.Valid) (player : PlayerId) (request : MoveRequest) :
    (s.applyMove cells player request).Valid := by
  rw [Presence.applyMove]
  cases hp : s.players player with
  | none => exact hs
  | some p =>
      dsimp only
      split
      · rename_i hallowed
        have htarget : s.validCoord request.target = true := by
          simp only [moveAllowed, Bool.and_eq_true] at hallowed
          exact hallowed.1.1.2
        have hput := puts_setPlayer s player { p with pos := request.target }
        split
        · exact (hput.valid_iff hs).mpr htarget
        · exact ((hput.stays (stays_prepareChunkChanged _ player)).valid_iff hs).mpr htarget
      · exact hs

theorem Valid.handleMove (hs : s.Valid) (player : PlayerId) (session : Option SessionId) (request : MoveRequest) :
    (s.handleMove cells player session request).Valid := by
  unfold Presence.handleMove
  cases session with
  | some session =>
      dsimp only
      split
      · exact hs.applyMove player request
      · exact hs
  | none =>
      dsimp only
      split
      · exact hs.applyMove player request
      · exact hs

theorem Valid.adminTeleport (hs : s.Valid) (player : PlayerId) (session : SessionId) (isAdmin : Bool)
    (target : WorldPos) : (s.adminTeleport player session isAdmin target).Valid := by
  rw [Presence.adminTeleport]
  split
  · rename_i hallowed
    simp only [Bool.and_eq_true] at hallowed
    cases s.players player with
    | none => exact hs
    | some p =>
        have hput : Puts s (s.setPlayer player (some ⟨target, none, { p.body with currentWindow := none }⟩)) player
            target := puts_setPlayer s player _
        have hvalid := (hput.valid_iff hs).mpr hallowed.2
        exact ⟨hvalid.live, hvalid.saved⟩
  · exact hs

theorem Valid.deliverRefresh (hs : s.Valid) (sameSession : Bool) : (s.deliverRefresh sameSession).Valid := by
  rw [Presence.deliverRefresh]
  cases s.refreshes with
  | nil => exact hs
  | cons player rest =>
      have hrest : ({ s with refreshes := rest } : Presence).Valid := ⟨hs.live, hs.saved⟩
      dsimp only
      split
      · exact (stays_prepareChunkChanged _ player).valid hrest
      · exact hrest

theorem Valid.change (hs : s.Valid) (index : BuildingIndex) (cost : EntityId → Int32) (isEmpty : WorldPos → Bool)
    (bodies : PlayerId → PlayerBody) : (s.change index cost isEmpty bodies).Valid := by
  refine ⟨fun {player pos} hpos => ?_, hs.saved⟩
  rw [position, Presence.change, Option.map_map] at hpos
  exact hs.live hpos

/-- The player comes back at a place, without a chunk, and the indexes are as before. -/
structure Respawned (s t : Presence) (player : PlayerId) (pos : WorldPos) : Prop extends SameWorld s t where
  self : ∃ q, t.players player = some q ∧ q.pos = pos ∧ q.lastChunk = none
  others : ∀ other, other ≠ player → t.players other = s.players other
  active : t.active = s.active
  chunkPlayers : t.chunkPlayers = s.chunkPlayers

theorem Respawned.puts (h : Respawned s t player pos) : Puts s t player pos where
  toSameWorld := h.toSameWorld
  position other := by
    split
    · rename_i hother
      obtain ⟨q, hq, hpos, -⟩ := h.self
      rw [hother, position_of hq, hpos]
    · rename_i hother
      rw [position, position, h.others other hother]

theorem respawned_respawnAt {p : PresentPlayer} (hp : s.players player = some p) (pos : WorldPos)
    (isFreeResp : Bool) : Respawned s (s.respawnAt player pos isFreeResp) player pos := by
  rw [respawnAt, hp]
  exact
    { chunksW := rfl
      chunksH := rfl
      saved := rfl
      self := ⟨_, Function.update_self .., rfl, rfl⟩
      others := fun other hother => Function.update_of_ne hother ..
      active := rfl
      chunkPlayers := rfl }

theorem Respawned.payResp {p : PresentPlayer} {e : EntityId × BuildingEntity} {storage : BuildingStorage}
    (h : Respawned (s.payResp player p e storage) t player pos) : Respawned s t player pos where
  chunksW := h.chunksW
  chunksH := h.chunksH
  saved := h.saved
  self := h.self
  others other hother := (h.others other hother).trans (Function.update_of_ne hother ..)
  active := h.active
  chunkPlayers := h.chunkPlayers

theorem players_payResp (s : Presence) (player : PlayerId) (p : PresentPlayer) (e : EntityId × BuildingEntity)
    (storage : BuildingStorage) : ∃ q, (s.payResp player p e storage).players player = some q := ⟨_, Function.update_self ..⟩

/-- Where a death takes the player; nothing when it is aborted. -/
def respawnPos (s : Presence) (p : PresentPlayer) (draw : RespawnDraw) : Option WorldPos :=
  match s.boundResp p.body with
  | none => some (s.findRandomPublicResp draw)
  | some e =>
    if s.respawnHere p.body e then
      if 0 < e.2.view.ownerId ∧ (e.2.storage.isNone ∨ e.2.flags.isNone) then none
      else some (s.besideResp draw e.2.view.origin)
    else some (s.findRandomPublicResp draw)

theorem applyPlayerDeathCore_spec {p : PresentPlayer} (hp : s.players player = some p) (draw : RespawnDraw) :
    s.respawnPos p draw = none ∧ s.applyPlayerDeathCore player draw = none ∨
      ∃ pos t, s.respawnPos p draw = some pos ∧ s.applyPlayerDeathCore player draw = some t ∧
        Respawned s t player pos := by
  rw [respawnPos, applyPlayerDeathCore, hp, Option.bind_eq_bind, Option.bind_some]
  cases s.boundResp p.body with
  | none => exact .inr ⟨_, _, rfl, rfl, respawned_respawnAt hp _ _⟩
  | some e =>
      dsimp only
      by_cases hhere : s.respawnHere p.body e = true
      · rw [if_pos hhere, if_pos hhere]
        by_cases howner : 0 < e.2.view.ownerId
        · rw [if_pos howner]
          cases hstorage : e.2.storage with
          | none => exact .inl ⟨if_pos ⟨howner, .inl rfl⟩, rfl⟩
          | some storage =>
              cases hflags : e.2.flags with
              | none => exact .inl ⟨if_pos ⟨howner, .inr rfl⟩, rfl⟩
              | some flags =>
                  obtain ⟨q, hq⟩ := players_payResp s player p e storage
                  exact .inr ⟨_, _, if_neg (by simp), rfl, (respawned_respawnAt hq _ _).payResp⟩
        · rw [if_neg howner]
          exact .inr ⟨_, _, if_neg fun h => howner h.1, rfl, respawned_respawnAt hp _ _⟩
      · rw [if_neg hhere, if_neg hhere]
        exact .inr ⟨_, _, rfl, rfl, respawned_respawnAt hp _ _⟩

theorem Valid.applyDeath_iff (hs : s.Valid) {p : PresentPlayer} (hp : s.players player = some p)
    (draw : RespawnDraw) :
    (s.applyDeath player draw).Valid ↔ ∀ pos, s.respawnPos p draw = some pos → s.validCoord pos = true := by
  rw [applyDeath]
  rcases applyPlayerDeathCore_spec hp draw with ⟨hpos, hcore⟩ | ⟨pos, t, hpos, hcore, hrespawned⟩
  · rw [hpos, hcore]
    exact iff_of_true hs (fun pos h => by cases h)
  · rw [hpos, hcore]
    simp only [Option.some.injEq, forall_eq']
    exact (hrespawned.puts.stays (stays_prepareChunkChanged t player)).valid_iff hs

/-- The strip of cells beside every public Resp is in the world. -/
def PublicInside (s : Presence) : Prop :=
  ∀ origin ∈ s.publicResps, ∀ draw : RespawnDraw, s.validCoord (draw.near origin) = true

/-- The Resp that takes the player in has the cell two to the right of its origin in the world, and
the public ones, when one of them is drawn, have all their strips there. -/
def RespawnInside (s : Presence) (p : PresentPlayer) : Prop :=
  match s.boundResp p.body with
  | none => s.PublicInside
  | some e =>
    if s.respawnHere p.body e then
      0 < e.2.view.ownerId ∧ (e.2.storage.isNone ∨ e.2.flags.isNone) ∨
        s.validCoord (e.2.view.origin.1 + 2, e.2.view.origin.2) = true
    else s.PublicInside

/-- The cell three rows under the charged teleport that the button names is in the world. -/
def ExitInside (s : Presence) (p : PresentPlayer) (coords : String) : Prop :=
  ∀ exit, s.teleportTarget p coords = some exit → s.validCoord exit = true

/-- The condition on an event in the state before it. -/
def Inside (s : Presence) : PresenceEvent → Prop
  | .teleport player session coords =>
      s.active player = some session → ∀ p, s.players player = some p → s.ExitInside p coords
  | .death player => ∀ p, s.players player = some p → s.RespawnInside p
  | _ => True

theorem publicInside_iff (s : Presence) :
    (∀ draw, s.validCoord (s.findRandomPublicResp draw) = true) ↔ s.PublicInside := by
  constructor
  · intro h origin horigin draw
    obtain ⟨i, hi, horigin⟩ := List.mem_iff_getElem.mp horigin
    have hdraw := h ⟨i, draw.ox, draw.oy⟩
    rw [findRandomPublicResp] at hdraw
    simp only [Nat.mod_eq_of_lt hi, List.getElem?_eq_getElem hi, horigin] at hdraw
    exact hdraw
  · intro h draw
    rw [findRandomPublicResp]
    split
    · exact validCoord_spawnPos s
    · rename_i origin horigin
      exact h origin (List.mem_of_getElem? horigin) draw

theorem besideInside_iff (s : Presence) (origin : WorldPos) :
    (∀ draw, s.validCoord (s.besideResp draw origin) = true) ↔ s.validCoord (origin.1 + 2, origin.2) = true := by
  constructor
  · intro h
    have hdraw := h ⟨0, 0, 1⟩
    have hnear : RespawnDraw.near ⟨0, 0, 1⟩ origin = (origin.1 + 2, origin.2) :=
      Prod.ext rfl (Int32.add_zero origin.2)
    rw [besideResp, hnear] at hdraw
    split at hdraw <;> exact hdraw
  · intro h draw
    rw [besideResp]
    split
    · rename_i hfree
      exact (Bool.and_eq_true_iff.mp hfree).1
    · exact h

theorem respawnInside_iff (s : Presence) (p : PresentPlayer) :
    (∀ draw pos, s.respawnPos p draw = some pos → s.validCoord pos = true) ↔ s.RespawnInside p := by
  simp only [respawnPos, RespawnInside]
  cases s.boundResp p.body with
  | none =>
      rw [← publicInside_iff]
      simp
  | some e =>
      dsimp only
      split
      · rw [← besideInside_iff]
        by_cases hmissing : 0 < e.2.view.ownerId ∧ (e.2.storage.isNone ∨ e.2.flags.isNone)
        · simp only [if_pos hmissing]
          exact iff_of_true (fun _ _ h => by cases h) (.inl hmissing)
        · simp only [if_neg hmissing, Option.some.injEq, forall_eq']
          rw [or_iff_right hmissing]
      · rw [← publicInside_iff]
        simp

/-- Whatever the server draws, an event leaves every player in the world just when its condition is met. -/
theorem Valid.step_iff (hs : s.Valid) (e : PresenceEvent) : (∀ draw, (s.step cells (e, draw)).Valid) ↔ s.Inside e := by
  cases e with
  | connect player session isOpen choice body =>
      exact iff_of_true (fun _ => hs.connect player session isOpen choice body) trivial
  | disconnect player session => exact iff_of_true (fun _ => hs.disconnect player session) trivial
  | save player => exact iff_of_true (fun _ => hs.saveRow player) trivial
  | move player session request => exact iff_of_true (fun _ => hs.handleMove player session request) trivial
  | teleport player session coords =>
      have hteleport : (s.applyTeleport player session coords).Valid ↔
          s.Inside (.teleport player session coords) := by
        rw [applyTeleport, Inside]
        split
        · rename_i hactive
          rw [imp_iff_right hactive]
          cases hp : s.players player with
          | none => exact iff_of_true hs (fun p h => by cases h)
          | some p =>
              simp only [Option.some.injEq, forall_eq', ExitInside]
              cases htarget : s.teleportTarget p coords with
              | none => exact iff_of_true hs (fun exit h => by cases h)
              | some exit =>
                  simp only [Option.some.injEq, forall_eq']
                  exact ((puts_setPlayer s player _).stays (stays_prepareChunkChanged _ player)).valid_iff hs
        · rename_i hactive
          exact iff_of_true hs fun h => absurd h hactive
      exact ⟨fun h => hteleport.mp (h ⟨0, 0, 0⟩), fun h _ => hteleport.mpr h⟩
  | adminTeleport player session isAdmin target =>
      exact iff_of_true (fun _ => hs.adminTeleport player session isAdmin target) trivial
  | refresh sameSession => exact iff_of_true (fun _ => hs.deliverRefresh sameSession) trivial
  | death player =>
      cases hp : s.players player with
      | none =>
          have hsame (draw : RespawnDraw) : s.step cells (.death player, draw) = s := by
            rw [step, applyDeath, applyPlayerDeathCore, hp]
            rfl
          refine iff_of_true (fun draw => (hsame draw).symm ▸ hs) fun p h => ?_
          rw [hp] at h
          cases h
      | some p =>
          simp only [step, hs.applyDeath_iff hp, Inside, hp, Option.some.injEq, forall_eq']
          exact respawnInside_iff s p
  | change index cost isEmpty bodies => exact iff_of_true (fun _ => hs.change index cost isEmpty bodies) trivial

theorem run_concat (s : Presence) (es : List (PresenceEvent × RespawnDraw)) (e : PresenceEvent × RespawnDraw) :
    s.run cells (es ++ [e]) = (s.run cells es).step cells e := List.foldl_concat ..

/-- The events that a run has taken so far. -/
def eventsOf (es : List (PresenceEvent × RespawnDraw)) : List PresenceEvent := es.map Prod.fst

/-- In all states of a list of events, whatever the server draws, every player is in the world just
when every event meets its condition. -/
theorem positions_valid_iff (hs : s.Valid) (es : List PresenceEvent) :
    (∀ fs, eventsOf fs <+: es → (s.run cells fs).Valid) ↔
      ∀ fs e, eventsOf fs ++ [e] <+: es → (s.run cells fs).Inside e := by
  have hevents (fs : List (PresenceEvent × RespawnDraw)) (e : PresenceEvent) (draw : RespawnDraw) :
      eventsOf (fs ++ [(e, draw)]) = eventsOf fs ++ [e] := List.map_append
  constructor
  · intro h fs e hprefix
    have hfs := h fs ((List.prefix_append _ [e]).trans hprefix)
    refine (@Valid.step_iff cells _ hfs e).mp fun draw => ?_
    rw [← run_concat]
    refine h (fs ++ [(e, draw)]) ?_
    rw [hevents]
    exact hprefix
  · intro h fs
    induction fs using List.reverseRecOn with
    | nil => exact fun _ => hs
    | append_singleton fs f ih =>
        obtain ⟨e, draw⟩ := f
        intro hprefix
        rw [hevents] at hprefix
        have hfs := ih ((List.prefix_append _ [e]).trans hprefix)
        rw [run_concat]
        exact (hfs.step_iff e).mpr (h fs e hprefix) draw

/-- A world of one chunk, without buildings and players. -/
def oneChunk : Presence where
  entities := fun _ => none
  byOrigin := fun _ => none
  chunkBuildings := fun _ => []
  nextEntity := 0
  chunksW := 1
  chunksH := 1
  sized := ⟨Nat.one_pos, Nat.one_pos⟩
  isEmpty := fun _ => true
  cost := fun _ => 0
  players := fun _ => none
  active := fun _ => none
  chunkPlayers := fun _ => []
  refreshes := []
  saved := fun _ => []

theorem valid_oneChunk : oneChunk.Valid where
  live h := by cases h
  saved h := by cases h

def newBody (currentWindow : Option String) : PlayerBody := ⟨none, none, 1000, none, currentWindow, false, false, true⟩

theorem positions_valid_connect_death : (oneChunk.run buildingsConfig.cells
    [(.connect 1 1 true 0 (newBody none), ⟨0, 0, 0⟩), (.death 1, ⟨0, 0, 0⟩)]).Valid := by
  refine (positions_valid_iff valid_oneChunk [.connect 1 1 true 0 (newBody none), .death 1]).mpr
    (fun fs e hprefix => ?_) _ List.prefix_rfl
  match fs with
  | [] =>
      obtain rfl := (List.cons_prefix_cons.mp hprefix).1
      trivial
  | [(f, draw)] =>
      obtain ⟨rfl, hrest⟩ := List.cons_prefix_cons.mp hprefix
      obtain ⟨rfl, -⟩ := List.cons_prefix_cons.mp hrest
      intro p hp
      obtain rfl := Option.some_inj.mp hp
      intro origin horigin
      cases horigin
  | _ :: _ :: _ :: _ | [_, _] =>
      have hlength := hprefix.length_le
      simp only [eventsOf, List.map_cons, List.length_append, List.length_cons, List.length_nil] at hlength
      omega

def chargedTeleport (id : Int32) (origin : WorldPos) : BuildingEntity where
  view := ⟨id, .teleport, origin.1, origin.2, 1, 0, 1000, 10000, 1000, 1000⟩
  storage := some ⟨0, fun _ => 0⟩
  flags := some false
  pending := none

def twoTeleports : BuildingIndex :=
  (oneChunk.toBuildingIndex.spawnBuilding (chargedTeleport 1 (20, 8))).spawnBuilding (chargedTeleport 2 (5, 30))

def teleportDown : List (PresenceEvent × RespawnDraw) :=
  [(.connect 1 1 true 0 (newBody none), ⟨0, 0, 0⟩),
    (.change twoTeleports (fun _ => 0) (fun _ => true) (fun _ => newBody (some "pack:20:8")), ⟨0, 0, 0⟩),
    (.teleport 1 1 "5:30", ⟨0, 0, 0⟩)]

/-- A teleport whose building ends in the row before the last takes the player out of the world. -/
theorem teleports_below_world : oneChunk.Valid ∧
    (oneChunk.run buildingsConfig.cells teleportDown).position 1 = some (5, 33) ∧
    ¬ (oneChunk.run buildingsConfig.cells teleportDown).Valid := by
  have hpos : (oneChunk.run buildingsConfig.cells teleportDown).position 1 = some (5, 33) := by decide
  refine ⟨valid_oneChunk, hpos, fun hvalid => ?_⟩
  have houtside := hvalid.live hpos
  revert houtside
  decide

end Presence

end OpenMines
