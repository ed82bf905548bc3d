import OpenMines.PresencePositions

namespace OpenMines

namespace Presence

variable {cells : BuildingCells} {s t u : Presence} {player other : PlayerId} {p : PresentPlayer} {c : ChunkPos}

/-- How often the index has the player in the chunk. -/
def listed (s : Presence) (player : PlayerId) (c : ChunkPos) : Nat := (s.chunkPlayers c).count player

/-- The index has a connected player in the chunk of its position and nowhere else, and it has
nobody who is not connected. -/
structure IndexAgrees (s : Presence) : Prop where
  connected : ∀ {player}, (s.active player).isSome → ∃ pos, s.position player = some pos ∧
    ∀ c, s.listed player c = if c = chunkPos pos then 1 else 0
  disconnected : ∀ {player}, s.active player = none → ∀ c, s.listed player c = 0

/-- The chunk where the index should have the player. -/
def homeChunk (s : Presence) (player : PlayerId) : Option ChunkPos :=
  if (s.active player).isSome then (s.position player).map chunkPos else none

/-- The index has the player where it should, and no other chunk was told of. -/
structure Tracked (s : Presence) (player : PlayerId) : Prop where
  present : (s.active player).isSome → (s.players player).isSome
  listed : ∀ c, s.listed player c = if s.homeChunk player = some c then 1 else 0
  told : ∀ p, s.players player = some p → p.lastChunk = none ∨ p.lastChunk = some (chunkPos p.pos)

theorem homeChunk_of (hactive : (s.active player).isSome) (hp : s.players player = some p) :
    s.homeChunk player = some (chunkPos p.pos) := by
  rw [homeChunk, if_pos hactive, position_of hp]
  rfl

theorem homeChunk_of_inactive (hactive : s.active player = none) : s.homeChunk player = none := by
  rw [homeChunk, hactive]
  rfl

theorem Tracked.indexAgrees (h : ∀ player, s.Tracked player) : s.IndexAgrees where
  connected {player} hactive := by
    obtain ⟨p, hp⟩ := Option.isSome_iff_exists.mp ((h player).present hactive)
    refine ⟨p.pos, position_of hp, fun c => ?_⟩
    rw [(h player).listed, homeChunk_of hactive hp]
    simp only [Option.some.injEq, eq_comm]
  disconnected {player} hactive c := by
    rw [(h player).listed, homeChunk_of_inactive hactive, if_neg (Option.some_ne_none c).symm]

/-! ### The index -/

theorem listed_registerPlayerChunk (s : Presence) (player other : PlayerId) (c d : ChunkPos) :
    (s.registerPlayerChunk player c).listed other d =
      if other = player ∧ d = c ∧ s.listed other d = 0 then 1 else s.listed other d := by
  rw [registerPlayerChunk]
  split
  · rename_i hmem
    rw [if_neg]
    rintro ⟨rfl, rfl, hzero⟩
    exact List.count_eq_zero.mp hzero hmem
  · rename_i hmem
    by_cases hd : d = c
    · subst hd
      simp only [listed, Function.update_self, List.count_append, List.count_singleton]
      by_cases hother : other = player
      · subst hother
        simp [List.count_eq_zero.mpr hmem]
      · simp [hother, Ne.symm hother]
    · rw [if_neg fun h => hd h.2.1, listed, listed]
      dsimp only
      rw [Function.update_of_ne hd]

theorem listed_unregisterPlayerFromChunk (s : Presence) (player other : PlayerId) (c d : ChunkPos) :
    (s.unregisterPlayerFromChunk player c).listed other d =
      if other = player ∧ d = c then 0 else s.listed other d := by
  rw [unregisterPlayerFromChunk, listed, listed]
  dsimp only
  by_cases hd : d = c
  · subst hd
    rw [Function.update_self]
    by_cases hother : other = player
    · subst hother
      rw [if_pos ⟨rfl, rfl⟩]
      exact List.count_eq_zero.mpr (by simp)
    · rw [List.count_filter (by simpa using hother), if_neg fun h => hother h.1]
  · rw [Function.update_of_ne hd, if_neg fun h => hd h.2]

/-! ### Frames -/

/-- Nothing changes about the place of a player. -/
structure SamePlace (s t : Presence) (player : PlayerId) : Prop where
  active : t.active player = s.active player
  players : (t.players player).map (fun p => (p.pos, p.lastChunk)) =
    (s.players player).map (fun p => (p.pos, p.lastChunk))
  listed : ∀ c, t.listed player c = s.listed player c

theorem SamePlace.refl (s : Presence) (player : PlayerId) : SamePlace s s player := ⟨rfl, rfl, fun _ => rfl⟩

theorem SamePlace.trans (h : SamePlace s t player) (h' : SamePlace t u player) : SamePlace s u player :=
  ⟨h'.active.trans h.active, h'.players.trans h.players, fun c => (h'.listed c).trans (h.listed c)⟩

theorem SamePlace.position (h : SamePlace s t player) : t.position player = s.position player := by
  have hmap := congrArg (Option.map Prod.fst) h.players
  rw [Option.map_map, Option.map_map] at hmap
  exact hmap

theorem Tracked.samePlace (hs : s.Tracked player) (h : SamePlace s t player) : t.Tracked player := by
  have hhome : t.homeChunk player = s.homeChunk player := by rw [homeChunk, homeChunk, h.active, h.position]
  refine ⟨fun hactive => ?_, fun c => ?_, fun p hp => ?_⟩
  · have hsome := hs.present (h.active ▸ hactive)
    rw [← Option.isSome_map (f := fun p : PresentPlayer => (p.pos, p.lastChunk)), h.players, Option.isSome_map]
    exact hsome
  · rw [h.listed, hs.listed, hhome]
  · have hplayers := h.players
    rw [hp] at hplayers
    obtain ⟨q, hq, heq⟩ := Option.map_eq_some_iff.mp hplayers.symm
    obtain ⟨hpos, hlast⟩ := Prod.mk.inj heq
    rw [← hpos, ← hlast]
    exact hs.told q hq

/-- Only one player may have gone to another place. -/
def Only (s t : Presence) (player : PlayerId) : Prop := ∀ other, other ≠ player → SamePlace s t other

theorem Only.refl (s : Presence) (player : PlayerId) : Only s s player := fun other _ => SamePlace.refl s other

theorem Only.trans (h : Only s t player) (h' : Only t u player) : Only s u player :=
  fun other hother => (h other hother).trans (h' other hother)

theorem Only.tracked (h : Only s t player) (hs : ∀ other, s.Tracked other) (ht : t.Tracked player) :
    ∀ other, t.Tracked other := by
  intro other
  by_cases hother : other = player
  · exact hother ▸ ht
  · exact (hs other).samePlace (h other hother)

theorem only_setPlayer (s : Presence) (player : PlayerId) (p : Option PresentPlayer) :
    Only s (s.setPlayer player p) player := fun other hother =>
  ⟨rfl, by simp only [setPlayer, Function.update_of_ne hother], fun _ => rfl⟩

theorem only_setActive (s : Presence) (player : PlayerId) (session : Option SessionId) :
    Only s (s.setActive player session) player := fun other hother =>
  ⟨by simp only [setActive, Function.update_of_ne hother], rfl, fun _ => rfl⟩

theorem only_registerPlayerChunk (s : Presence) (player : PlayerId) (c : ChunkPos) :
    Only s (s.registerPlayerChunk player c) player := by
  intro other hother
  have hlisted (d : ChunkPos) : (s.registerPlayerChunk player c).listed other d = s.listed other d := by
    rw [listed_registerPlayerChunk, if_neg fun h => hother h.1]
  rw [registerPlayerChunk] at hlisted ⊢
  split
  · exact SamePlace.refl s other
  · rename_i hmem
    rw [if_neg hmem] at hlisted
    exact ⟨rfl, rfl, hlisted⟩

theorem only_unregisterPlayerFromChunk (s : Presence) (player : PlayerId) (c : ChunkPos) :
    Only s (s.unregisterPlayerFromChunk player c) player := fun other hother =>
  ⟨rfl, rfl, fun d => by rw [listed_unregisterPlayerFromChunk, if_neg fun h => hother h.1]⟩

theorem only_prepareChunkChanged (s : Presence) (player : PlayerId) : Only s (s.prepareChunkChanged player) player := by
  rw [prepareChunkChanged]
  cases hp : s.players player with
  | none => exact Only.refl s player
  | some p =>
      dsimp only
      split
      · exact Only.refl s player
      · cases p.lastChunk with
        | none => exact (only_setPlayer s player _).trans (only_registerPlayerChunk _ player _)
        | some old =>
            exact (only_setPlayer s player _).trans
              ((only_unregisterPlayerFromChunk _ player old).trans (only_registerPlayerChunk _ player _))

/-! ### Events -/

theorem tracked_of (hactive : (s.active player).isSome) (hp : s.players player = some p)
    (htold : p.lastChunk = none ∨ p.lastChunk = some (chunkPos p.pos))
    (hlisted : ∀ c, s.listed player c = if c = chunkPos p.pos then 1 else 0) : s.Tracked player where
  present _ := Option.isSome_iff_exists.mpr ⟨p, hp⟩
  listed c := by
    rw [hlisted, homeChunk_of hactive hp]
    simp only [Option.some.injEq, eq_comm]
  told q hq := by
    obtain rfl := Option.some_inj.mp (hp.symm.trans hq)
    exact htold

theorem tracked_of_inactive (hactive : s.active player = none) (hlisted : ∀ c, s.listed player c = 0)
    (htold : ∀ p, s.players player = some p → p.lastChunk = none ∨ p.lastChunk = some (chunkPos p.pos)) :
    s.Tracked player where
  present h := by
    rw [hactive] at h
    cases h
  listed c := by
    rw [hlisted, homeChunk_of_inactive hactive, if_neg (Option.some_ne_none c).symm]
  told := htold

theorem Tracked.listed_home (hs : s.Tracked player) (hactive : (s.active player).isSome)
    (hp : s.players player = some p) (c : ChunkPos) : s.listed player c = if c = chunkPos p.pos then 1 else 0 := by
  rw [hs.listed, homeChunk_of hactive hp]
  simp only [Option.some.injEq, eq_comm]

theorem Tracked.listed_inactive (hs : s.Tracked player) (hactive : s.active player = none) (c : ChunkPos) :
    s.listed player c = 0 := by
  rw [hs.listed, homeChunk_of_inactive hactive, if_neg (Option.some_ne_none c).symm]

theorem active_registerPlayerChunk (s : Presence) (player : PlayerId) (c : ChunkPos) :
    (s.registerPlayerChunk player c).active = s.active := by
  rw [registerPlayerChunk]
  split <;> rfl

theorem players_registerPlayerChunk (s : Presence) (player : PlayerId) (c : ChunkPos) :
    (s.registerPlayerChunk player c).players = s.players := by
  rw [registerPlayerChunk]
  split <;> rfl

/-- The update moves the player from the chunk it was last told to the chunk of its position. -/
theorem tracked_prepareChunkChanged (hactive : (s.active player).isSome) (hp : s.players player = some p)
    (hlisted : ∀ c, s.listed player c = if c = p.lastChunk.getD (chunkPos p.pos) then 1 else 0) :
    (s.prepareChunkChanged player).Tracked player := by
  have hset : (s.setPlayer player (some { p with lastChunk := some (chunkPos p.pos) })).players player =
      some { p with lastChunk := some (chunkPos p.pos) } := Function.update_self ..
  rw [prepareChunkChanged, hp]
  dsimp only
  by_cases htold : p.lastChunk = some (chunkPos p.pos)
  · rw [if_pos htold]
    rw [htold] at hlisted
    exact tracked_of hactive hp (.inr htold) hlisted
  · rw [if_neg htold]
    cases hlast : p.lastChunk with
    | none =>
        rw [hlast] at hlisted
        refine tracked_of ?_ ((congrFun (players_registerPlayerChunk ..) _).trans hset) (.inr rfl) fun c => ?_
        · rw [active_registerPlayerChunk]
          exact hactive
        · rw [listed_registerPlayerChunk]
          show (if player = player ∧ c = chunkPos p.pos ∧ s.listed player c = 0 then 1 else s.listed player c) = _
          rw [hlisted]
          by_cases hc : c = chunkPos p.pos <;> simp [hc]
    | some old =>
        rw [hlast] at hlisted
        refine tracked_of ?_ ((congrFun (players_registerPlayerChunk ..) _).trans hset) (.inr rfl) fun c => ?_
        · rw [active_registerPlayerChunk]
          exact hactive
        · rw [listed_registerPlayerChunk, listed_unregisterPlayerFromChunk]
          show (if player = player ∧ c = chunkPos p.pos ∧
            (if player = player ∧ c = old then 0 else s.listed player c) = 0 then 1
            else if player = player ∧ c = old then 0 else s.listed player c) = _
          rw [hlisted]
          by_cases hc : c = chunkPos p.pos <;> by_cases hold : c = old <;> simp_all

theorem Tracked.connect (hs : s.Tracked player) (session : SessionId) (choice : Nat) (body : PlayerBody) :
    (s.connectEntityInTick player session true choice body).Tracked player := by
  rw [connectEntityInTick, if_pos rfl]
  dsimp only
  have hlast : (s.enteringPlayer player choice body).lastChunk =
      some (chunkPos (s.enteringPlayer player choice body).pos) := by
    unfold enteringPlayer
    split <;> rfl
  have hlisted (c : ChunkPos) (hc : c ≠ chunkPos (s.enteringPlayer player choice body).pos) :
      s.listed player c = 0 := by
    cases hactive : s.active player with
    | none => exact hs.listed_inactive hactive c
    | some old =>
        have hsome : (s.active player).isSome := by rw [hactive]; rfl
        obtain ⟨p, hp⟩ := Option.isSome_iff_exists.mp (hs.present hsome)
        rw [hs.listed_home hsome hp, if_neg]
        rwa [enteringPlayer, hp] at hc
  have hle (c : ChunkPos) : s.listed player c ≤ 1 := by
    rw [hs.listed]
    split <;> omega
  refine tracked_of ?_ ((congrFun (players_registerPlayerChunk ..) _).trans (Function.update_self ..)) (.inr hlast)
    fun c => ?_
  · rw [active_registerPlayerChunk]
    simp [setActive]
  · rw [listed_registerPlayerChunk]
    show (if player = player ∧ c = chunkPos (s.enteringPlayer player choice body).pos ∧ s.listed player c = 0 then 1
      else s.listed player c) = _
    by_cases hc : c = chunkPos (s.enteringPlayer player choice body).pos
    · rw [if_pos hc]
      by_cases hzero : s.listed player c = 0
      · rw [if_pos ⟨rfl, hc, hzero⟩]
      · rw [if_neg fun h => hzero h.2.2]
        have hone := hle c
        omega
    · rw [if_neg fun h => hc h.2.1, if_neg hc]
      exact hlisted c hc

theorem only_connect (s : Presence) (player : PlayerId) (session : SessionId) (isOpen : Bool) (choice : Nat)
    (body : PlayerBody) : Only s (s.connectEntityInTick player session isOpen choice body) player := by
  rw [connectEntityInTick]
  split
  · exact (only_setActive s player none).trans ((only_setPlayer _ player _).trans
      ((only_setActive _ player _).trans (only_registerPlayerChunk _ player _)))
  · exact Only.refl s player

theorem players_saveRow (s : Presence) (player : PlayerId) : (s.saveRow player).players = s.players := by
  rw [saveRow]
  split <;> rfl

theorem samePlace_saveRow (s : Presence) (player other : PlayerId) : SamePlace s (s.saveRow player) other := by
  rw [saveRow]
  split
  · exact SamePlace.refl s other
  · exact ⟨rfl, rfl, fun _ => rfl⟩

theorem only_saveRow (s : Presence) (player : PlayerId) : Only s (s.saveRow player) player :=
  fun other _ => samePlace_saveRow s player other

/-- A disconnect finds the player in the chunk of its position. -/
theorem Tracked.disconnect (hs : s.Tracked player) {session : SessionId} (hactive : s.active player = some session) :
    (s.disconnectInTick player session).Tracked player := by
  have hsome : (s.active player).isSome := by rw [hactive]; rfl
  obtain ⟨p, hp⟩ := Option.isSome_iff_exists.mp (hs.present hsome)
  have hplayers : ((s.setActive player none).saveRow player).players player = some p := by
    rw [players_saveRow]
    exact hp
  have hsave := samePlace_saveRow (s.setActive player none) player player
  have hgone : ((s.setActive player none).saveRow player).active player = none :=
    hsave.active.trans (Function.update_self ..)
  have hunregister (c : ChunkPos) : (((s.setActive player none).saveRow player).unregisterPlayerFromChunk player
      (chunkPos p.pos)).listed player c = 0 := by
    rw [listed_unregisterPlayerFromChunk, hsave.listed]
    show (if player = player ∧ c = chunkPos p.pos then 0 else s.listed player c) = 0
    rw [hs.listed_home hsome hp]
    by_cases hc : c = chunkPos p.pos <;> simp [hc]
  rw [disconnectInTick, if_pos hactive]
  simp only [hplayers]
  split
  · refine tracked_of_inactive hgone hunregister fun q hq => ?_
    obtain rfl := Option.some_inj.mp (hplayers.symm.trans hq)
    exact hs.told p hp
  · refine tracked_of_inactive hgone hunregister fun q hq => ?_
    simp [setPlayer] at hq

theorem only_disconnect (s : Presence) (player : PlayerId) (session : SessionId) :
    Only s (s.disconnectInTick player session) player := by
  rw [disconnectInTick]
  split
  · have hsave := (only_setActive s player none).trans (only_saveRow _ player)
    dsimp only
    split
    · exact hsave.trans (only_unregisterPlayerFromChunk _ player _)
    · split
      · exact hsave.trans (only_unregisterPlayerFromChunk _ player _)
      · exact hsave.trans ((only_unregisterPlayerFromChunk _ player _).trans (only_setPlayer _ player none))
  · exact Only.refl s player

/-- A player that goes to another place of its chunk is still in the index. -/
theorem Tracked.sameChunk (hs : s.Tracked player) (hp : s.players player = some p) {q : PresentPlayer}
    (hchunk : chunkPos q.pos = chunkPos p.pos) (hlast : q.lastChunk = none ∨ q.lastChunk = p.lastChunk) :
    (s.setPlayer player (some q)).Tracked player := by
  have hq : (s.setPlayer player (some q)).players player = some q := Function.update_self ..
  have htold : q.lastChunk = none ∨ q.lastChunk = some (chunkPos q.pos) := by
    rw [hchunk]
    rcases hlast with hlast | hlast
    · exact .inl hlast
    · rw [hlast]
      exact hs.told p hp
  cases hactive : s.active player with
  | none =>
      refine tracked_of_inactive hactive (fun c => hs.listed_inactive hactive c) fun r hr => ?_
      obtain rfl := Option.some_inj.mp (hq.symm.trans hr)
      exact htold
  | some session =>
      have hsome : (s.active player).isSome := by rw [hactive]; rfl
      refine tracked_of hsome hq htold fun c => ?_
      rw [hchunk]
      exact hs.listed_home hsome hp c

/-- A connected player that goes anywhere is followed, when the chunk it leaves was told. -/
theorem Tracked.moved (hs : s.Tracked player) (hp : s.players player = some p) (hactive : (s.active player).isSome)
    {q : PresentPlayer} (hlast : q.lastChunk = p.lastChunk)
    (htold : chunkPos q.pos = chunkPos p.pos ∨ p.lastChunk.isSome) :
    ((s.setPlayer player (some q)).prepareChunkChanged player).Tracked player := by
  refine tracked_prepareChunkChanged hactive (Function.update_self ..) fun c => ?_
  refine (hs.listed_home hactive hp c).trans ?_
  rw [hlast]
  rcases hs.told p hp with hnone | hsome
  · rw [hnone] at htold ⊢
    rcases htold with hchunk | hsome
    · rw [Option.getD_none, hchunk]
    · cases hsome
  · rw [hsome, Option.getD_some]

/-! ### Runs -/

/-- The move is the session's, or a program's without one. -/
def Handles (s : Presence) (player : PlayerId) (session : Option SessionId) (request : MoveRequest) : Prop :=
  match session with
  | some session => s.active player = some session
  | none => request.programmatic = true

/-- The condition on an event in the state before it, for what the server draws. -/
def Follows (cells : BuildingCells) (s : Presence) : PresenceEvent × RespawnDraw → Prop
  | (.move player session request, _) => s.Handles player session request → ∀ p, s.players player = some p →
      s.moveAllowed cells p request = true →
        chunkPos request.target = chunkPos p.pos ∨ (s.active player).isSome ∧ p.lastChunk.isSome
  | (.teleport player session coords, _) => s.active player = some session → ∀ p, s.players player = some p →
      ∀ target, s.teleportTarget p coords = some target → chunkPos target = chunkPos p.pos ∨ p.lastChunk.isSome
  | (.adminTeleport player session isAdmin target, _) => s.active player = some session → isAdmin = true →
      s.validCoord target = true → ∀ p, s.players player = some p → chunkPos target = chunkPos p.pos
  | (.refresh sameSession, _) => sameSession = true → ∀ player ∈ s.refreshes.head?, (s.active player).isSome
  | (.death player, draw) => ∀ p, s.players player = some p → ∀ pos, s.respawnPos p draw = some pos →
      (s.active player).isSome ∧ chunkPos pos = chunkPos p.pos
  | _ => True

theorem handleMove_eq (cells : BuildingCells) (s : Presence) (player : PlayerId) (session : Option SessionId)
    (request : MoveRequest) :
    s.Handles player session request ∧ s.handleMove cells player session request = s.applyMove cells player request ∨
      s.handleMove cells player session request = s := by
  unfold handleMove Handles
  cases session with
  | some session =>
      dsimp only
      split
      · exact .inl ⟨‹_›, rfl⟩
      · exact .inr rfl
  | none =>
      dsimp only
      split
      · exact .inl ⟨‹_›, rfl⟩
      · exact .inr rfl

theorem tracked_applyMove (hs : ∀ other, s.Tracked other) (request : MoveRequest)
    (hfollows : ∀ p, s.players player = some p → s.moveAllowed cells p request = true →
      chunkPos request.target = chunkPos p.pos ∨ (s.active player).isSome ∧ p.lastChunk.isSome) :
    ∀ other, (s.applyMove cells player request).Tracked other := by
  rw [applyMove]
  cases hp : s.players player with
  | none => exact hs
  | some p =>
      dsimp only
      split
      · rename_i hallowed
        have hmove := hfollows p hp hallowed
        split
        · rename_i hchunk
          exact (only_setPlayer s player _).tracked hs ((hs player).sameChunk hp hchunk.symm (.inr rfl))
        · rename_i hchunk
          obtain ⟨hactive, htold⟩ := hmove.resolve_left fun h => hchunk h.symm
          exact ((only_setPlayer s player _).trans (only_prepareChunkChanged _ player)).tracked hs
            ((hs player).moved hp hactive rfl (.inr htold))
      · exact hs

theorem tracked_applyTeleport (cells : BuildingCells) (hs : ∀ other, s.Tracked other) (session : SessionId)
    (coords : String) (hfollows : s.Follows cells (.teleport player session coords, ⟨0, 0, 0⟩)) :
    ∀ other, (s.applyTeleport player session coords).Tracked other := by
  rw [applyTeleport]
  split
  · rename_i hactive
    cases hp : s.players player with
    | none => exact hs
    | some p =>
        dsimp only
        cases htarget : s.teleportTarget p coords with
        | none => exact hs
        | some target =>
            have hsome : (s.active player).isSome := by rw [hactive]; rfl
            exact ((only_setPlayer s player _).trans (only_prepareChunkChanged _ player)).tracked hs
              ((hs player).moved hp hsome rfl (hfollows hactive p hp target htarget))
  · exact hs

theorem tracked_adminTeleport (cells : BuildingCells) (hs : ∀ other, s.Tracked other) (session : SessionId)
    (isAdmin : Bool) (target : WorldPos)
    (hfollows : s.Follows cells (.adminTeleport player session isAdmin target, ⟨0, 0, 0⟩)) :
    ∀ other, (s.adminTeleport player session isAdmin target).Tracked other := by
  rw [adminTeleport]
  split
  · rename_i hallowed
    simp only [Bool.and_eq_true, decide_eq_true_eq] at hallowed
    cases hp : s.players player with
    | none => exact hs
    | some p =>
        have hchunk := hfollows hallowed.1.1 hallowed.1.2 hallowed.2 p hp
        have hset := (only_setPlayer s player _).tracked hs
          ((hs player).sameChunk (q := ⟨target, none, { p.body with currentWindow := none }⟩) hp hchunk (.inl rfl))
        exact fun other => (hset other).samePlace ⟨rfl, rfl, fun _ => rfl⟩
  · exact hs

theorem tracked_deliverRefresh (cells : BuildingCells) (hs : ∀ other, s.Tracked other) (sameSession : Bool)
    (hfollows : s.Follows cells (.refresh sameSession, ⟨0, 0, 0⟩)) :
    ∀ other, (s.deliverRefresh sameSession).Tracked other := by
  rw [deliverRefresh]
  cases hrefreshes : s.refreshes with
  | nil => exact hs
  | cons player rest =>
      have hrest : ∀ other, ({ s with refreshes := rest } : Presence).Tracked other :=
        fun other => (hs other).samePlace ⟨rfl, rfl, fun _ => rfl⟩
      dsimp only
      split
      · rename_i hsame
        have hactive : (s.active player).isSome := hfollows hsame player (by rw [hrefreshes]; rfl)
        obtain ⟨p, hp⟩ := Option.isSome_iff_exists.mp ((hs player).present hactive)
        refine (only_prepareChunkChanged _ player).tracked hrest (tracked_prepareChunkChanged hactive hp fun c => ?_)
        refine ((hs player).listed_home hactive hp c).trans ?_
        rcases (hs player).told p hp with htold | htold <;> rw [htold] <;> rfl
      · exact hrest

theorem Respawned.only {pos : WorldPos} (h : Respawned s t player pos) : Only s t player := fun other hother =>
  ⟨congrFun h.active other, by rw [h.others other hother], fun c => by rw [listed, listed, h.chunkPlayers]⟩

theorem tracked_applyDeath (cells : BuildingCells) (hs : ∀ other, s.Tracked other) (draw : RespawnDraw)
    (hfollows : s.Follows cells (.death player, draw)) : ∀ other, (s.applyDeath player draw).Tracked other := by
  rw [applyDeath]
  cases hp : s.players player with
  | none =>
      rw [applyPlayerDeathCore, hp]
      exact hs
  | some p =>
      rcases applyPlayerDeathCore_spec hp draw with ⟨-, hcore⟩ | ⟨pos, t, hpos, hcore, hrespawned⟩
      · rw [hcore]
        exact hs
      · obtain ⟨hactive, hchunk⟩ := hfollows p hp pos hpos
        obtain ⟨q, hq, rfl, hlast⟩ := hrespawned.self
        rw [hcore]
        refine (hrespawned.only.trans (only_prepareChunkChanged t player)).tracked hs
          (tracked_prepareChunkChanged (hrespawned.active ▸ hactive) hq fun c => ?_)
        rw [listed, hrespawned.chunkPlayers, hlast, Option.getD_none, hchunk]
        exact (hs player).listed_home hactive hp c

theorem samePlace_change (s : Presence) (index : BuildingIndex) (cost : EntityId → Int32) (isEmpty : WorldPos → Bool)
    (bodies : PlayerId → PlayerBody) (other : PlayerId) : SamePlace s (s.change index cost isEmpty bodies) other where
  active := rfl
  players := by
    rw [change, Option.map_map]
    rfl
  listed _ := rfl

/-- What one event leaves. -/
theorem tracked_step (hs : ∀ other, s.Tracked other) (e : PresenceEvent × RespawnDraw) (hfollows : s.Follows cells e) :
    ∀ other, (s.step cells e).Tracked other := by
  obtain ⟨e, draw⟩ := e
  cases e with
  | connect player session isOpen choice body =>
      cases isOpen with
      | true =>
          exact (only_connect s player session true choice body).tracked hs ((hs player).connect session choice body)
      | false => exact hs
  | disconnect player session =>
      by_cases hactive : s.active player = some session
      · exact (only_disconnect s player session).tracked hs ((hs player).disconnect hactive)
      · rw [step, disconnectInTick, if_neg hactive]
        exact hs
  | save player => exact fun other => (hs other).samePlace (samePlace_saveRow s player other)
  | move player session request =>
      rw [step]
      rcases handleMove_eq cells s player session request with ⟨hhandles, heq⟩ | heq
      · rw [heq]
        exact tracked_applyMove hs request (hfollows hhandles)
      · rw [heq]
        exact hs
  | teleport player session coords => exact tracked_applyTeleport cells hs session coords hfollows
  | adminTeleport player session isAdmin target =>
      exact tracked_adminTeleport cells hs session isAdmin target hfollows
  | refresh sameSession => exact tracked_deliverRefresh cells hs sameSession hfollows
  | death player => exact tracked_applyDeath cells hs draw hfollows
  | change index cost isEmpty bodies =>
      exact fun other => (hs other).samePlace (samePlace_change s index cost isEmpty bodies other)

/-- The index before anybody has connected. -/
structure NobodyConnected (s : Presence) : Prop where
  active : ∀ player, s.active player = none
  players : ∀ player, s.players player = none
  chunkPlayers : ∀ c, s.chunkPlayers c = []

theorem NobodyConnected.tracked (hs : s.NobodyConnected) (player : PlayerId) : s.Tracked player := by
  refine tracked_of_inactive (hs.active player) (fun c => ?_) fun p hp => ?_
  · rw [listed, hs.chunkPlayers]
    rfl
  · rw [hs.players] at hp
    cases hp

/-- In a run whose events all meet their conditions, the index agrees in every state. -/
theorem index_agrees_of_follows (hs : s.NobodyConnected) (es : List (PresenceEvent × RespawnDraw))
    (hfollows : ∀ fs e, fs ++ [e] <+: es → (s.run cells fs).Follows cells e) :
    ∀ fs, fs <+: es → (s.run cells fs).IndexAgrees := by
  intro fs hprefix
  refine Tracked.indexAgrees ?_
  induction fs using List.reverseRecOn with
  | nil => exact hs.tracked
  | append_singleton fs e ih =>
      rw [run_concat]
      exact tracked_step (ih ((List.prefix_append _ [e]).trans hprefix)) e (hfollows fs e hprefix)

theorem nobodyConnected_oneChunk : oneChunk.NobodyConnected := ⟨fun _ => rfl, fun _ => rfl, fun _ => rfl⟩

theorem index_agrees_connect_move_disconnect : (oneChunk.run buildingsConfig.cells
    [(.connect 1 1 true 0 (newBody none), ⟨0, 0, 0⟩), (.move 1 (some 1) ⟨(10, 11), false⟩, ⟨0, 0, 0⟩),
      (.disconnect 1 1, ⟨0, 0, 0⟩)]).IndexAgrees := by
  refine index_agrees_of_follows nobodyConnected_oneChunk _ (fun fs e hprefix => ?_) _ List.prefix_rfl
  match fs with
  | [] =>
      obtain rfl := (List.cons_prefix_cons.mp hprefix).1
      trivial
  | [f] =>
      obtain ⟨rfl, hrest⟩ := List.cons_prefix_cons.mp hprefix
      obtain ⟨rfl, -⟩ := List.cons_prefix_cons.mp hrest
      intro _ p hp _
      obtain rfl := Option.some_inj.mp hp
      exact .inl (by decide)
  | [f, g] =>
      obtain ⟨rfl, hrest⟩ := List.cons_prefix_cons.mp hprefix
      obtain ⟨rfl, hlast⟩ := List.cons_prefix_cons.mp hrest
      obtain ⟨rfl, -⟩ := List.cons_prefix_cons.mp hlast
      trivial
  | _ :: _ :: _ :: _ =>
      have hlength := hprefix.length_le
      simp only [List.length_append, List.length_cons, List.length_nil] at hlength
      omega

def publicResp : BuildingEntity where
  view := ⟨1, .resp, 36, 10, 0, 0, 100, 1000, 1000, 1000⟩
  storage := some ⟨0, fun _ => 0⟩
  flags := some false
  pending := none

def deathFarAway : List (PresenceEvent × RespawnDraw) :=
  [(.connect 1 1 true 0 (newBody none), ⟨0, 0, 0⟩),
    (.change (oneChunk.toBuildingIndex.spawnBuilding publicResp) (fun _ => 0) (fun _ => true) (fun _ => newBody none),
      ⟨0, 0, 0⟩),
    (.death 1, ⟨0, 0, 1⟩)]

def twoChunks : Presence := { oneChunk with chunksW := 2, sized := ⟨Nat.two_pos, Nat.one_pos⟩ }

/-- Death leaves the player in the chunk where it died; the disconnect forgets the chunk of the
respawn only. -/
theorem listed_after_death : twoChunks.NobodyConnected ∧
    (twoChunks.run buildingsConfig.cells deathFarAway).position 1 = some (38, 10) ∧
    (twoChunks.run buildingsConfig.cells deathFarAway).listed 1 (0, 0) = 1 ∧
    (twoChunks.run buildingsConfig.cells deathFarAway).listed 1 (1, 0) = 1 ∧
    ¬ (twoChunks.run buildingsConfig.cells deathFarAway).IndexAgrees ∧
    ¬ (twoChunks.run buildingsConfig.cells (deathFarAway ++ [(.disconnect 1 1, ⟨0, 0, 0⟩)])).IndexAgrees := by
  have hpos : (twoChunks.run buildingsConfig.cells deathFarAway).position 1 = some (38, 10) := by decide
  have hold : (twoChunks.run buildingsConfig.cells deathFarAway).listed 1 (0, 0) = 1 := by decide
  have hgone : (twoChunks.run buildingsConfig.cells (deathFarAway ++ [(.disconnect 1 1, ⟨0, 0, 0⟩)])).listed 1 (0, 0) =
      1 := by decide
  refine ⟨⟨fun _ => rfl, fun _ => rfl, fun _ => rfl⟩, hpos, hold, by decide, fun hagrees => ?_,
    fun hagrees => ?_⟩
  · obtain ⟨pos, hpos', hlisted⟩ := @IndexAgrees.connected _ hagrees 1 (by decide)
    obtain rfl := Option.some_inj.mp (hpos.symm.trans hpos')
    have hzero := hlisted (0, 0)
    rw [hold] at hzero
    revert hzero
    decide
  · have hzero := @IndexAgrees.disconnected _ hagrees 1 (by decide) (0, 0)
    rw [hgone] at hzero
    cases hzero

end Presence

end OpenMines
