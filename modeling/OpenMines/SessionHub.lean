import Mathlib.Logic.Function.Basic
import OpenMines.PlayerRow

namespace OpenMines

/-- A session in the hub. `kick` tells that its kick sender has not been used. -/
structure SessionEntry where
  playerId : Option PlayerId
  kick : Bool
  deriving DecidableEq

structure SessionHub where
  nextId : SessionId
  sessions : SessionId → Option SessionEntry
  players : PlayerId → Option SessionId

namespace SessionHub

def new : SessionHub := { nextId := 1, sessions := fun _ => none, players := fun _ => none }

def «open» (hub : SessionHub) : SessionHub × SessionId :=
  ({ hub with
     nextId := hub.nextId + 1
     sessions := Function.update hub.sessions hub.nextId (some { playerId := none, kick := true }) },
   hub.nextId)

def kickSession (hub : SessionHub) (session : SessionId) : SessionHub × Bool :=
  match hub.sessions session with
  | none => (hub, false)
  | some entry =>
    ({ hub with sessions := Function.update hub.sessions session (some { entry with kick := false }) },
     entry.kick)

def bindPlayer (hub : SessionHub) (session : SessionId) (player : PlayerId) : SessionHub × Bool :=
  match hub.sessions session with
  | none => (hub, false)
  | some entry =>
    let bound : SessionHub :=
      { hub with
        sessions := Function.update hub.sessions session (some { entry with playerId := some player })
        players := Function.update hub.players player (some session) }
    match hub.players player with
    | some previous => (if previous ≠ session then (bound.kickSession previous).1 else bound, true)
    | none => (bound, true)

def close (hub : SessionHub) (session : SessionId) : SessionHub × Option PlayerId :=
  match hub.sessions session with
  | none => (hub, none)
  | some entry =>
    let closed : SessionHub := { hub with sessions := Function.update hub.sessions session none }
    match entry.playerId with
    | none => (closed, none)
    | some player =>
      (if hub.players player = some session then
         { closed with players := Function.update hub.players player none }
       else closed,
       some player)

def sessionForPlayer (hub : SessionHub) (player : PlayerId) : Option SessionId := hub.players player

def kickPlayer (hub : SessionHub) (player : PlayerId) : SessionHub × Bool :=
  match hub.sessionForPlayer player with
  | none => (hub, false)
  | some session => hub.kickSession session

/-- The sessions that are open are those that have an outbox. -/
def isOpen (hub : SessionHub) (session : SessionId) : Bool := (hub.sessions session).isSome

/-- The player of an open session, if it has one. -/
def playerOf (hub : SessionHub) (session : SessionId) : Option (Option PlayerId) :=
  (hub.sessions session).map SessionEntry.playerId

/-- The kick sender of an open session. -/
def kickOf (hub : SessionHub) (session : SessionId) : Option Bool :=
  (hub.sessions session).map SessionEntry.kick

theorem isOpen_eq (hub : SessionHub) (session : SessionId) :
    hub.isOpen session = (hub.playerOf session).isSome := by
  simp [isOpen, playerOf]

@[simp] theorem players_kickSession (hub : SessionHub) (session : SessionId) :
    (hub.kickSession session).1.players = hub.players := by
  unfold kickSession
  split <;> rfl

@[simp] theorem nextId_kickSession (hub : SessionHub) (session : SessionId) :
    (hub.kickSession session).1.nextId = hub.nextId := by
  unfold kickSession
  split <;> rfl

@[simp] theorem playerOf_kickSession (hub : SessionHub) (session s : SessionId) :
    (hub.kickSession session).1.playerOf s = hub.playerOf s := by
  unfold kickSession playerOf
  split
  · rfl
  · rename_i entry hentry
    by_cases hs : s = session
    · subst hs
      simp [hentry]
    · simp [hs]

theorem kickOf_kickSession (hub : SessionHub) (session s : SessionId) :
    (hub.kickSession session).1.kickOf s =
      if s = session then (hub.kickOf s).map (fun _ => false) else hub.kickOf s := by
  unfold kickSession kickOf
  split
  · rename_i hnone
    by_cases hs : s = session
    · subst hs
      simp [hnone]
    · simp [hs]
  · rename_i entry hentry
    by_cases hs : s = session
    · subst hs
      simp [hentry]
    · simp [hs]

/-- An open session takes the player over, and kicks the session that had it. -/
theorem bindPlayer_spec {hub : SessionHub} {session : SessionId} {before : Option PlayerId}
    (player : PlayerId) (h : hub.playerOf session = some before) :
    ∃ bound : SessionHub, hub.bindPlayer session player = (bound, true) ∧
      bound.nextId = hub.nextId ∧
      bound.players = Function.update hub.players player (some session) ∧
      (∀ s, bound.playerOf s = if s = session then some (some player) else hub.playerOf s) ∧
      ∀ s, bound.kickOf s =
        if hub.players player = some s ∧ s ≠ session then (hub.kickOf s).map (fun _ => false)
        else hub.kickOf s := by
  obtain ⟨entry, hentry, rfl⟩ := Option.map_eq_some_iff.mp h
  unfold bindPlayer
  simp only [hentry]
  have hplayer (s : SessionId) :
      playerOf { hub with
        sessions := Function.update hub.sessions session (some { entry with playerId := some player })
        players := Function.update hub.players player (some session) } s =
      if s = session then some (some player) else hub.playerOf s := by
    by_cases hs : s = session
    · subst hs
      simp [playerOf]
    · simp [playerOf, hs]
  have hkick (s : SessionId) :
      kickOf { hub with
        sessions := Function.update hub.sessions session (some { entry with playerId := some player })
        players := Function.update hub.players player (some session) } s = hub.kickOf s := by
    by_cases hs : s = session
    · subst hs
      simp [kickOf, hentry]
    · simp [kickOf, hs]
  cases hprev : hub.players player with
  | none => exact ⟨_, rfl, rfl, rfl, hplayer, fun s => by simp [hkick]⟩
  | some previous =>
      by_cases hne : previous = session
      · refine ⟨_, rfl, ?_, ?_, ?_, ?_⟩
        · simp [hne]
        · simp [hne]
        · simpa [hne] using hplayer
        · intro s
          rw [if_neg (by simpa using hne), hkick, if_neg]
          rintro ⟨hs, hne'⟩
          exact hne' (by rw [← Option.some.inj hs, hne])
      · refine ⟨_, rfl, ?_, ?_, ?_, ?_⟩
        · simp [hne]
        · simp [hne]
        · intro s
          rw [if_pos hne, playerOf_kickSession]
          exact hplayer s
        · intro s
          rw [if_pos hne, kickOf_kickSession, hkick]
          by_cases hs : s = previous
          · subst hs
            simp [hne]
          · simp [hs, Ne.symm hs]

theorem close_spec {hub : SessionHub} {session : SessionId} {player : Option PlayerId}
    (h : hub.playerOf session = some player) :
    (hub.close session).1.nextId = hub.nextId ∧
      (∀ p, (hub.close session).1.players p =
        if player = some p ∧ hub.players p = some session then none else hub.players p) ∧
      (∀ s, (hub.close session).1.playerOf s = if s = session then none else hub.playerOf s) ∧
      ∀ s, (hub.close session).1.kickOf s = if s = session then none else hub.kickOf s := by
  obtain ⟨entry, hentry, rfl⟩ := Option.map_eq_some_iff.mp h
  unfold close
  simp only [hentry]
  have hsession (s : SessionId) : Function.update hub.sessions session none s =
      if s = session then none else hub.sessions s := Function.update_apply _ _ _ _
  cases hplayer : entry.playerId with
  | none =>
      refine ⟨rfl, by simp, ?_, ?_⟩
      · intro s
        simp only [playerOf, hsession]
        split <;> rfl
      · intro s
        simp only [kickOf, hsession]
        split <;> rfl
  | some player =>
      by_cases hown : hub.players player = some session
      · simp only [hown, if_true]
        refine ⟨trivial, ?_, ?_, ?_⟩
        · intro p
          by_cases hp : p = player
          · subst hp
            simp [hown]
          · have hne : ¬ player = p := fun he => hp he.symm
            simp [Function.update_of_ne hp, hne]
        · intro s
          simp only [playerOf, hsession]
          split <;> rfl
        · intro s
          simp only [kickOf, hsession]
          split <;> rfl
      · simp only [hown, if_false]
        refine ⟨trivial, ?_, ?_, ?_⟩
        · intro p
          rw [if_neg]
          rintro ⟨he, hp⟩
          exact hown (by rw [Option.some.inj he, hp])
        · intro s
          simp only [playerOf, hsession]
          split <;> rfl
        · intro s
          simp only [kickOf, hsession]
          split <;> rfl

theorem open_spec (hub : SessionHub) :
    hub.open.2 = hub.nextId ∧ hub.open.1.nextId = hub.nextId + 1 ∧ hub.open.1.players = hub.players ∧
      (∀ s, hub.open.1.playerOf s = if s = hub.nextId then some none else hub.playerOf s) ∧
      ∀ s, hub.open.1.kickOf s = if s = hub.nextId then some true else hub.kickOf s := by
  refine ⟨rfl, rfl, rfl, ?_, ?_⟩
  · intro s
    simp only [playerOf, SessionHub.open, Function.update_apply]
    split <;> rfl
  · intro s
    simp only [kickOf, SessionHub.open, Function.update_apply]
    split <;> rfl

end SessionHub

end OpenMines
