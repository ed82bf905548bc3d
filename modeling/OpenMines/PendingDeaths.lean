import OpenMines.Lib.WaitQueue
import OpenMines.ProgrammatorSchedule

namespace OpenMines

open Lib Lib.CheckedInt Lib.Run

inductive DeathCause
  | hit
  | respawn
  | kill
  deriving DecidableEq

inductive HitKind
  | hazard
  | gun
  | explosion
  | touch
  | c190
  deriving DecidableEq

namespace HitKind

/-- Whether the damage passes over a player that is dead already. -/
def sparesDead : HitKind → Bool
  | hazard | gun | explosion => true
  | touch | c190 => false

def marksDirty : HitKind → Bool
  | c190 => false
  | hazard | gun | explosion | touch => true

end HitKind

/-- A death that was applied: the health that the player had then, and the requests that it served. -/
structure AppliedDeath where
  player : PlayerId
  health : Int32
  requests : List Nat
  deriving DecidableEq

/-- `requested` is the `DeathQueue`, `backlog` the `DeathBacklog`. What was requested and applied so far, each request by
its number, is kept for the proofs alone. -/
structure DeathServer where
  world : ScheduledPrograms
  requested : WaitQueue PlayerId Nat
  backlog : WaitQueue PlayerId Nat
  requests : List (PlayerId × DeathCause)
  applied : List AppliedDeath

namespace PlayerEntity

def hurt (kind : HitKind) (damage : Int32) (c : PlayerEntity PlayerProgram) : PlayerEntity PlayerProgram :=
  { c with
    health := if damage < c.health then c.health - damage else 0
    dirty := c.dirty || kind.marksDirty }

/-- A death that ends with an error has emptied the basket. -/
def emptyBasket (c : PlayerEntity PlayerProgram) : PlayerEntity PlayerProgram :=
  { c with crystals := if 0 < (c.crystals.toList.map Int64.toInt).sum then Vector.replicate 6 0 else c.crystals }

end PlayerEntity

inductive DeathEvent
  /-- Connections, their ends, programs, and whatever else changes a player but hits and deaths. -/
  | world (e : ScheduleEvent)
  | hit (kind : HitKind) (player : PlayerId) (damage : Int32)
  /-- The player asks for its respawn. -/
  | respawn (player : PlayerId)
  /-- `kill` on the console of the server. -/
  | kill (player : PlayerId)
  /-- The effects of a tick, with the permits that the queue of the saves gives, and the deaths that end with an error. -/
  | effects (permits : Nat) (outcome : PlayerId → RespawnOutcome) (aborts : PlayerId → Bool)

namespace DeathServer

def empty : DeathServer := ⟨.empty, .empty, .empty, [], []⟩

def requestPlayerDeath (s : DeathServer) (player : PlayerId) (cause : DeathCause) : DeathServer :=
  if (s.world.game.playerEntities player).isSome then
    { s with
      requested := s.requested.push player [s.requests.length]
      requests := s.requests ++ [(player, cause)] }
  else s

def hit (s : DeathServer) (kind : HitKind) (player : PlayerId) (damage : Int32) : DeathServer :=
  match s.world.component player with
  | none => s
  | some (_, c) =>
      if damage ≤ 0 ∨ kind.sparesDead = true ∧ c.health ≤ 0 then s
      else
        let hurt := { s with world := s.world.modifyPlayer player fun c => c.hurt kind damage }
        if damage < c.health then hurt else hurt.requestPlayerDeath player .hit

/-- `apply_player_death_core` for a death that got its permit. -/
def applyDeath (outcome : PlayerId → RespawnOutcome) (aborts : PlayerId → Bool) (s : DeathServer)
    (death : PlayerId × List Nat) : DeathServer :=
  match s.world.component death.1 with
  | none => s
  | some (_, c) =>
      if aborts death.1 then { s with world := s.world.modifyPlayer death.1 PlayerEntity.emptyBasket }
      else
        { s with
          world := s.world.death death.1 (outcome death.1)
          applied := s.applied ++ [⟨death.1, c.health, death.2⟩] }

/-- `drain_player_deaths`, and the backlog extended by it. -/
def drained (s : DeathServer) : WaitQueue PlayerId Nat := s.backlog.extend s.requested.queue s.requested.reasons

def applyPendingDeaths (s : DeathServer) (permits : Nat) (outcome : PlayerId → RespawnOutcome)
    (aborts : PlayerId → Bool) : DeathServer :=
  let admitted := s.drained.take permits
  admitted.1.foldl (applyDeath outcome aborts) { s with requested := .empty, backlog := admitted.2 }

def step (io : ProgramIo) (s : DeathServer) : DeathEvent → Checked DeathServer
  | .world (.death ..) => none
  | .world e => (s.world.step io e).map fun world => { s with world }
  | .hit kind player damage => some (s.hit kind player damage)
  | .respawn player => some (s.requestPlayerDeath player .respawn)
  | .kill player => some (s.requestPlayerDeath player .kill)
  | .effects permits outcome aborts => some (s.applyPendingDeaths permits outcome aborts)

/-- The requests for the death of a player that are not served. -/
def waiting (s : DeathServer) (player : PlayerId) : List Nat := s.backlog.reasons player ++ s.requested.reasons player

def served (s : DeathServer) : List Nat := s.applied.flatMap AppliedDeath.requests

/-- The request waits, or its death is admitted and not applied yet. -/
def Unserved (s : DeathServer) (admitted : List (PlayerId × List Nat)) (player : PlayerId) (request : Nat) : Prop :=
  request ∈ s.waiting player ∨ ∃ why, (player, why) ∈ admitted ∧ request ∈ why

/-- Each request is for one player, and is served once at most. -/
structure Accounted (s : DeathServer) (admitted : List (PlayerId × List Nat)) : Prop where
  requested : s.requested.Coherent
  backlog : s.backlog.Coherent
  known : ∀ player request, s.Unserved admitted player request → ∃ cause, s.requests[request]? = some (player, cause)
  unserved : ∀ player request, s.Unserved admitted player request → request ∉ s.served
  waiting_nodup : ∀ player, (s.waiting player).Nodup
  players_nodup : (admitted.map Prod.fst).Nodup
  admitted : ∀ death ∈ admitted, death.2 ≠ [] ∧ death.2.Nodup ∧ s.waiting death.1 = []
  served_nodup : s.served.Nodup
  applied : ∀ d ∈ s.applied, d.requests ≠ [] ∧
    ∀ request ∈ d.requests, ∃ cause, s.requests[request]? = some (d.player, cause)

section Accounting

variable {s : DeathServer} {player : PlayerId} {admitted : List (PlayerId × List Nat)}

theorem accounted_empty : empty.Accounted [] where
  requested := WaitQueue.coherent_empty
  backlog := WaitQueue.coherent_empty
  known := by
    rintro player request (hwaits | ⟨_, hmem, _⟩)
    · cases hwaits
    · cases hmem
  unserved := fun _ _ _ => List.not_mem_nil
  waiting_nodup := fun _ => List.nodup_nil
  players_nodup := List.nodup_nil
  admitted := fun _ hmem => absurd hmem List.not_mem_nil
  served_nodup := List.nodup_nil
  applied := fun _ hmem => absurd hmem List.not_mem_nil

theorem Accounted.setWorld (h : s.Accounted admitted) (world : ScheduledPrograms) :
    ({ s with world } : DeathServer).Accounted admitted :=
  ⟨h.requested, h.backlog, h.known, h.unserved, h.waiting_nodup, h.players_nodup, h.admitted, h.served_nodup, h.applied⟩

theorem Accounted.served_lt (h : s.Accounted admitted) {request : Nat} (hserved : request ∈ s.served) :
    request < s.requests.length := by
  obtain ⟨d, hd, hrequest⟩ := List.mem_flatMap.mp hserved
  obtain ⟨cause, hcause⟩ := (h.applied d hd).2 request hrequest
  exact (List.getElem?_eq_some_iff.mp hcause).1

theorem Accounted.waiting_known (h : s.Accounted admitted) {request : Nat} (hwaits : request ∈ s.waiting player) :
    ∃ cause, s.requests[request]? = some (player, cause) := h.known player request (.inl hwaits)

/-- A request is made. -/
def made (s : DeathServer) (player : PlayerId) (cause : DeathCause) : DeathServer :=
  { s with
    requested := s.requested.push player [s.requests.length]
    requests := s.requests ++ [(player, cause)] }

theorem waiting_made (s : DeathServer) (player : PlayerId) (cause : DeathCause) (other : PlayerId) :
    (s.made player cause).waiting other =
      if other = player then s.waiting other ++ [s.requests.length] else s.waiting other := by
  rw [waiting, made, WaitQueue.push_reasons]
  split
  · rename_i heq
    subst heq
    rw [Function.update_self, waiting, List.append_assoc]
  · rename_i hne
    rw [Function.update_of_ne hne, waiting]

theorem Accounted.made (h : s.Accounted []) (player : PlayerId) (cause : DeathCause) :
    (s.made player cause).Accounted [] := by
  have hold : ∀ {request : Nat} {entry : PlayerId × DeathCause}, s.requests[request]? = some entry →
      (s.requests ++ [(player, cause)])[request]? = some entry := fun hentry =>
    (List.getElem?_append_left (List.getElem?_eq_some_iff.mp hentry).1).trans hentry
  have hcases : ∀ other request, request ∈ (s.made player cause).waiting other →
      request ∈ s.waiting other ∨ other = player ∧ request = s.requests.length := by
    intro other request hwaits
    rw [waiting_made] at hwaits
    split at hwaits
    · rename_i heq
      exact (List.mem_append.mp hwaits).imp id fun hnew => ⟨heq, List.mem_singleton.mp hnew⟩
    · exact .inl hwaits
  have hnew : ∀ other, s.requests.length ∉ s.waiting other := fun other hwaits => by
    obtain ⟨_, hknown⟩ := h.waiting_known hwaits
    exact Nat.lt_irrefl _ (List.getElem?_eq_some_iff.mp hknown).1
  refine ⟨h.requested.push (List.cons_ne_nil _ _), h.backlog, ?_, ?_, fun other => ?_, List.nodup_nil,
    fun _ hmem => absurd hmem List.not_mem_nil, h.served_nodup, fun d hd => ⟨(h.applied d hd).1, ?_⟩⟩
  · rintro other request (hwaits | ⟨_, hmem, _⟩)
    · rcases hcases other request hwaits with hwaited | ⟨rfl, rfl⟩
      · exact (h.waiting_known hwaited).imp fun _ => hold
      · exact ⟨cause, List.getElem?_concat_length ..⟩
    · cases hmem
  · rintro other request (hwaits | ⟨_, hmem, _⟩)
    · rcases hcases other request hwaits with hwaited | ⟨-, rfl⟩
      · exact h.unserved other request (.inl hwaited)
      · exact fun hserved => Nat.lt_irrefl _ (h.served_lt hserved)
    · cases hmem
  · rw [waiting_made]
    split
    · exact List.nodup_append.mpr ⟨h.waiting_nodup other, List.nodup_singleton _,
        fun a ha b hb heq => hnew other (List.mem_singleton.mp hb ▸ heq ▸ ha)⟩
    · exact h.waiting_nodup other
  · exact fun request hrequest => ((h.applied d hd).2 request hrequest).imp fun _ => hold

theorem Accounted.requestPlayerDeath (h : s.Accounted []) (player : PlayerId) (cause : DeathCause) :
    (s.requestPlayerDeath player cause).Accounted [] := by
  rw [DeathServer.requestPlayerDeath]
  split
  · exact h.made player cause
  · exact h

theorem Accounted.hit (h : s.Accounted []) (kind : HitKind) (player : PlayerId) (damage : Int32) :
    (s.hit kind player damage).Accounted [] := by
  rw [DeathServer.hit]
  split
  · exact h
  · split
    · exact h
    · dsimp only
      split
      · exact h.setWorld _
      · exact (h.setWorld _).requestPlayerDeath player .hit

/-- What waited waits on, or is admitted. -/
theorem unserved_drain (h : s.Accounted []) (permits : Nat) {request : Nat} :
    ({ s with requested := .empty, backlog := (s.drained.take permits).2 } : DeathServer).Unserved
      (s.drained.take permits).1 player request ↔ request ∈ s.waiting player := by
  have hdrained : s.drained.Coherent := h.backlog.extend fun key hkey => (h.requested.reasons key).mp hkey
  have hreasons : s.drained.reasons player = s.waiting player := WaitQueue.extend_reasons h.requested player
  have htaken := hdrained.take permits
  have hrest : ({ s with requested := .empty, backlog := (s.drained.take permits).2 } : DeathServer).waiting player =
      (s.drained.take permits).2.reasons player := List.append_nil _
  rw [Unserved, hrest]
  by_cases hkey : player ∈ (s.drained.take permits).1.map Prod.fst
  · obtain ⟨entry, hentry, rfl⟩ := List.mem_map.mp hkey
    obtain ⟨hwhy, -, hgone⟩ := htaken.waited entry hentry
    rw [hgone, or_iff_right List.not_mem_nil]
    constructor
    · rintro ⟨why, hmem, hrequest⟩
      have hall : why = s.drained.reasons entry.1 := (htaken.waited _ hmem).1
      rwa [hall, hreasons] at hrequest
    · exact fun hrequest => ⟨entry.2, hentry, hwhy ▸ hreasons.symm ▸ hrequest⟩
  · rw [htaken.others player hkey, hreasons]
    exact or_iff_left fun ⟨why, hmem, _⟩ => hkey (List.mem_map.mpr ⟨_, hmem, rfl⟩)

/-- What is admitted waited, and waits no more. -/
theorem Accounted.drain (h : s.Accounted []) (permits : Nat) :
    ({ s with requested := .empty, backlog := (s.drained.take permits).2 } : DeathServer).Accounted
      (s.drained.take permits).1 := by
  have hdrained : s.drained.Coherent := h.backlog.extend fun key hkey => (h.requested.reasons key).mp hkey
  have hreasons : ∀ player, s.drained.reasons player = s.waiting player := WaitQueue.extend_reasons h.requested
  have htaken := hdrained.take permits
  refine ⟨WaitQueue.coherent_empty, htaken.coherent, fun player request hopen => ?_, fun player request hopen => ?_,
    fun player => ?_, htaken.nodup, fun death hdeath => ?_, h.served_nodup, h.applied⟩
  · exact h.waiting_known ((unserved_drain h permits).mp hopen)
  · exact h.unserved player request (.inl ((unserved_drain h permits).mp hopen))
  · rw [waiting]
    refine (List.append_nil _).symm ▸ ?_
    by_cases hkey : player ∈ (s.drained.take permits).1.map Prod.fst
    · obtain ⟨entry, hentry, rfl⟩ := List.mem_map.mp hkey
      rw [(htaken.waited entry hentry).2.2]
      exact List.nodup_nil
    · rw [htaken.others player hkey, hreasons]
      exact h.waiting_nodup player
  · obtain ⟨hwhy, hne, hgone⟩ := htaken.waited death hdeath
    refine ⟨hne, ?_, ?_⟩
    · rw [hwhy, hreasons]
      exact h.waiting_nodup _
    · exact List.append_eq_nil_iff.mpr ⟨hgone, rfl⟩

theorem Accounted.tail {death : PlayerId × List Nat} (h : s.Accounted (death :: admitted)) : s.Accounted admitted := by
  have hunserved : ∀ player request, s.Unserved admitted player request → s.Unserved (death :: admitted) player request :=
    fun _ _ => Or.imp id fun ⟨why, hmem, hwhy⟩ => ⟨why, List.mem_cons_of_mem _ hmem, hwhy⟩
  exact ⟨h.requested, h.backlog, fun p r hr => h.known p r (hunserved p r hr),
    fun p r hr => h.unserved p r (hunserved p r hr), h.waiting_nodup, (List.nodup_cons.mp h.players_nodup).2,
    fun d hd => h.admitted d (List.mem_cons_of_mem _ hd), h.served_nodup, h.applied⟩

theorem Accounted.applyDeath {death : PlayerId × List Nat} (h : s.Accounted (death :: admitted))
    (outcome : PlayerId → RespawnOutcome) (aborts : PlayerId → Bool) :
    (applyDeath outcome aborts s death).Accounted admitted := by
  rw [DeathServer.applyDeath]
  split
  · exact h.tail
  · rename_i c _
    split
    · exact h.tail.setWorld _
    · obtain ⟨hne, hnodup, hnone⟩ := h.admitted death List.mem_cons_self
      have hopen : ∀ request ∈ death.2, s.Unserved (death :: admitted) death.1 request := fun request hrequest =>
        .inr ⟨death.2, List.mem_cons_self, hrequest⟩
      have hserved : s.served ++ death.2 =
          (s.applied ++ [AppliedDeath.mk death.1 c.health death.2]).flatMap AppliedDeath.requests := by
        rw [List.flatMap_append, List.flatMap_singleton]
        rfl
      have htail := h.tail
      refine ⟨htail.requested, htail.backlog, htail.known, fun player request hrequest => ?_, htail.waiting_nodup,
        htail.players_nodup, htail.admitted, ?_, fun d hd => ?_⟩
      · rw [served, ← hserved]
        refine fun hmem => (List.mem_append.mp hmem).elim (htail.unserved player request hrequest) fun hnew => ?_
        obtain ⟨_, hknown⟩ := h.known death.1 request (hopen request hnew)
        obtain ⟨_, hknown'⟩ := htail.known player request hrequest
        obtain rfl : death.1 = player := congrArg Prod.fst (Option.some.inj (hknown.symm.trans hknown'))
        rcases hrequest with hwaits | ⟨why, hother, -⟩
        · exact List.not_mem_nil (hnone ▸ hwaits)
        · exact (List.nodup_cons.mp h.players_nodup).1 (List.mem_map.mpr ⟨_, hother, rfl⟩)
      · rw [served, ← hserved]
        exact List.nodup_append.mpr ⟨h.served_nodup, hnodup,
          fun a ha b hb heq => h.unserved death.1 b (hopen b hb) (heq ▸ ha)⟩
      · rcases List.mem_append.mp hd with hold | hnew
        · exact h.applied d hold
        · obtain rfl := List.mem_singleton.mp hnew
          exact ⟨hne, fun request hrequest => h.known death.1 request (hopen request hrequest)⟩

theorem Accounted.applyDeaths (h : s.Accounted admitted) (outcome : PlayerId → RespawnOutcome)
    (aborts : PlayerId → Bool) : (admitted.foldl (DeathServer.applyDeath outcome aborts) s).Accounted [] := by
  induction admitted generalizing s with
  | nil => exact h
  | cons death admitted ih => exact ih (h.applyDeath outcome aborts)

theorem step_world_eq_some {io : ProgramIo} {t : DeathServer} {e : ScheduleEvent}
    (hstep : s.step io (.world e) = some t) :
    ∃ world, (∀ player o, e ≠ .death player o) ∧ s.world.step io e = some world ∧ t = { s with world } := by
  cases e with
  | death => cases hstep
  | connect hub row session now =>
      obtain ⟨world, hworld, rfl⟩ := Option.map_eq_some_iff.mp hstep
      exact ⟨world, nofun, hworld, rfl⟩
  | start player id source now =>
      obtain ⟨world, hworld, rfl⟩ := Option.map_eq_some_iff.mp hstep
      exact ⟨world, nofun, hworld, rfl⟩
  | disconnect | reset | deleted | editor | change | poll => exact ⟨_, nofun, rfl, (Option.some.inj hstep).symm⟩
  | tick taken wait env =>
      obtain ⟨world, hworld, rfl⟩ := Option.map_eq_some_iff.mp hstep
      exact ⟨world, nofun, hworld, rfl⟩

theorem accounted_step {io : ProgramIo} {t : DeathServer} {e : DeathEvent} (h : s.Accounted [])
    (hstep : s.step io e = some t) : t.Accounted [] := by
  cases e with
  | world e =>
      obtain ⟨world, -, -, rfl⟩ := step_world_eq_some hstep
      exact h.setWorld world
  | hit kind player damage => exact Option.some.inj hstep ▸ h.hit kind player damage
  | respawn player | kill player => exact Option.some.inj hstep ▸ h.requestPlayerDeath player _
  | effects permits outcome aborts => exact Option.some.inj hstep ▸ (h.drain permits).applyDeaths outcome aborts

end Accounting

end DeathServer

end OpenMines
