import OpenMines.PendingDeaths
import OpenMines.PlayerHealth

namespace OpenMines

open Lib Lib.Run

namespace DeathServer

/-- A request that no hit made: the player's own, or the console's. -/
def Asked (s : DeathServer) (player : PlayerId) (request : Nat) : Prop :=
  ∃ cause, s.requests[request]? = some (player, cause) ∧ cause ≠ .hit

/-- The step brings no player back to life whose death waits. -/
def KeepsDown (player : PlayerId) (s : DeathServer) : DeathEvent → Prop
  | .world e => s.waiting player = [] ∨ s.world.KeepsDown player e
  | _ => True

/-- While a death waits the player is dead, or one of the requests was not made by a hit; and so it was with the deaths
that were applied. -/
structure Warranted (s : DeathServer) (admitted : List (PlayerId × List Nat)) (player : PlayerId) : Prop where
  registered : s.world.game.Registered
  open_ : (∃ request, s.Unserved admitted player request) →
    s.world.Down player ∨ ∃ request, s.Unserved admitted player request ∧ s.Asked player request
  applied : ∀ d ∈ s.applied, d.player = player → d.health ≤ 0 ∨ ∃ request ∈ d.requests, s.Asked player request

variable {s : DeathServer} {player : PlayerId} {admitted : List (PlayerId × List Nat)}

theorem warranted_empty : empty.Warranted [] player where
  registered := GameState.registered_new
  open_ := by
    rintro ⟨_, hwaits | ⟨_, hmem, _⟩⟩
    · cases hwaits
    · cases hmem
  applied := fun _ hmem => absurd hmem List.not_mem_nil

theorem Asked.made {request : Nat} (h : s.Asked player request) (other : PlayerId) (cause : DeathCause) :
    (s.made other cause).Asked player request := by
  obtain ⟨why, hrequest, hwhy⟩ := h
  exact ⟨why, (List.getElem?_append_left (List.getElem?_eq_some_iff.mp hrequest).1).trans hrequest, hwhy⟩

theorem unserved_nil {request : Nat} : s.Unserved [] player request ↔ request ∈ s.waiting player := by
  refine or_iff_left ?_
  rintro ⟨_, hmem, _⟩
  cases hmem

theorem Warranted.setWorld (h : s.Warranted admitted player) {world : ScheduledPrograms}
    (hregistered : world.game.Registered)
    (hdown : (∃ request, s.Unserved admitted player request) → s.world.Down player → world.Down player) :
    ({ s with world } : DeathServer).Warranted admitted player :=
  ⟨hregistered, fun hopen => (h.open_ hopen).imp (hdown hopen) id, h.applied⟩

/-- A request is made for a player that a hit has killed, or it is not made by a hit. -/
theorem Warranted.made (h : s.Warranted [] player) {other : PlayerId} {cause : DeathCause}
    (hcause : cause = .hit → other = player → s.world.Down player) : (s.made other cause).Warranted [] player := by
  refine ⟨h.registered, fun ⟨request, hopen⟩ => ?_,
    fun d hd hplayer => (h.applied d hd hplayer).imp id fun ⟨i, hi, hasked⟩ => ⟨i, hi, hasked.made other cause⟩⟩
  have hkeeps : ∀ i, s.Unserved [] player i → (s.made other cause).Unserved [] player i := by
    intro i hi
    rw [unserved_nil] at hi ⊢
    rw [waiting_made]
    split
    · exact List.mem_append_left _ hi
    · exact hi
  have hopened : (s.world.Down player ∨ ∃ i, s.Unserved [] player i ∧ s.Asked player i) →
      s.world.Down player ∨ ∃ i, (s.made other cause).Unserved [] player i ∧ (s.made other cause).Asked player i :=
    Or.imp id fun ⟨i, hi, hasked⟩ => ⟨i, hkeeps i hi, hasked.made other cause⟩
  by_cases hother : other = player
  · subst hother
    by_cases hhit : cause = .hit
    · exact .inl (hcause hhit rfl)
    · refine .inr ⟨s.requests.length, ?_, cause, List.getElem?_concat_length .., hhit⟩
      rw [unserved_nil, waiting_made, if_pos rfl]
      exact List.mem_append_right _ (List.mem_singleton.mpr rfl)
  · refine hopened (h.open_ ⟨request, ?_⟩)
    rw [unserved_nil, waiting_made, if_neg (Ne.symm hother)] at hopen
    exact unserved_nil.mpr hopen

theorem Warranted.requestPlayerDeath (h : s.Warranted [] player) {other : PlayerId} {cause : DeathCause}
    (hcause : cause = .hit → other = player → s.world.Down player) :
    (s.requestPlayerDeath other cause).Warranted [] player := by
  rw [DeathServer.requestPlayerDeath]
  split
  · exact h.made hcause
  · exact h

theorem Warranted.hit (h : s.Warranted [] player) (kind : HitKind) (other : PlayerId) (damage : Int32) :
    (s.hit kind other damage).Warranted [] player := by
  rw [DeathServer.hit]
  split
  · exact h
  · rename_i owner c hcomponent
    split
    · exact h
    · rename_i hhurts
      have hdamage : 0 < damage := Int32.not_le.mp fun hle => hhurts (.inl hle)
      have hregistered : (s.world.modifyPlayer other fun c => c.hurt kind damage).game.Registered :=
        ScheduledPrograms.Registered.modifyPlayer h.registered
      dsimp only
      split
      · rename_i hsurvives
        refine h.setWorld hregistered fun _ hdown =>
          ScheduledPrograms.down_modifyPlayer h.registered (fun _ => hdown) fun heq entity c' hc' => ?_
        subst heq
        obtain ⟨rfl, rfl⟩ := Prod.mk.inj (Option.some.inj (hcomponent.symm.trans hc'))
        exact absurd (hdown owner c hcomponent) (Int32.not_le.mpr (Int32.lt_trans hdamage hsurvives))
      · rename_i hdies
        have hdown : (other ≠ player → s.world.Down player) →
            (s.world.modifyPlayer other fun c => c.hurt kind damage).Down player := fun hold => by
          refine ScheduledPrograms.down_modifyPlayer h.registered hold fun heq entity c' hc' => ?_
          subst heq
          obtain ⟨rfl, rfl⟩ := Prod.mk.inj (Option.some.inj (hcomponent.symm.trans hc'))
          have hdead : (c.hurt kind damage).health = 0 := if_neg hdies
          exact hdead ▸ Int32.le_refl 0
        exact (h.setWorld hregistered fun _ hold => hdown fun _ => hold).requestPlayerDeath
          fun _ heq => hdown fun hne => absurd heq hne

/-- The player that waited waits on, or its death is admitted. -/
theorem Warranted.drain (h : s.Warranted [] player) (haccounted : s.Accounted []) (permits : Nat) :
    ({ s with requested := .empty, backlog := (s.drained.take permits).2 } : DeathServer).Warranted
      (s.drained.take permits).1 player := by
  have hunserved : ∀ request,
      ({ s with requested := .empty, backlog := (s.drained.take permits).2 } : DeathServer).Unserved
        (s.drained.take permits).1 player request ↔ s.Unserved [] player request := fun request =>
    (unserved_drain haccounted permits).trans unserved_nil.symm
  refine ⟨h.registered, fun ⟨request, hopen⟩ => ?_, h.applied⟩
  refine (h.open_ ⟨request, (hunserved request).mp hopen⟩).imp id ?_
  rintro ⟨i, hi, hasked⟩
  exact ⟨i, (hunserved i).mpr hi, hasked⟩

/-- A death that is applied to another player, or to nobody, leaves the rest as it is. -/
theorem Warranted.tail {death : PlayerId × List Nat} (h : s.Warranted (death :: admitted) player)
    (haccounted : s.Accounted (death :: admitted)) {world : ScheduledPrograms}
    (hregistered : world.game.Registered) (hdown : death.1 ≠ player → s.world.Down player → world.Down player) :
    ({ s with world } : DeathServer).Warranted admitted player := by
  refine ⟨hregistered, fun ⟨request, hopen⟩ => ?_, h.applied⟩
  have hother : death.1 ≠ player := by
    rintro rfl
    obtain ⟨-, -, hnone⟩ := haccounted.admitted death List.mem_cons_self
    rcases hopen with hwaits | ⟨why, hmem, -⟩
    · exact List.not_mem_nil (hnone ▸ hwaits)
    · exact (List.nodup_cons.mp haccounted.players_nodup).1 (List.mem_map.mpr ⟨_, hmem, rfl⟩)
  have htail : ∀ i, s.Unserved (death :: admitted) player i ↔ s.Unserved admitted player i := by
    refine fun i => or_congr_right (exists_congr fun why => and_congr_left fun _ => ?_)
    rw [List.mem_cons]
    exact or_iff_right fun heq => hother (congrArg Prod.fst heq).symm
  refine (h.open_ ⟨request, (htail request).mpr hopen⟩).imp (hdown hother) ?_
  rintro ⟨i, hi, hasked⟩
  exact ⟨i, (htail i).mp hi, hasked⟩

theorem Warranted.applyDeath {death : PlayerId × List Nat} (h : s.Warranted (death :: admitted) player)
    (haccounted : s.Accounted (death :: admitted)) (outcome : PlayerId → RespawnOutcome) (aborts : PlayerId → Bool) :
    (applyDeath outcome aborts s death).Warranted admitted player := by
  have hmodified : ∀ f : PlayerEntity PlayerProgram → PlayerEntity PlayerProgram,
      ({ s with world := s.world.modifyPlayer death.1 f } : DeathServer).Warranted admitted player := fun f =>
    h.tail haccounted (ScheduledPrograms.Registered.modifyPlayer h.registered) fun hother hdown =>
      ScheduledPrograms.down_modifyPlayer h.registered (fun _ => hdown) fun heq => absurd heq hother
  rw [DeathServer.applyDeath]
  split
  · exact h.tail haccounted h.registered fun _ => id
  · rename_i owner c hcomponent
    split
    · exact hmodified _
    · obtain ⟨hregistered, hopen, happlied⟩ := hmodified fun c => c.die (outcome death.1)
      refine ⟨hregistered, hopen, fun d hd hplayer => ?_⟩
      rcases List.mem_append.mp hd with hold | hnew
      · exact happlied d hold hplayer
      · obtain rfl := List.mem_singleton.mp hnew
        subst hplayer
        obtain ⟨hne, -, hnone⟩ := haccounted.admitted death List.mem_cons_self
        obtain ⟨request, hrequest⟩ := List.exists_mem_of_ne_nil _ hne
        refine (h.open_ ⟨request, .inr ⟨death.2, List.mem_cons_self, hrequest⟩⟩).imp
          (fun hdown => hdown owner c hcomponent) ?_
        rintro ⟨i, hwaits | ⟨why, hmem, hi⟩, hasked⟩
        · exact absurd (hnone ▸ hwaits) List.not_mem_nil
        · rcases List.mem_cons.mp hmem with heq | hlater
          · exact ⟨i, congrArg Prod.snd heq ▸ hi, hasked⟩
          · exact absurd (List.mem_map.mpr ⟨_, hlater, rfl⟩) (List.nodup_cons.mp haccounted.players_nodup).1

theorem Warranted.applyDeaths (h : s.Warranted admitted player) (haccounted : s.Accounted admitted)
    (outcome : PlayerId → RespawnOutcome) (aborts : PlayerId → Bool) :
    (admitted.foldl (DeathServer.applyDeath outcome aborts) s).Warranted [] player := by
  induction admitted generalizing s with
  | nil => exact h
  | cons death admitted ih =>
      exact ih (h.applyDeath haccounted outcome aborts) (haccounted.applyDeath outcome aborts)

theorem warranted_step {io : ProgramIo} {t : DeathServer} {e : DeathEvent} (h : s.Warranted [] player)
    (haccounted : s.Accounted []) (hkeeps : s.KeepsDown player e) (hstep : s.step io e = some t) :
    t.Warranted [] player := by
  cases e with
  | world e =>
      obtain ⟨world, -, hworld, rfl⟩ := step_world_eq_some hstep
      refine h.setWorld (ScheduledPrograms.registered_step h.registered hworld) ?_
      rintro ⟨request, hopen⟩ hdown
      have hkeeps := hkeeps.resolve_left fun hnone => List.not_mem_nil (hnone ▸ unserved_nil.mp hopen)
      exact ScheduledPrograms.down_step hdown h.registered hkeeps hworld
  | hit kind other damage => exact Option.some.inj hstep ▸ h.hit kind other damage
  | respawn other | kill other => exact Option.some.inj hstep ▸ h.requestPlayerDeath nofun
  | effects permits outcome aborts =>
      exact Option.some.inj hstep ▸
        (h.drain haccounted permits).applyDeaths (haccounted.drain permits) outcome aborts

/-- Each death that is applied serves requests for it that no other death serves. Where nothing brought the player back
to life while its death waited, it is dead then, or one of the requests was not made by a hit. -/
theorem applied_warranted {io : ProgramIo} {es : List DeathEvent} {t : DeathServer}
    (hrun : run (step io) empty es = some t) :
    t.served.Nodup ∧ ∀ d ∈ t.applied,
      d.requests ≠ [] ∧ (∀ request ∈ d.requests, ∃ cause, t.requests[request]? = some (d.player, cause)) ∧
        (Meets (step io) (KeepsDown d.player) empty es →
          d.health ≤ 0 ∨ ∃ request ∈ d.requests, t.Asked d.player request) := by
  have haccounted : t.Accounted [] :=
    run_preserves (P := fun u : DeathServer => u.Accounted []) accounted_empty
      (fun _ _ _ _ hu huv => accounted_step hu huv) hrun
  refine ⟨haccounted.served_nodup, fun d hd => ⟨(haccounted.applied d hd).1, (haccounted.applied d hd).2, ?_⟩⟩
  intro hmeets
  have hwarranted := run_preserves_of_meets (P := fun u : DeathServer => u.Accounted [] ∧ u.Warranted [] d.player)
    ⟨accounted_empty, warranted_empty⟩ hmeets
    (fun e u v hu hcond huv => ⟨accounted_step hu.1 huv, warranted_step hu.2 hu.1 hcond huv⟩) hrun
  exact hwarranted.2.applied d hd rfl

section Runs

/-- The queue of the saves is full for a tick: the death waits. -/
def heldBack : List DeathEvent :=
  [.world (.connect SessionHub.new.open.1 ScheduledPrograms.miner 1 0), .hit .gun 7 100,
    .effects 0 (fun _ => ⟨true, (52, 50), 0⟩) fun _ => false, .effects 1 (fun _ => ⟨true, (52, 50), 0⟩) fun _ => false]

def healedBefore : List DeathEvent :=
  [.world (.connect SessionHub.new.open.1 ScheduledPrograms.miner 1 0), .hit .gun 7 100,
    .effects 0 (fun _ => ⟨true, (52, 50), 0⟩) fun _ => false, .world (.change 7 fun c => { c with health := 30 }),
    .effects 1 (fun _ => ⟨true, (52, 50), 0⟩) fun _ => false]

def killedByConsole : List DeathEvent :=
  [.world (.connect SessionHub.new.open.1 ScheduledPrograms.miner 1 0), .kill 7,
    .effects 1 (fun _ => ⟨true, (52, 50), 0⟩) fun _ => false]

/-- What a run has applied, and the requests that were made. -/
def outcome (es : List DeathEvent) : Option (List AppliedDeath × List (PlayerId × DeathCause)) :=
  (run (step ScheduledPrograms.textOnly) empty es).map fun t => (t.applied, t.requests)

theorem run_of_outcome {es : List DeathEvent} {applied : List AppliedDeath} {requests : List (PlayerId × DeathCause)}
    (h : outcome es = some (applied, requests)) :
    ∃ t, run (step ScheduledPrograms.textOnly) empty es = some t ∧ t.applied = applied ∧ t.requests = requests := by
  obtain ⟨t, ht, heq⟩ := Option.map_eq_some_iff.mp h
  exact ⟨t, ht, congrArg Prod.fst heq, congrArg Prod.snd heq⟩

theorem heldBack_warranted : ∃ t, run (step ScheduledPrograms.textOnly) empty heldBack = some t ∧
    t.applied = [⟨7, 0, [0]⟩] ∧ t.served.Nodup ∧
      ∀ d ∈ t.applied, d.health ≤ 0 ∨ ∃ request ∈ d.requests, t.Asked d.player request := by
  have houtcome : outcome heldBack = some ([⟨7, 0, [0]⟩], [(7, .hit)]) := by decide
  obtain ⟨t, ht, happlied, -⟩ := run_of_outcome houtcome
  obtain ⟨hnodup, hwarranted⟩ := applied_warranted ht
  refine ⟨t, ht, happlied, hnodup, fun d hd => (hwarranted d hd).2.2 ?_⟩
  exact ⟨.inl rfl, fun _ _ => ⟨trivial, fun _ _ => ⟨trivial, fun _ _ => ⟨trivial, fun _ _ => trivial⟩⟩⟩⟩

/-- A death is applied to a healthy player that asked for no respawn: the console asked for it, or the player was healed
while it waited. -/
theorem healthy_player_dies :
    (∃ t, run (step ScheduledPrograms.textOnly) empty killedByConsole = some t ∧
      t.applied = [⟨7, 100, [0]⟩] ∧ t.requests = [(7, .kill)]) ∧
    ∃ t, run (step ScheduledPrograms.textOnly) empty healedBefore = some t ∧
      t.applied = [⟨7, 30, [0]⟩] ∧ t.requests = [(7, .hit)] :=
  ⟨run_of_outcome (by decide), run_of_outcome (by decide)⟩

end Runs

end DeathServer

end OpenMines
