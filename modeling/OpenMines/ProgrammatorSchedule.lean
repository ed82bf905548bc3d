import OpenMines.Lib.DueSchedule
import OpenMines.Lib.Run
import OpenMines.Lifecycle
import OpenMines.ProgrammatorPanics

namespace OpenMines

open Lib Lib.CheckedInt Lib.Run

/-- The component `ProgrammatorState` of a player, with the program that is selected in the editor. -/
structure PlayerProgram where
  prog : ProgrammatorState
  selectedId : Option Int32
  selectedData : Option String

/-- What the programs need from outside: the codecs, the form of the snapshots, the health that the skills give. -/
structure ProgramIo where
  codec : ProgramCodec
  fromSnapshot : String → Option PlayerProgram
  toSnapshot : PlayerProgram → Option String
  onHealthMax : SkillSlots → Int32

/-- A text that fits into an allocation. -/
def Source.ofString (code : String) : Option Source :=
  if h : Lib.Utf8.byteLen code.toList ≤ 9223372036854775807 then some ⟨code.toList, h⟩ else none

namespace PlayerProgram

def runProgram (io : ProgramIo) (now : Nat) (p : PlayerProgram) (code : String) : Checked PlayerProgram := do
  let source ← Source.ofString code
  return { p with prog := ← p.prog.runProgram io.codec source now }

def restoreSnapshot (now : Nat) (p snapshot : PlayerProgram) : PlayerProgram :=
  { snapshot with prog := { snapshot.prog with delay := now, startedAt := p.prog.startedAt } }

def select (p : PlayerProgram) (id : Int32) (code : String) : PlayerProgram :=
  { p with selectedId := some id, selectedData := some code }

/-- What a connection and its end do with the component. Where the parser panics there is no connection, see
`ScheduledPrograms.connect`. -/
def ops (io : ProgramIo) (now : Nat) : PlayerOps PlayerProgram where
  newProgrammator := ⟨.new now, none, none⟩
  select p program := p.select program.id program.code
  restoreSnapshot p text := (io.fromSnapshot text).elim p (p.restoreSnapshot now)
  runProgram p code := (p.runProgram io now code).getD p
  running p := p.prog.running
  selectedId := selectedId
  snapshot := io.toSnapshot
  onHealthMax := io.onHealthMax

end PlayerProgram

abbrev ProgrammatorDueSchedule := DueSchedule Entity

def programmatorDueBatchBudget : Nat := 256

/-- The players, the schedule of their programs, and all that the programs have asked for. -/
structure ScheduledPrograms where
  game : GameState PlayerProgram
  schedule : ProgrammatorDueSchedule
  queue : List ProgrammatorAction

/-- What a death comes to: whether the respawn is free, where it is, and what it costs. -/
structure RespawnOutcome where
  isFreeResp : Bool
  pos : Int32 × Int32
  cost : Int64

namespace PlayerEntity

variable (c : PlayerEntity PlayerProgram)

/-- What `programmator_system` reads of a player; the rest is that of `env`. -/
def context (env : ProgrammatorContext) (now : Nat) : ProgrammatorContext :=
  { env with
    player := c.id
    session := c.connection
    pos := ⟨c.x, c.y, c.dir⟩
    health := c.health
    maxHealth := c.maxHealth
    crystals := c.crystals
    autoDig := c.autoDig
    aggression := c.aggression
    now }

/-- `apply_player_death_core`, as far as the player itself goes. -/
def die (o : RespawnOutcome) : PlayerEntity PlayerProgram :=
  { c with
    x := o.pos.1
    y := o.pos.2
    crystals := if 0 < (c.crystals.toList.map Int64.toInt).sum then Vector.replicate 6 0 else c.crystals
    money := c.money - o.cost
    health := c.maxHealth
    dirty := true
    programmator := { c.programmator with prog := c.programmator.prog.die o.isFreeResp } }

def tick (ticked : Ticked) : PlayerEntity PlayerProgram :=
  { c with programmator := { c.programmator with prog := ticked.prog }, dirty := c.dirty || ticked.dirty }

end PlayerEntity

inductive ScheduleEvent
  | connect (hub : SessionHub) (row : PlayerRow) (session : SessionId) (now : Nat)
  | disconnect (player : PlayerId) (session : SessionId) (now : Nat)
  /-- `apply_saved_program_to_tick_state`: a saved program is started. -/
  | start (player : PlayerId) (id : Int32) (source : String) (now : Nat)
  /-- `pRST`. -/
  | reset (player : PlayerId)
  /-- `clear_deleted_program_runtime`. -/
  | deleted (player : PlayerId) (id : Int32)
  | editor (player : PlayerId) (id : Int32) (source : String)
  /-- The rest of the game changes a player, but not its program. -/
  | change (player : PlayerId) (f : PlayerEntity PlayerProgram → PlayerEntity PlayerProgram)
  | death (player : PlayerId) (o : RespawnOutcome)
  /-- The loop asks when the next program is due. -/
  | poll
  /-- The schedule of the programs runs, `wait` after its batch was taken. -/
  | tick (taken wait : Nat) (env : Entity → ProgrammatorContext)

namespace ScheduledPrograms

def empty : ScheduledPrograms := ⟨.new, .empty, []⟩

/-- `get_player_entity`, with the component. -/
def component (s : ScheduledPrograms) (player : PlayerId) : Option (Entity × PlayerEntity PlayerProgram) :=
  (s.game.playerEntities player).bind fun entity => (s.game.ecs entity).map fun c => (entity, c)

def put (s : ScheduledPrograms) (entity : Entity) (c : PlayerEntity PlayerProgram) : ScheduledPrograms :=
  { s with game := { s.game with ecs := Function.update s.game.ecs entity (some c) } }

def modifyPlayer (s : ScheduledPrograms) (player : PlayerId)
    (f : PlayerEntity PlayerProgram → PlayerEntity PlayerProgram) : ScheduledPrograms :=
  match s.component player with
  | some (entity, c) => s.put entity (f c)
  | none => s

def modifyProgram (s : ScheduledPrograms) (player : PlayerId) (f : PlayerProgram → PlayerProgram) :
    ScheduledPrograms :=
  s.modifyPlayer player fun c => { c with programmator := f c.programmator }

/-- A program that runs is scheduled for its deadline. -/
def scheduleRunning (s : ScheduledPrograms) (player : PlayerId) : ScheduledPrograms :=
  match s.component player with
  | some (entity, c) =>
      if c.programmator.prog.running then
        { s with schedule := s.schedule.schedule entity c.programmator.prog.delay }
      else s
  | none => s

/-- The program that a connection starts when it spawns the entity. -/
def startsProgram (row : PlayerRow) : Option String :=
  match row.programmatorSnapshot, row.programmatorRunning with
  | none, true => row.selectedProgram.map ProgramRow.code
  | _, _ => none

def connect (io : ProgramIo) (s : ScheduledPrograms) (hub : SessionHub) (row : PlayerRow) (session : SessionId)
    (now : Nat) : Checked ScheduledPrograms :=
  if hub.isOpen session then
    if s.component row.id = none ∧
        ∃ code ∈ startsProgram row, PlayerProgram.runProgram io now ⟨.new now, none, none⟩ code = none then none
    else
      some ({ s with game := s.game.connectEntityInTick (PlayerProgram.ops io now) hub row session }.scheduleRunning
        row.id)
  else some s

def start (io : ProgramIo) (s : ScheduledPrograms) (player : PlayerId) (id : Int32) (source : String) (now : Nat) :
    Checked ScheduledPrograms :=
  match s.component player with
  | some (entity, c) => do
      let started ← (c.programmator.select id source).runProgram io now source
      return (s.put entity { c with programmator := started }).scheduleRunning player
  | none => some s

def death (s : ScheduledPrograms) (player : PlayerId) (o : RespawnOutcome) : ScheduledPrograms :=
  s.modifyPlayer player fun c => c.die o

/-- The round of `programmator_system` for one entry of its batch. -/
def runEntry (now : Nat) (env : Entity → ProgrammatorContext) (s : ScheduledPrograms) (entry : Entity × Nat) :
    Checked ScheduledPrograms :=
  match s.game.ecs entry.1 with
  | some c => do
      let ticked ← programmatorSystem c.programmator.prog (c.context (env entry.1) now) entry.2
      return { s.put entry.1 (c.tick ticked) with
        schedule := ticked.due.elim s.schedule (s.schedule.schedule entry.1)
        queue := s.queue ++ ticked.queue }
  | none => some s

def step (io : ProgramIo) (s : ScheduledPrograms) : ScheduleEvent → Checked ScheduledPrograms
  | .connect hub row session now => s.connect io hub row session now
  | .disconnect player session now =>
      some { s with game := (s.game.disconnectInTick (PlayerProgram.ops io now) player session).1 }
  | .start player id source now => s.start io player id source now
  | .reset player =>
      some (s.modifyProgram player fun p =>
        if p.prog.running then { p with prog := p.prog.stopProgram } else p)
  | .deleted player id =>
      some (s.modifyProgram player fun p =>
        if p.selectedId = some id then ⟨{ p.prog with running := false }, none, none⟩ else p)
  | .editor player id source => some (s.modifyProgram player fun p => p.select id source)
  | .change player f => some (s.modifyPlayer player fun c => { f c with programmator := c.programmator })
  | .death player o => some (s.death player o)
  | .poll => some { s with schedule := s.schedule.discardStaleHead }
  | .tick taken wait env =>
      let popped := s.schedule.popDue taken programmatorDueBatchBudget
      run (runEntry (taken + wait) env) { s with schedule := popped.2 } popped.1

/-- A program that runs waits in the schedule for its deadline. -/
def Waits (s : ScheduledPrograms) (entity : Entity) : Prop :=
  ∀ c, s.game.ecs entity = some c → c.programmator.prog.running →
    s.schedule.scheduled entity = some c.programmator.prog.delay

/-- The schedule holds each program that runs, with its deadline and no other. -/
def Scheduled (s : ScheduledPrograms) : Prop :=
  ∀ entity c, s.game.ecs entity = some c → c.programmator.prog.running →
    ∀ dueAt, s.schedule.Holds entity dueAt ↔ dueAt = c.programmator.prog.delay

/-- The schedule of the programs takes no entry of a program that runs while its player is dead. -/
def Spares (s : ScheduledPrograms) : ScheduleEvent → Prop
  | .tick taken _ _ =>
      ∀ entry ∈ (s.schedule.popDue taken programmatorDueBatchBudget).1, ∀ c, s.game.ecs entry.1 = some c →
        c.programmator.prog.running → 0 < c.health
  | _ => True

variable {io : ProgramIo} {s t : ScheduledPrograms} {entity : Entity} {player : PlayerId}
  {c : PlayerEntity PlayerProgram}

theorem scheduled_iff (h : s.schedule.Sound) : s.Scheduled ↔ ∀ entity, s.Waits entity := by
  refine forall_congr' fun entity => forall_congr' fun c => imp_congr_right fun _ => imp_congr_right fun _ => ?_
  constructor
  · intro hholds
    exact h.holds_iff.mp ((hholds _).mpr rfl)
  · intro hwaits dueAt
    rw [h.holds_iff, hwaits, Option.some_inj, eq_comm]

theorem component_eq_some :
    s.component player = some (entity, c) ↔
      s.game.playerEntities player = some entity ∧ s.game.ecs entity = some c := by
  rw [component, Option.bind_eq_some_iff]
  constructor
  · rintro ⟨e, he, hc⟩
    obtain ⟨c', hc', heq⟩ := Option.map_eq_some_iff.mp hc
    obtain ⟨rfl, rfl⟩ := Prod.mk.inj heq
    exact ⟨he, hc'⟩
  · rintro ⟨he, hc⟩
    exact ⟨entity, he, Option.map_eq_some_iff.mpr ⟨c, hc, rfl⟩⟩

@[simp] theorem put_ecs (s : ScheduledPrograms) (entity : Entity) (c : PlayerEntity PlayerProgram) :
    (s.put entity c).game.ecs = Function.update s.game.ecs entity (some c) := rfl

/-- What waits still does where neither the program nor its deadline in the schedule changes. -/
theorem Waits.congr (h : s.Waits entity)
    (hprogram : ∀ c', t.game.ecs entity = some c' → c'.programmator.prog.running → ∃ c, s.game.ecs entity = some c ∧
      c.programmator.prog.running ∧ c'.programmator.prog.delay = c.programmator.prog.delay)
    (hschedule : t.schedule.scheduled entity = s.schedule.scheduled entity) : t.Waits entity := by
  intro c' hc' hrunning'
  obtain ⟨c, hc, hrunning, hdelay⟩ := hprogram c' hc' hrunning'
  rw [hschedule, hdelay]
  exact h c hc hrunning

theorem Waits.put_of_ne (h : s.Waits entity) {other : Entity} (hne : entity ≠ other)
    (c : PlayerEntity PlayerProgram) :
    (s.put other c).Waits entity := by
  refine h.congr (fun c' hc' hrunning => ⟨c', ?_, hrunning, rfl⟩) rfl
  rwa [put_ecs, Function.update_of_ne hne] at hc'

/-- A change that starts no program, and moves no deadline, leaves what waits. -/
theorem waits_modifyPlayer {f : PlayerEntity PlayerProgram → PlayerEntity PlayerProgram}
    (h : ∀ entity, s.Waits entity)
    (hf : ∀ c, (f c).programmator.prog.running → c.programmator.prog.running ∧
      (f c).programmator.prog.delay = c.programmator.prog.delay) :
    ∀ entity, (s.modifyPlayer player f).Waits entity := by
  intro e
  rw [modifyPlayer]
  split
  · rename_i owner c hcomponent
    by_cases he : e = owner
    · subst he
      refine (h e).congr (fun c' hc' hrunning => ?_) rfl
      rw [put_ecs, Function.update_self] at hc'
      obtain rfl := Option.some.inj hc'
      exact ⟨c, (component_eq_some.mp hcomponent).2, hf c hrunning⟩
    · exact (h e).put_of_ne he _
  · exact h e

theorem waits_scheduleRunning (h : ∀ entity, s.game.playerEntities player ≠ some entity → s.Waits entity) :
    ∀ entity, (s.scheduleRunning player).Waits entity := by
  intro e c hc hrunning
  rw [scheduleRunning] at hc ⊢
  split
  · rename_i owner c' hcomponent
    obtain ⟨howner, hecs⟩ := component_eq_some.mp hcomponent
    rw [hcomponent] at hc
    by_cases he : e = owner
    · subst he
      have hsame : s.game.ecs e = some c := by
        dsimp only at hc
        split at hc <;> exact hc
      obtain rfl := Option.some.inj (hecs.symm.trans hsame)
      rw [if_pos hrunning]
      exact Function.update_self ..
    · have hwaits := h e fun heq => he (Option.some.inj (heq.symm.trans howner))
      dsimp only at hc
      split
      · rename_i hstarts
        rw [if_pos hstarts] at hc
        exact (Function.update_of_ne he ..).trans (hwaits c hc hrunning)
      · rename_i hidle
        rw [if_neg hidle] at hc
        exact hwaits c hc hrunning
  · rename_i hcomponent
    rw [hcomponent] at hc
    refine h e (fun howner => ?_) c hc hrunning
    have hsome := component_eq_some.mpr ⟨howner, hc⟩
    rw [hcomponent] at hsome
    cases hsome

/-- A connection changes no program but that of the entity it leaves to its player. -/
theorem programmator_connect (ops : PlayerOps PlayerProgram) (g : GameState PlayerProgram) {hub : SessionHub}
    {row : PlayerRow} {session : SessionId} (hopen : hub.isOpen session = true)
    (hentity : (g.connectEntityInTick ops hub row session).playerEntities row.id ≠ some entity) :
    ((g.connectEntityInTick ops hub row session).ecs entity).map PlayerEntity.programmator =
      (g.ecs entity).map PlayerEntity.programmator := by
  have hspawn : ∀ g' : GameState PlayerProgram, g'.ecs = g.ecs →
      (g'.spawnEntity ops row session).playerEntities row.id ≠ some entity →
      ((g'.spawnEntity ops row session).ecs entity).map PlayerEntity.programmator =
        (g.ecs entity).map PlayerEntity.programmator := by
    intro g' hecs hother
    have hne : entity ≠ g'.nextEntity := fun heq => hother (heq ▸ Function.update_self ..)
    exact congrArg _ ((Function.update_of_ne hne ..).trans (congrFun hecs entity))
  rw [GameState.connectEntityInTick, if_pos hopen] at hentity ⊢
  dsimp only at hentity ⊢
  split
  · rename_i howner
    rw [howner] at hentity
    exact hspawn _ rfl hentity
  · rename_i owner howner
    rw [howner] at hentity
    dsimp only at hentity
    split
    · rename_i hgone
      rw [hgone] at hentity
      exact hspawn _ rfl hentity
    · rename_i c hc
      by_cases he : entity = owner
      · subst he
        refine (congrArg _ (Function.update_self ..)).trans ?_
        exact (Option.map_map ..).trans rfl
      · exact congrArg _ (Function.update_of_ne he ..)

theorem Waits.of_programmator (h : s.Waits entity)
    (hprogrammator : (t.game.ecs entity).map PlayerEntity.programmator =
      (s.game.ecs entity).map PlayerEntity.programmator)
    (hschedule : t.schedule.scheduled entity = s.schedule.scheduled entity) : t.Waits entity := by
  refine h.congr (fun c' hc' hrunning => ?_) hschedule
  rw [hc', Option.map_some] at hprogrammator
  obtain ⟨c, hc, heq⟩ := Option.map_eq_some_iff.mp hprogrammator.symm
  exact ⟨c, hc, heq ▸ hrunning, heq ▸ rfl⟩

theorem waits_connect {hub : SessionHub} {row : PlayerRow} {session : SessionId} {now : Nat}
    (h : ∀ entity, s.Waits entity) (hstep : s.connect io hub row session now = some t) (entity : Entity) :
    t.Waits entity := by
  rw [connect] at hstep
  split at hstep
  · rename_i hopen
    split at hstep
    · cases hstep
    · obtain rfl := Option.some.inj hstep
      refine waits_scheduleRunning ?_ entity
      intro e he
      exact (h e).of_programmator (programmator_connect _ _ hopen he) rfl
  · exact Option.some.inj hstep ▸ h entity

theorem waits_disconnect {session : SessionId} {now : Nat} (h : s.Waits entity) :
    ({ s with game := (s.game.disconnectInTick (PlayerProgram.ops io now) player session).1 } :
      ScheduledPrograms).Waits entity := by
  rw [GameState.disconnectInTick]
  split
  · exact h
  · rename_i owner _
    dsimp only
    split
    · refine h.of_programmator ?_ rfl
      by_cases he : entity = owner
      · subst he
        refine (congrArg _ (Function.update_self ..)).trans ?_
        exact (Option.map_map ..).trans rfl
      · exact congrArg _ (Function.update_of_ne he ..)
    · refine h.congr (fun c hc hrunning => ⟨c, ?_, hrunning, rfl⟩) rfl
      by_cases he : entity = owner
      · subst he
        cases (Function.update_self ..).symm.trans hc
      · exact (Function.update_of_ne he ..).symm.trans hc

theorem waits_start {id : Int32} {source : String} {now : Nat} (h : ∀ entity, s.Waits entity)
    (hstep : s.start io player id source now = some t) (entity : Entity) : t.Waits entity := by
  rw [start] at hstep
  split at hstep
  · rename_i owner c hcomponent
    obtain ⟨howner, -⟩ := component_eq_some.mp hcomponent
    obtain ⟨started, -, ht⟩ := Option.bind_eq_some_iff.mp hstep
    obtain rfl := Option.some.inj ht
    refine waits_scheduleRunning (fun e he => (h e).put_of_ne ?_ _) entity
    exact fun heq => he (heq ▸ howner)
  · exact Option.some.inj hstep ▸ h entity

theorem die_programmator {o : RespawnOutcome} (h : (c.die o).programmator.prog.running) :
    c.programmator.prog.running ∧ (c.die o).programmator.prog.delay = c.programmator.prog.delay := by
  have hdie : ∀ prog : ProgrammatorState, (prog.die o.isFreeResp).running = true →
      prog.running = true ∧ (prog.die o.isFreeResp).delay = prog.delay := by
    intro prog hrunning
    rw [ProgrammatorState.die] at hrunning ⊢
    split at hrunning
    · rename_i hruns
      refine ⟨hruns, ?_⟩
      rw [if_pos hruns]
      split
      · rfl
      · rfl
    · exact ⟨hrunning, by rw [if_neg (by assumption)]⟩
  exact hdie c.programmator.prog h

theorem scheduleNextStep_due {prog : ProgrammatorState} {ctx : ProgrammatorContext} {queue : List ProgrammatorAction}
    {delay : Option Nat} (h : (scheduleNextStep prog ctx queue delay).prog.running) :
    (scheduleNextStep prog ctx queue delay).due = some (scheduleNextStep prog ctx queue delay).prog.delay := by
  rw [scheduleNextStep] at h ⊢
  split at h
  · rename_i hrunning
    rw [if_pos hrunning]
  · exact absurd h (by assumption)

/-- A program that was due and still runs is due again, when it says. -/
theorem programmatorSystem_due {prog : ProgrammatorState} {ctx : ProgrammatorContext} {dueAt : Nat} {ticked : Ticked}
    (h : programmatorSystem prog ctx dueAt = some ticked) (hdue : prog.isDue ctx dueAt = true)
    (hrunning : ticked.prog.running) : ticked.due = some ticked.prog.delay := by
  rw [programmatorSystem, if_pos hdue] at h
  split at h
  · obtain rfl := Option.some.inj h
    cases hrunning
  · split at h
    · obtain ⟨next, -, hnext⟩ := Option.bind_eq_some_iff.mp h
      obtain rfl := Option.some.inj hnext
      exact scheduleNextStep_due hrunning
    · obtain ⟨action, -, hrun⟩ := Option.bind_eq_some_iff.mp h
      obtain ⟨executed, -, hexecuted⟩ := Option.bind_eq_some_iff.mp hrun
      obtain ⟨handled, -, hhandled⟩ := Option.bind_eq_some_iff.mp hexecuted
      obtain rfl := Option.some.inj hhandled
      exact scheduleNextStep_due hrunning

theorem programmatorSystem_idle {prog : ProgrammatorState} {ctx : ProgrammatorContext} {dueAt : Nat}
    (hidle : prog.isDue ctx dueAt = false) : programmatorSystem prog ctx dueAt = some ⟨prog, [], none, false⟩ := by
  rw [programmatorSystem, hidle]
  exact if_neg Bool.false_ne_true

theorem isDue_eq_true {env : ProgrammatorContext} {now dueAt : Nat} :
    c.programmator.prog.isDue (c.context env now) dueAt = true ↔
      0 < c.health ∧ c.programmator.prog.running ∧ c.programmator.prog.delay = dueAt ∧
        c.programmator.prog.delay ≤ now := by
  rw [ProgrammatorState.isDue, Bool.and_eq_true, Bool.and_eq_true, Bool.and_eq_true, decide_eq_true_iff,
    decide_eq_true_iff, beq_iff_eq, and_assoc, and_assoc]
  exact Iff.rfl

section Batch

variable {now : Nat} {env : Entity → ProgrammatorContext} {entry : Entity × Nat} {rest : List (Entity × Nat)}

theorem runEntry_eq_some (hc : s.game.ecs entry.1 = some c) (h : runEntry now env s entry = some t) :
    ∃ ticked, programmatorSystem c.programmator.prog (c.context (env entry.1) now) entry.2 = some ticked ∧
      t.game.ecs = Function.update s.game.ecs entry.1 (some (c.tick ticked)) ∧
      t.schedule = ticked.due.elim s.schedule (s.schedule.schedule entry.1) := by
  rw [runEntry, hc] at h
  obtain ⟨ticked, hticked, ht⟩ := Option.bind_eq_some_iff.mp h
  obtain rfl := Option.some.inj ht
  exact ⟨ticked, hticked, rfl, rfl⟩

theorem runEntry_none (hc : s.game.ecs entry.1 = none) (h : runEntry now env s entry = some t) : t = s := by
  rw [runEntry, hc] at h
  exact (Option.some.inj h).symm

/-- An entry changes no player but its own. -/
theorem runEntry_of_ne (h : runEntry now env s entry = some t) (hne : entity ≠ entry.1) :
    t.game.ecs entity = s.game.ecs entity ∧ t.schedule.scheduled entity = s.schedule.scheduled entity := by
  cases hc : s.game.ecs entry.1 with
  | none => exact runEntry_none hc h ▸ ⟨rfl, rfl⟩
  | some c =>
      obtain ⟨ticked, -, hecs, hschedule⟩ := runEntry_eq_some hc h
      rw [hecs, hschedule]
      refine ⟨Function.update_of_ne hne .., ?_⟩
      cases ticked.due with
      | none => rfl
      | some due => exact Function.update_of_ne hne ..

/-- What is left of a batch is due to programs of the living; every other program waits. -/
def Pending (now : Nat) (rest : List (Entity × Nat)) (s : ScheduledPrograms) : Prop :=
  ∀ entity, s.Waits entity ∨ ∃ dueAt, (entity, dueAt) ∈ rest ∧ dueAt ≤ now ∧
    ∀ c, s.game.ecs entity = some c → c.programmator.prog.running →
      c.programmator.prog.delay = dueAt ∧ 0 < c.health

theorem pending_runEntry (h : s.Pending now (entry :: rest)) (hnodup : ((entry :: rest).map Prod.fst).Nodup)
    (hstep : runEntry now env s entry = some t) : t.Pending now rest := by
  have hnot : ∀ dueAt, (entry.1, dueAt) ∉ rest := fun dueAt hmem =>
    (List.nodup_cons.mp hnodup).1 (List.mem_map.mpr ⟨_, hmem, rfl⟩)
  intro e
  by_cases he : e = entry.1
  · subst he
    left
    cases hc : s.game.ecs entry.1 with
    | none =>
        obtain rfl := runEntry_none hc hstep
        intro c' hc'
        cases hc.symm.trans hc'
    | some c =>
        obtain ⟨ticked, hticked, hecs, hschedule⟩ := runEntry_eq_some hc hstep
        intro c' hc' hrunning
        rw [hecs, Function.update_self] at hc'
        obtain rfl := Option.some.inj hc'
        rw [hschedule]
        cases hdue : c.programmator.prog.isDue (c.context (env entry.1) now) entry.2 with
        | true =>
            have hagain : ticked.due = some ticked.prog.delay := programmatorSystem_due hticked hdue hrunning
            rw [hagain]
            exact Function.update_self ..
        | false =>
            obtain rfl := Option.some.inj ((programmatorSystem_idle hdue).symm.trans hticked)
            rcases h entry.1 with hwaits | ⟨dueAt, hmem, hnow, hliving⟩
            · exact hwaits c hc hrunning
            · have hhead : dueAt = entry.2 := congrArg Prod.snd ((List.mem_cons.mp hmem).resolve_right (hnot dueAt))
              obtain ⟨hdelay, hhealth⟩ := hliving c hc hrunning
              exact absurd (isDue_eq_true.mpr ⟨hhealth, hrunning, hdelay.trans hhead, hdelay ▸ hnow⟩)
                (Bool.eq_false_iff.mp hdue)
  · obtain ⟨hecs, hscheduled⟩ := runEntry_of_ne hstep he
    rcases h e with hwaits | ⟨dueAt, hmem, hnow, hliving⟩
    · refine .inl (hwaits.congr (fun c hc hrunning => ⟨c, hecs ▸ hc, hrunning, rfl⟩) hscheduled)
    · refine .inr ⟨dueAt, (List.mem_cons.mp hmem).resolve_left fun heq => he (congrArg Prod.fst heq), hnow, ?_⟩
      exact fun c hc => hliving c (hecs ▸ hc)

theorem waits_run (h : s.Pending now rest) (hnodup : (rest.map Prod.fst).Nodup)
    (hrun : run (runEntry now env) s rest = some t) (entity : Entity) : t.Waits entity := by
  induction rest generalizing s with
  | nil =>
      obtain rfl := Option.some.inj hrun
      exact (h entity).resolve_right fun ⟨_, hmem, _⟩ => List.not_mem_nil hmem
  | cons entry rest ih =>
      obtain ⟨u, hu, ht⟩ := run_cons_eq_some.mp hrun
      exact ih (pending_runEntry h hnodup hu) (List.nodup_cons.mp hnodup).2 ht

/-- A program whose player is dead stays out of the schedule for the whole of the batch. -/
theorem lost_run (hc : s.game.ecs entity = some c) (hdead : ¬ 0 < c.health)
    (hlost : s.schedule.scheduled entity = none)
    (hrun : run (runEntry now env) s rest = some t) :
    t.game.ecs entity = some c ∧ t.schedule.scheduled entity = none := by
  refine run_preserves (P := fun u => u.game.ecs entity = some c ∧ u.schedule.scheduled entity = none) ⟨hc, hlost⟩
    (fun entry _ u v hu hstep => ?_) hrun
  by_cases he : entity = entry.1
  · subst he
    obtain ⟨ticked, hticked, hecs, hschedule⟩ := runEntry_eq_some hu.1 hstep
    have hidle : c.programmator.prog.isDue (c.context (env entry.1) now) entry.2 = false :=
      Bool.eq_false_iff.mpr fun hdue => hdead (isDue_eq_true.mp hdue).1
    obtain rfl := Option.some.inj ((programmatorSystem_idle hidle).symm.trans hticked)
    rw [hecs, hschedule, Function.update_self, PlayerEntity.tick, Bool.or_false]
    exact ⟨rfl, hu.2⟩
  · obtain ⟨hecs, hscheduled⟩ := runEntry_of_ne hstep he
    exact ⟨hecs.trans hu.1, hscheduled.trans hu.2⟩

theorem sound_runEntry (h : s.schedule.Sound) (hstep : runEntry now env s entry = some t) : t.schedule.Sound := by
  cases hc : s.game.ecs entry.1 with
  | none => exact runEntry_none hc hstep ▸ h
  | some c =>
      obtain ⟨ticked, -, -, hschedule⟩ := runEntry_eq_some hc hstep
      rw [hschedule]
      cases ticked.due with
      | none => exact h
      | some due => exact h.schedule _ _

end Batch

/-- A run of the schedule leaves each program waiting just where it takes no entry of a dead player's program. -/
theorem waits_tick {taken wait : Nat} {env : Entity → ProgrammatorContext} (h : ∀ entity, s.Waits entity)
    (hstep : s.step io (.tick taken wait env) = some t) :
    (∀ entity, t.Waits entity) ↔ s.Spares (.tick taken wait env) := by
  constructor
  · intro hwaits entry hentry c hc hrunning
    by_contra hdead
    have hlost : (s.schedule.popDue taken programmatorDueBatchBudget).2.scheduled entry.1 = none := by
      rw [DueSchedule.popDue_scheduled]
      exact if_pos (List.mem_map.mpr ⟨entry, hentry, rfl⟩)
    let popped : ScheduledPrograms :=
      { s with schedule := (s.schedule.popDue taken programmatorDueBatchBudget).2 }
    obtain ⟨hc', hscheduled⟩ := lost_run (s := popped) hc hdead hlost hstep
    cases hscheduled.symm.trans (hwaits entry.1 c hc' hrunning)
  · intro hspares
    refine waits_run (fun e => ?_) DueSchedule.popDue_nodup hstep
    by_cases hmem : e ∈ (s.schedule.popDue taken programmatorDueBatchBudget).1.map Prod.fst
    · obtain ⟨⟨_, dueAt⟩, hentry, rfl⟩ := List.mem_map.mp hmem
      obtain ⟨hscheduled, htaken⟩ := DueSchedule.popDue_mem hentry
      refine .inr ⟨dueAt, hentry, Nat.le_add_right_of_le htaken, fun c hc hrunning => ⟨?_, ?_⟩⟩
      · exact Option.some.inj ((h _ c hc hrunning).symm.trans hscheduled)
      · exact hspares _ hentry c hc hrunning
    · refine .inl ((h e).congr (fun c hc hrunning => ⟨c, hc, hrunning, rfl⟩) ?_)
      rw [DueSchedule.popDue_scheduled]
      exact if_neg hmem

theorem waits_step {e : ScheduleEvent} (h : ∀ entity, s.Waits entity) (hstep : s.step io e = some t) :
    (∀ entity, t.Waits entity) ↔ s.Spares e := by
  cases e with
  | tick taken wait env => exact waits_tick h hstep
  | connect hub row session now => exact iff_of_true (waits_connect h hstep) trivial
  | disconnect player session now =>
      exact iff_of_true (fun entity => Option.some.inj hstep ▸ waits_disconnect (h entity)) trivial
  | start player id source now => exact iff_of_true (waits_start h hstep) trivial
  | reset player =>
      refine iff_of_true (Option.some.inj hstep ▸ waits_modifyPlayer h fun c hrunning => ?_) trivial
      dsimp only at hrunning ⊢
      split at hrunning
      · cases hrunning
      · exact ⟨hrunning, by rw [if_neg (by assumption)]⟩
  | deleted player id =>
      refine iff_of_true (Option.some.inj hstep ▸ waits_modifyPlayer h fun c hrunning => ?_) trivial
      dsimp only at hrunning ⊢
      split at hrunning
      · cases hrunning
      · exact ⟨hrunning, by rw [if_neg (by assumption)]⟩
  | editor player id source =>
      exact iff_of_true (Option.some.inj hstep ▸ waits_modifyPlayer h fun c hrunning => ⟨hrunning, rfl⟩) trivial
  | change player f =>
      exact iff_of_true (Option.some.inj hstep ▸ waits_modifyPlayer h fun c hrunning => ⟨hrunning, rfl⟩) trivial
  | death player o =>
      refine iff_of_true (Option.some.inj hstep ▸ waits_modifyPlayer h fun c hrunning => ?_) trivial
      exact die_programmator hrunning
  | poll =>
      refine iff_of_true (Option.some.inj hstep ▸ fun entity => ?_) trivial
      exact (h entity).congr (fun c hc hrunning => ⟨c, hc, hrunning, rfl⟩) rfl

theorem sound_scheduleRunning (h : s.schedule.Sound) : (s.scheduleRunning player).schedule.Sound := by
  rw [scheduleRunning]
  split
  · split
    · exact h.schedule _ _
    · exact h
  · exact h

theorem sound_modifyPlayer {f : PlayerEntity PlayerProgram → PlayerEntity PlayerProgram} (h : s.schedule.Sound) :
    (s.modifyPlayer player f).schedule.Sound := by
  rw [modifyPlayer]
  split <;> exact h

theorem sound_step {e : ScheduleEvent} (h : s.schedule.Sound) (hstep : s.step io e = some t) : t.schedule.Sound := by
  cases e with
  | tick taken wait env =>
      refine run_preserves (P := fun u : ScheduledPrograms => u.schedule.Sound) ?_
        (fun entry _ u v hu huv => sound_runEntry hu huv) hstep
      exact h.popDue
  | connect hub row session now =>
      rw [step, connect] at hstep
      split at hstep
      · split at hstep
        · cases hstep
        · exact Option.some.inj hstep ▸ sound_scheduleRunning h
      · exact Option.some.inj hstep ▸ h
  | disconnect player session now => exact Option.some.inj hstep ▸ h
  | start player id source now =>
      rw [step, start] at hstep
      split at hstep
      · obtain ⟨started, -, ht⟩ := Option.bind_eq_some_iff.mp hstep
        exact Option.some.inj ht ▸ sound_scheduleRunning h
      · exact Option.some.inj hstep ▸ h
  | reset player | deleted player id | editor player id source | change player f | death player o =>
      exact Option.some.inj hstep ▸ sound_modifyPlayer h
  | poll => exact Option.some.inj hstep ▸ h.discardStaleHead

/-- The schedule holds each running program with its deadline, in all the states of a run, just where no step of it
takes the entry of a program whose player is dead. -/
theorem scheduled_iff_spares {es : List ScheduleEvent} (hrun : run (step io) empty es = some t) :
    (∀ n u, run (step io) empty (es.take n) = some u → u.Scheduled) ↔ Meets (step io) Spares empty es := by
  have hsound : ∀ n u, run (step io) empty (es.take n) = some u → u.schedule.Sound := fun n u hu =>
    run_preserves (P := fun v : ScheduledPrograms => v.schedule.Sound) DueSchedule.sound_empty
      (fun e _ v w hv hstep => sound_step hv hstep) hu
  have hmeets := meets_iff_forall_take (P := fun v : ScheduledPrograms => ∀ entity, v.Waits entity)
    (fun _ _ hc => by cases hc) (fun e u v hu hstep => waits_step hu hstep) hrun
  rw [hmeets]
  exact forall_congr' fun n => forall_congr' fun u => imp_congr_right fun hu => scheduled_iff (hsound n u hu)

section Frozen

/-- No snapshots, and programs as text only. -/
def textOnly : ProgramIo := ⟨⟨fun _ => none, fun _ => none⟩, fun _ => none, fun _ => none, fun _ => 100⟩

def miner : PlayerRow where
  id := 7
  name := "miner"
  passwd := ""
  hash := ""
  x := 100
  y := 100
  dir := 0
  health := 100
  maxHealth := 100
  money := 1000
  creds := 0
  skin := 0
  autoDig := false
  aggression := false
  crystals := Vector.replicate 6 0
  clanId := none
  respX := some 50
  respY := some 50
  inventory := []
  skills := ⟨[], 20⟩
  role := 0
  selectedProgramId := none
  selectedProgram := none
  programmatorRunning := false
  programmatorSnapshot := none
  clanRank := 0
  lastBonusAt := 0

/-- The program names a function for its respawn. Its player dies, its entry is taken, and then comes the respawn. -/
def dueWhileDead : List ScheduleEvent :=
  [.connect SessionHub.new.open.1 miner 1 0, .start 7 1 "$#Rf<g|f:g" 10,
    .tick 10 0 fun _ => Programmators.idlePlayer, .change 7 fun c => { c with health := 0 },
    .tick 20 0 fun _ => Programmators.idlePlayer, .death 7 ⟨true, (52, 50), 0⟩]

theorem exists_frozen : ∃ t c, run (step textOnly) empty dueWhileDead = some t ∧ t.game.ecs 0 = some c ∧
    c.connection = some 1 ∧ c.health = 100 ∧ c.programmator.prog.running = true ∧ t.schedule.scheduled 0 = none := by
  have hrun : (run (step textOnly) empty dueWhileDead).isSome := by decide
  obtain ⟨t, ht⟩ := Option.isSome_iff_exists.mp hrun
  have hplayer : ((run (step textOnly) empty dueWhileDead).bind fun t => (t.game.ecs 0).map fun c =>
      (c.connection, c.health, c.programmator.prog.running, t.schedule.scheduled 0)) =
        some (some 1, 100, true, none) := by decide
  rw [ht] at hplayer
  obtain ⟨c, hc, heq⟩ := Option.map_eq_some_iff.mp hplayer
  simp only [Prod.mk.injEq] at heq
  exact ⟨t, c, ht, hc, heq⟩

theorem dueWhileDead_not_spared : ¬ Meets (step textOnly) Spares empty dueWhileDead := by
  obtain ⟨t, c, hrun, hc, -, -, hrunning, hscheduled⟩ := exists_frozen
  intro hmeets
  have hholds := ((scheduled_iff_spares hrun).mpr hmeets 6 t hrun 0 c hc hrunning c.programmator.prog.delay).mpr rfl
  cases hscheduled.symm.trans hholds.1

/-- A player is there, alive, and its program runs, but the schedule has forgotten it. -/
theorem respawned_program_frozen : ∃ t c, run (step textOnly) empty dueWhileDead = some t ∧ t.game.ecs 0 = some c ∧
    c.connection = some 1 ∧ 0 < c.health ∧ c.programmator.prog.running = true ∧
      ∀ dueAt, ¬ t.schedule.Holds 0 dueAt := by
  obtain ⟨t, c, hrun, hc, hconnected, hhealth, hrunning, hscheduled⟩ := exists_frozen
  refine ⟨t, c, hrun, hc, hconnected, by rw [hhealth]; decide, hrunning, fun dueAt hholds => ?_⟩
  cases hscheduled.symm.trans hholds.1

end Frozen

end ScheduledPrograms

end OpenMines
