import OpenMines.Completion
import OpenMines.Lib.Run

namespace OpenMines

open Lib.Run

/-- Where the simulation thread stands. -/
inductive Stage
  | running
  /-- `finish_shutdown`: the commands that are left are carried out -/
  | quiescing
  /-- `drain_persistence_completions` -/
  | draining
  | stopped
  deriving DecidableEq

inductive Panic
  /-- a command with other saves than the one it reserved a place for -/
  | commandSaves
  /-- the assertion of `apply_shutdown_command_effects` -/
  | completionSaves
  deriving DecidableEq

/-- A command with the permit that it was admitted with. -/
structure AdmittedCommand (R : Type) where
  permit : Option SaveKind
  apply : LivePlayers → LivePlayers × List (SaveCommand R)

/-- `commanded` remembers what was published for commands and for the later phases of the
cycles, `returned` the saves that completions returned. -/
structure Simulation (R : Type) where
  stage : Stage
  panicked : Option Panic
  players : LivePlayers
  /-- the channel of the persistence completions -/
  completions : List PersistenceCompletion
  /-- all that was handed to the persistence worker -/
  published : List (SaveCommand R)
  commanded : List (SaveCommand R)
  returned : List (SaveCommand R)

/-- The phases of a cycle after the commands: what they do to the players, and what they
publish under permits of their own. -/
abbrev LaterPhases (R : Type) := LivePlayers → LivePlayers × List (SaveCommand R)

inductive SimulationEvent (R : Type)
  /-- the persistence worker sends a completion -/
  | completed (c : PersistenceCompletion)
  | tick (commands : List (AdmittedCommand R)) (later : LaterPhases R)
  | shutdown
  | quiesce (commands : List (AdmittedCommand R)) (later : LaterPhases R)
  | drained
  | drain
  | closed

variable {R : Type}

/-- The saves to hand over; nothing when it panics. -/
def publishCommandSaves (permit : Option SaveKind) (saves : List (SaveCommand R)) :
    Option (List (SaveCommand R)) :=
  match permit, saves with
  | some kind, [save] => if kind = save.kind then some [save] else none
  | _, [] => some []
  | _, _ => none

namespace Simulation

def start (players : LivePlayers) : Simulation R :=
  { stage := .running, panicked := none, players, completions := [], published := [], commanded := [], returned := [] }

/-- Apply one completion; its saves are part of the effects. -/
def applyCompletion (sim : Simulation R) (c : PersistenceCompletion) : Simulation R × List (SaveCommand R) :=
  let (players, saves) := applyPersistenceCompletion sim.players c
  ({ sim with players, returned := sim.returned ++ saves }, saves)

/-- The loop over the completions, with the saves of the effects so far. -/
def applyCompletions (sim : Simulation R) (saves : List (SaveCommand R)) :
    List PersistenceCompletion → Simulation R × List (SaveCommand R)
  | [] => (sim, saves)
  | c :: cs =>
    let (sim, more) := sim.applyCompletion c
    sim.applyCompletions (saves ++ more) cs

/-- Hand over saves that did not come from a completion. -/
def publish (sim : Simulation R) (saves : List (SaveCommand R)) : Simulation R :=
  { sim with published := sim.published ++ saves, commanded := sim.commanded ++ saves }

/-- The loop over the commands. What a command returns is published at once. -/
def runCommands (sim : Simulation R) : List (AdmittedCommand R) → Simulation R
  | [] => sim
  | c :: cs =>
    let (players, saves) := c.apply sim.players
    match publishCommandSaves c.permit saves with
    | none => { sim with players, panicked := some .commandSaves }
    | some saves => runCommands ({ sim with players }.publish saves) cs

/-- The state after the command phase, and the saves of the effects. -/
def runCommandPhase (sim : Simulation R) (commands : List (AdmittedCommand R)) :
    Simulation R × List (SaveCommand R) :=
  let (applied, saves) := { sim with completions := [] }.applyCompletions [] sim.completions
  (applied.runCommands commands, saves)

def runLater (sim : Simulation R) (later : LaterPhases R) : Simulation R :=
  let (players, saves) := later sim.players
  { sim with players }.publish saves

/-- Both the tick and the quiescing cycle go on with the events and the broadcasts of the
effects; nothing takes their saves. -/
def runCycle (sim : Simulation R) (commands : List (AdmittedCommand R)) (later : LaterPhases R) : Simulation R :=
  let (sim, _) := sim.runCommandPhase commands
  if sim.panicked.isSome then sim else sim.runLater later

def applyShutdownCommandEffects (sim : Simulation R) (saves : List (SaveCommand R)) : Simulation R :=
  if saves.isEmpty then sim else { sim with panicked := some .completionSaves }

/-- The body of the loop over the completions of the shutdown. -/
def drainCompletion (sim : Simulation R) (c : PersistenceCompletion) : Simulation R :=
  let (applied, saves) := sim.applyCompletion c
  applied.applyShutdownCommandEffects saves

def step (sim : Simulation R) (e : SimulationEvent R) : Option (Simulation R) :=
  if sim.panicked.isSome then none
  else
    match e, sim.stage with
    | .completed _, .stopped => none
    | .completed c, _ => some { sim with completions := sim.completions ++ [c] }
    | .tick commands later, .running => some (sim.runCycle commands later)
    | .shutdown, .running => some { sim with stage := .quiescing }
    | .quiesce commands later, .quiescing => some (sim.runCycle commands later)
    | .drained, .quiescing => some { sim with stage := .draining }
    | .drain, .draining =>
      match sim.completions with
      | [] => none
      | c :: cs => some ({ sim with completions := cs }.drainCompletion c)
    | .closed, .draining => if sim.completions.isEmpty then some { sim with stage := .stopped } else none
    | _, _ => none

/-- Each save that a completion returned was handed to the worker once, and none met the
assertion of the shutdown. -/
def SavesPublished (sim : Simulation R) : Prop :=
  sim.published.Perm (sim.commanded ++ sim.returned) ∧ sim.panicked ≠ some .completionSaves

/-- The step applies no completion that asks for a save. -/
def NoSaveAsked (sim : Simulation R) : SimulationEvent R → Prop
  | .tick .. => ∀ c ∈ sim.completions, c.asksSave = false
  | .quiesce .. => ∀ c ∈ sim.completions, c.asksSave = false
  | .drain => ∀ c ∈ sim.completions.head?, c.asksSave = false
  | _ => True

variable {sim t : Simulation R} {saves : List (SaveCommand R)}

/-- What the worker got never came from a completion. -/
def Commanded (sim : Simulation R) : Prop := sim.published = sim.commanded

theorem savesPublished_iff (h : sim.Commanded) :
    sim.SavesPublished ↔ sim.returned = [] ∧ sim.panicked ≠ some .completionSaves := by
  rw [SavesPublished, h]
  refine and_congr_left fun _ => ⟨fun hperm => ?_, fun he => by rw [he, List.append_nil]⟩
  have hlength := hperm.length_eq
  rw [List.length_append] at hlength
  exact List.eq_nil_of_length_eq_zero (by omega)

theorem commanded_publish (h : sim.Commanded) : (sim.publish saves).Commanded := by
  rw [Commanded, publish, h]

/-- A cycle step changes of the three lists what `publish` does. -/
structure Extends (sim t : Simulation R) (saves : List (SaveCommand R)) : Prop where
  commanded : sim.Commanded → t.Commanded
  returned : t.returned = sim.returned ++ saves
  panicked : sim.panicked ≠ some .completionSaves → t.panicked ≠ some .completionSaves

theorem Extends.trans {u : Simulation R} {more : List (SaveCommand R)} (h : Extends sim t saves)
    (h' : Extends t u more) : Extends sim u (saves ++ more) where
  commanded hc := h'.commanded (h.commanded hc)
  returned := by rw [h'.returned, h.returned, List.append_assoc]
  panicked hp := h'.panicked (h.panicked hp)

theorem extends_applyCompletion (sim : Simulation R) (c : PersistenceCompletion) :
    Extends sim (sim.applyCompletion c).1 (sim.applyCompletion c).2 where
  commanded hc := hc
  returned := rfl
  panicked hp := hp

theorem extends_applyCompletions (sim : Simulation R) (saves : List (SaveCommand R)) (cs : List PersistenceCompletion) :
    ∃ more, (sim.applyCompletions saves cs).2 = saves ++ more ∧ Extends sim (sim.applyCompletions saves cs).1 more ∧
      (more = [] ↔ ∀ c ∈ cs, c.asksSave = false) := by
  induction cs generalizing sim saves with
  | nil => exact ⟨[], by simp [applyCompletions], ⟨id, by simp [applyCompletions], id⟩, by simp⟩
  | cons c cs ih =>
      obtain ⟨more, hsaves, hext, hnil⟩ := ih (sim.applyCompletion c).1 (saves ++ (sim.applyCompletion c).2)
      refine ⟨(sim.applyCompletion c).2 ++ more, ?_, (extends_applyCompletion sim c).trans hext, ?_⟩
      · rw [applyCompletions, hsaves, List.append_assoc]
      · rw [List.append_eq_nil_iff, hnil, List.forall_mem_cons, ← saves_eq_nil_iff sim.players c]
        rfl

theorem extends_runCommands (sim : Simulation R) (commands : List (AdmittedCommand R)) :
    Extends sim (sim.runCommands commands) [] := by
  induction commands generalizing sim with
  | nil => exact ⟨id, by simp [runCommands], id⟩
  | cons c cs ih =>
      rw [runCommands]
      dsimp only
      split
      · exact ⟨id, by simp, by simp⟩
      · rename_i saves _
        have hpublish : Extends sim ({ sim with players := (c.apply sim.players).1 }.publish saves) [] :=
          ⟨fun hc => commanded_publish hc, by simp [publish], id⟩
        exact hpublish.trans (ih _)

theorem extends_runLater (sim : Simulation R) (later : LaterPhases R) : Extends sim (sim.runLater later) [] :=
  ⟨fun hc => commanded_publish hc, by simp [runLater, publish], id⟩

theorem extends_runCycle (sim : Simulation R) (commands : List (AdmittedCommand R)) (later : LaterPhases R) :
    ∃ more, Extends sim (sim.runCycle commands later) more ∧
      (more = [] ↔ ∀ c ∈ sim.completions, c.asksSave = false) := by
  obtain ⟨more, -, hext, hnil⟩ := extends_applyCompletions { sim with completions := [] } [] sim.completions
  have hphase : Extends sim (sim.runCommandPhase commands).1 more := by
    have htrans := hext.trans (extends_runCommands _ commands)
    rw [List.append_nil] at htrans
    exact ⟨htrans.commanded, htrans.returned, htrans.panicked⟩
  refine ⟨more, ?_, hnil⟩
  rw [runCycle]
  dsimp only
  split
  · exact hphase
  · have htrans := hphase.trans (extends_runLater _ later)
    rwa [List.append_nil] at htrans

theorem Extends.iff {cond : Prop} (h : Extends sim t saves) (hsim : sim.Commanded) (hnil : saves = [] ↔ cond)
    (hpanic : sim.panicked ≠ some .completionSaves) :
    t.SavesPublished ↔ sim.SavesPublished ∧ cond := by
  rw [savesPublished_iff (h.commanded hsim), savesPublished_iff hsim, h.returned, List.append_eq_nil_iff, hnil]
  have hlast := h.panicked hpanic
  exact ⟨fun ⟨⟨hret, hcond⟩, _⟩ => ⟨⟨hret, hpanic⟩, hcond⟩, fun ⟨⟨hret, _⟩, hcond⟩ => ⟨⟨hret, hcond⟩, hlast⟩⟩

theorem not_panicked (e : SimulationEvent R) (h : sim.step e = some t) : sim.panicked = none := by
  unfold step at h
  split at h
  · cases h
  · rename_i hnone
    simpa using hnone

theorem drainCompletion_cases (sim : Simulation R) (c : PersistenceCompletion) :
    Extends sim (sim.drainCompletion c) [] ∧ c.asksSave = false ∨
    c.asksSave = true ∧ (sim.Commanded → (sim.drainCompletion c).Commanded) ∧
      (sim.drainCompletion c).panicked = some .completionSaves := by
  have hext := extends_applyCompletion sim c
  have hnil : (sim.applyCompletion c).2 = [] ↔ c.asksSave = false := saves_eq_nil_iff sim.players c
  unfold drainCompletion applyShutdownCommandEffects
  dsimp only
  split
  · rename_i hempty
    have hsaves : (sim.applyCompletion c).2 = [] := by simpa using hempty
    rw [hsaves] at hext
    exact .inl ⟨hext, hnil.mp hsaves⟩
  · rename_i hsaves
    right
    refine ⟨?_, hext.commanded, rfl⟩
    rw [← Bool.not_eq_false, ← hnil]
    simpa using hsaves

/-- What a step of the simulation does to the lists: a cycle returns the saves that its completions
ask for, a completion of the drain panics over them. -/
theorem step_cases (e : SimulationEvent R) (h : sim.step e = some t) :
    (∃ saves, Extends sim t saves ∧ (saves = [] ↔ sim.NoSaveAsked e)) ∨
    ∃ c, sim.completions.head? = some c ∧ e = .drain ∧ c.asksSave = true ∧ (sim.Commanded → t.Commanded) ∧
      t.panicked = some .completionSaves := by
  have hpanicked := not_panicked e h
  unfold step at h
  rw [if_neg (show ¬ sim.panicked.isSome = true by simp [hpanicked])] at h
  cases e with
  | completed c =>
      left
      refine ⟨[], ?_, by simp [NoSaveAsked]⟩
      cases hstage : sim.stage <;> rw [hstage] at h <;> cases h <;> exact ⟨id, by simp, id⟩
  | tick commands later =>
      left
      cases hstage : sim.stage <;> rw [hstage] at h <;> cases h
      exact extends_runCycle sim commands later
  | quiesce commands later =>
      left
      cases hstage : sim.stage <;> rw [hstage] at h <;> cases h
      exact extends_runCycle sim commands later
  | shutdown =>
      left
      refine ⟨[], ?_, by simp [NoSaveAsked]⟩
      cases hstage : sim.stage <;> rw [hstage] at h <;> cases h
      exact ⟨id, by simp, id⟩
  | drained =>
      left
      refine ⟨[], ?_, by simp [NoSaveAsked]⟩
      cases hstage : sim.stage <;> rw [hstage] at h <;> cases h
      exact ⟨id, by simp, id⟩
  | closed =>
      left
      refine ⟨[], ?_, by simp [NoSaveAsked]⟩
      cases hstage : sim.stage with
      | draining =>
          rw [hstage] at h
          dsimp only at h
          split at h
          · cases h
            exact ⟨id, by simp, id⟩
          · cases h
      | _ =>
          rw [hstage] at h
          cases h
  | drain =>
      cases hstage : sim.stage with
      | draining =>
          rw [hstage] at h
          dsimp only at h
          cases hcompletions : sim.completions with
          | nil =>
              rw [hcompletions] at h
              cases h
          | cons c cs =>
              rw [hcompletions] at h
              cases h
              rcases drainCompletion_cases { sim with completions := cs, stage := .draining } c with
                ⟨hext, hquiet⟩ | ⟨hasks, hcommanded, hpanic⟩
              · refine .inl ⟨[], ⟨hext.commanded, hext.returned, hext.panicked⟩, ?_⟩
                simp [NoSaveAsked, hcompletions, hquiet]
              · exact .inr ⟨c, rfl, rfl, hasks, hcommanded, hpanic⟩
      | _ =>
          rw [hstage] at h
          cases h

theorem commanded_step (hsim : sim.Commanded) (e : SimulationEvent R) (h : sim.step e = some t) : t.Commanded := by
  rcases step_cases e h with ⟨saves, hext, -⟩ | ⟨c, -, -, -, hc, -⟩
  · exact hext.commanded hsim
  · exact hc hsim

theorem savesPublished_step (hsim : sim.Commanded) (e : SimulationEvent R) (h : sim.step e = some t) :
    t.SavesPublished ↔ sim.SavesPublished ∧ sim.NoSaveAsked e := by
  rcases step_cases e h with ⟨saves, hext, hnil⟩ | ⟨c, hc, rfl, hasks, -, hpanicked⟩
  · exact hext.iff hsim hnil (by rw [not_panicked e h]; exact nofun)
  · refine ⟨fun ht => absurd hpanicked ht.2, fun ⟨_, hquiet⟩ => ?_⟩
    rw [hquiet c hc] at hasks
    cases hasks

/-- Every save of a completion reaches the worker, in all stages to the end of the shutdown, just
in the runs that apply no completion that asks for one. -/
theorem savesPublished_run_iff (players : LivePlayers) (es : List (SimulationEvent R))
    (h : run step (start players) es = some t) :
    t.SavesPublished ↔ Meets step NoSaveAsked (start players) es := by
  have hstart : (start players : Simulation R).SavesPublished := ⟨List.Perm.refl _, nofun⟩
  have hcommanded : (start players : Simulation R).Commanded := rfl
  rw [run_iff_meets hcommanded (fun e u v hu hv => commanded_step hu e hv)
    (fun e u v hu hv => savesPublished_step hu e hv) h]
  exact and_iff_right hstart

def lostRace : PersistenceCompletion :=
  .auctionBetCompleted
    { playerId := 1, sessionId := 1, buildingX := 0, buildingY := 0, orderId := 5, requestedAmount := none,
      bidderMoney := 100 }
    .lostRace

/-- The order that the bidder should be shown again is never asked for. -/
theorem lostRace_tick : ∃ t : Simulation Unit,
    run step (start (fun _ => none)) [.completed lostRace, .tick [] (fun players => (players, []))] = some t ∧
      t.returned = [.auctionOrder ⟨1, 1, 0, 0, 5⟩] ∧ t.published = [] ∧ ¬ t.SavesPublished := by
  refine ⟨_, rfl, rfl, rfl, fun h => ?_⟩
  have hlength := h.1.length_eq
  exact absurd hlength (by decide)

def replyRun : List (SimulationEvent Unit) :=
  [.completed (.reply .whoisLoaded), .tick [] (fun players => (players, [])), .shutdown, .drained, .closed]

theorem savesPublished_reply :
    ∃ t : Simulation Unit, run step (start (fun _ => none)) replyRun = some t ∧ t.SavesPublished := by
  refine ⟨_, rfl, (savesPublished_run_iff (fun _ => none) replyRun rfl).mpr ?_⟩
  simp [replyRun, Meets, step, start, NoSaveAsked, PersistenceCompletion.asksSave]

end Simulation

end OpenMines
