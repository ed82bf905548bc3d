import OpenMines.CommandAdmission

namespace OpenMines

open Lib.Run CommandLines

structure IngressConfig where
  capacity : CommandIngressClass → Nat
  budget : CommandIngressClass → Nat

/-- The commands that wait, and the phase of the tick that admits them. The last four fields remember
what was enqueued and what was admitted, in earlier phases and in this one. -/
structure CommandPhase where
  lines : CommandLines
  buildingDeletes : List QueuedGameCommand
  classRemaining : CommandIngressClass → Nat
  running : Bool
  commandSeq : Nat
  enqueued : CommandIngressClass → List QueuedGameCommand
  deletes : List QueuedGameCommand
  earlier : List AdmittedQueuedCommand
  admitted : List AdmittedQueuedCommand

inductive AdmissionEvent
  | enqueue (playerId : PlayerId) (sessionId : SessionId) (c : CommandIngressClass) (command : GameCommand)
  /-- the tick removes a building -/
  | removePack (playerId : PlayerId)
  | startPhase
  /-- one round of the phase, what the persistence queue answers, and whether the time is over then -/
  | take (reserve : CommandIngressClass → SaveKind → TryReserve) (reserveDelete : SaveKind → TryReserve) (late : Bool)

def takeAdmittedInternalBuildingDelete (pending : List QueuedGameCommand) (reserve : SaveKind → TryReserve) :
    Option (List QueuedGameCommand × Except String (Option AdmittedQueuedCommand)) :=
  match pending with
  | [] => some ([], .ok none)
  | queued :: rest =>
    match queued.command.persistenceKind with
    | none => none
    | some kind =>
      match reserve kind with
      | .permit => some (rest, .ok (some ⟨queued, some kind⟩))
      | .full => some (queued :: rest, .error queued.command.name)
      | .closed => none

namespace CommandPhase

variable (config : IngressConfig) (s : CommandPhase)

def takeNextAdmittedCommand (reserve : CommandIngressClass → SaveKind → TryReserve)
    (reserveDelete : SaveKind → TryReserve) :
    Option (CommandLines × List QueuedGameCommand × Except String (Option AdmittedQueuedCommand)) :=
  match takeAdmittedInternalBuildingDelete s.buildingDeletes reserveDelete with
  | none => none
  | some (deletes, .ok (some command)) => some (s.lines, deletes, .ok (some command))
  | some (deletes, .ok none) =>
    (s.lines.takeAdmittedCommand reserve s.classRemaining).map fun r => (r.1, deletes, r.2)
  | some (deletes, .error _) =>
    (s.lines.takeAdmittedCommand reserve s.classRemaining).map fun r =>
      (r.1, deletes, match r.2 with
        | .ok none => .error "remove_pack"
        | result => result)

/-- There are commands left when the time of the tick is over. -/
def workLeft (lines : CommandLines) (deletes : List QueuedGameCommand) : Bool :=
  !((lines.rx .lifecycle).isEmpty && (lines.rx .gameplay).isEmpty && (lines.rx .internal).isEmpty) ||
    !((lines.heads .lifecycle).isNone && (lines.heads .gameplay).isNone && (lines.heads .internal).isNone) ||
    !deletes.isEmpty

def spend (command : AdmittedQueuedCommand) : CommandIngressClass → Nat :=
  match command.queued.ingressClass with
  | none => s.classRemaining
  | some c => Function.update s.classRemaining c (s.classRemaining c - 1)

def step : AdmissionEvent → Option CommandPhase
  | .enqueue playerId sessionId c command =>
    if (s.lines.rx c).length < config.capacity c then
      let queued : QueuedGameCommand := ⟨playerId, sessionId, some c, s.commandSeq, command⟩
      some { s with
        lines := { s.lines with rx := Function.update s.lines.rx c (s.lines.rx c ++ [queued]) }
        commandSeq := s.commandSeq + 1
        enqueued := Function.update s.enqueued c (s.enqueued c ++ [queued]) }
    else some { s with commandSeq := s.commandSeq + 1 }
  | .removePack playerId =>
    let queued : QueuedGameCommand := ⟨playerId, 0, none, s.commandSeq, ⟨"remove_pack", some .buildingDelete⟩⟩
    some { s with
      buildingDeletes := s.buildingDeletes ++ [queued]
      commandSeq := s.commandSeq + 1
      deletes := s.deletes ++ [queued] }
  | .startPhase =>
    if s.running then none
    else some { s with
      running := true
      classRemaining := config.budget
      earlier := s.earlier ++ s.admitted
      admitted := [] }
  | .take reserve reserveDelete late =>
    if s.running then
      match s.takeNextAdmittedCommand reserve reserveDelete with
      | none => none
      | some (lines, deletes, .ok (some command)) => some { s with
          lines
          buildingDeletes := deletes
          classRemaining := s.spend command
          running := !(late && workLeft lines deletes)
          admitted := s.admitted ++ [command] }
      | some (lines, deletes, _) => some { s with lines, buildingDeletes := deletes, running := false }
    else none

/-- The commands of a class, or those of no class, among the admitted ones. -/
def ofClass (c : Option CommandIngressClass) (commands : List AdmittedQueuedCommand) : List QueuedGameCommand :=
  (commands.map AdmittedQueuedCommand.queued).filter fun queued => queued.ingressClass = c

/-- Nothing is lost and nothing done twice, in order, and within the budget. -/
structure Ledger : Prop where
  sorted : s.lines.Sorted
  lines : ∀ c, ofClass (some c) (s.earlier ++ s.admitted) ++ s.lines.line c = s.enqueued c
  deletes : ofClass none (s.earlier ++ s.admitted) ++ s.buildingDeletes = s.deletes
  internal : ∀ queued ∈ s.buildingDeletes,
    queued.ingressClass = none ∧ queued.command.persistenceKind = some .buildingDelete
  budget : ∀ c, (ofClass (some c) s.admitted).length + s.classRemaining c = config.budget c

/-- Before the first command. -/
structure Start : Prop where
  rx : ∀ c, s.lines.rx c = []
  heads : ∀ c, s.lines.heads c = none
  nextClass : s.lines.nextClass = 0
  buildingDeletes : s.buildingDeletes = []
  classRemaining : s.classRemaining = config.budget
  enqueued : ∀ c, s.enqueued c = []
  deletes : s.deletes = []
  earlier : s.earlier = []
  admitted : s.admitted = []

variable {config s} {t : CommandPhase}

theorem Start.ledger (h : s.Start config) : s.Ledger config := by
  have hline : ∀ c, s.lines.line c = [] := fun c => by
    rw [line, h.heads, h.rx]
    rfl
  refine ⟨⟨by rw [h.nextClass]; decide, fun c queued hqueued => ?_⟩, fun c => ?_, ?_, fun queued hqueued => ?_, fun c => ?_⟩
  · rw [hline] at hqueued
    cases hqueued
  · rw [h.earlier, h.admitted, hline, h.enqueued]
    rfl
  · rw [h.earlier, h.admitted, h.buildingDeletes, h.deletes]
    rfl
  · rw [h.buildingDeletes] at hqueued
    cases hqueued
  · rw [h.admitted, h.classRemaining]
    exact Nat.zero_add _

/-- What a round of the phase takes: a deletion, or what the classes give. -/
inductive NextTaken (s : CommandPhase) (reserve : CommandIngressClass → SaveKind → TryReserve) (lines : CommandLines)
    (deletes : List QueuedGameCommand) : Except String (Option AdmittedQueuedCommand) → Prop
  | delete {command : AdmittedQueuedCommand} (hlines : lines = s.lines)
      (hdeletes : s.buildingDeletes = command.queued :: deletes) :
      NextTaken s reserve lines deletes (.ok (some command))
  | command {r : Except String (Option AdmittedQueuedCommand)} (hdeletes : deletes = s.buildingDeletes)
      (htaken : Taken reserve s.classRemaining 3 s.lines lines r) : NextTaken s reserve lines deletes r

section Take

variable {reserve : CommandIngressClass → SaveKind → TryReserve} {reserveDelete : SaveKind → TryReserve}
  {lines : CommandLines} {deletes : List QueuedGameCommand} {r : Except String (Option AdmittedQueuedCommand)}

theorem takeNext_taken (hl : s.lines.Sorted)
    (h : s.takeNextAdmittedCommand reserve reserveDelete = some (lines, deletes, r)) :
    NextTaken s reserve lines deletes r := by
  unfold takeNextAdmittedCommand takeAdmittedInternalBuildingDelete at h
  cases hdeletes : s.buildingDeletes with
  | nil =>
      rw [hdeletes] at h
      dsimp only at h
      obtain ⟨⟨lines', r'⟩, htake, hsame⟩ := Option.map_eq_some_iff.mp h
      obtain ⟨rfl, hrest⟩ := Prod.mk.inj hsame
      obtain ⟨rfl, rfl⟩ := Prod.mk.inj hrest
      exact .command hdeletes.symm (takeLoop_taken (Nat.le_refl 3) hl htake)
  | cons queued rest =>
      rw [hdeletes] at h
      dsimp only at h
      cases hkind : queued.command.persistenceKind with
      | none =>
          rw [hkind] at h
          cases h
      | some kind =>
          rw [hkind] at h
          dsimp only at h
          cases hreserve : reserveDelete kind with
          | permit =>
              rw [hreserve] at h
              obtain ⟨rfl, hrest⟩ := Prod.mk.inj (Option.some.inj h)
              obtain ⟨rfl, rfl⟩ := Prod.mk.inj hrest
              exact .delete rfl hdeletes
          | full =>
              rw [hreserve] at h
              dsimp only at h
              obtain ⟨⟨lines', r'⟩, htake, hsame⟩ := Option.map_eq_some_iff.mp h
              obtain ⟨rfl, hrest⟩ := Prod.mk.inj hsame
              obtain ⟨rfl, rfl⟩ := Prod.mk.inj hrest
              have htaken := takeLoop_taken (Nat.le_refl 3) hl htake
              refine .command hdeletes.symm ?_
              split
              · rename_i hnone
                dsimp only at hnone
                rw [hnone] at htaken
                cases htaken with
                | vain _ hline hnext hvain => exact .vain (fun _ hr => by cases hr) hline hnext hvain
              · exact htaken
          | closed =>
              rw [hreserve] at h
              cases h

theorem takeNext_isSome (h : s.Ledger config) (hopen : ∀ c kind, reserve c kind ≠ .closed)
    (hopenDelete : ∀ kind, reserveDelete kind ≠ .closed) :
    (s.takeNextAdmittedCommand reserve reserveDelete).isSome := by
  have htake : (s.lines.takeAdmittedCommand reserve s.classRemaining).isSome := takeLoop_isSome h.sorted hopen 3 none
  unfold takeNextAdmittedCommand takeAdmittedInternalBuildingDelete
  cases hdeletes : s.buildingDeletes with
  | nil =>
      dsimp only
      rwa [Option.isSome_map]
  | cons queued rest =>
      have hkind := (h.internal queued (hdeletes ▸ List.mem_cons_self)).2
      dsimp only
      rw [hkind]
      dsimp only
      cases hreserve : reserveDelete .buildingDelete with
      | permit => rfl
      | full =>
          dsimp only
          rwa [Option.isSome_map]
      | closed => exact absurd hreserve (hopenDelete _)

end Take

section Step

theorem ofClass_append (c : Option CommandIngressClass) (as bs : List AdmittedQueuedCommand) :
    ofClass c (as ++ bs) = ofClass c as ++ ofClass c bs := by
  rw [ofClass, List.map_append, List.filter_append]
  rfl

theorem ofClass_singleton {c : Option CommandIngressClass} {command : AdmittedQueuedCommand}
    (h : command.queued.ingressClass = c) : ofClass c [command] = [command.queued] :=
  List.filter_cons_of_pos (decide_eq_true h)

theorem ofClass_singleton_ne {c : Option CommandIngressClass} {command : AdmittedQueuedCommand}
    (h : command.queued.ingressClass ≠ c) : ofClass c [command] = [] :=
  List.filter_cons_of_neg fun hsame => h (of_decide_eq_true hsame)

theorem line_push (l : CommandLines) (c d : CommandIngressClass) (queued : QueuedGameCommand) :
    line { l with rx := Function.update l.rx c (l.rx c ++ [queued]) } d =
      if d = c then l.line c ++ [queued] else l.line d := by
  rw [line, line, line]
  dsimp only
  by_cases hd : d = c
  · rw [hd, Function.update_self, if_pos rfl, List.append_assoc]
  · rw [Function.update_of_ne hd, if_neg hd]

theorem ledger_enqueue {playerId : PlayerId} {sessionId : SessionId} {c : CommandIngressClass} {command : GameCommand}
    (h : s.Ledger config) (hstep : s.step config (.enqueue playerId sessionId c command) = some t) :
    t.Ledger config := by
  unfold step at hstep
  dsimp only at hstep
  split at hstep
  · rw [← Option.some.inj hstep]
    refine ⟨⟨h.sorted.nextClass, fun d queued hqueued => ?_⟩, fun d => ?_, h.deletes, h.internal, h.budget⟩
    · rw [line_push] at hqueued
      split at hqueued
      · rename_i hd
        rcases List.mem_append.mp hqueued with hold | hnew
        · exact h.sorted.ingressClass d queued (hd ▸ hold)
        · rw [List.mem_singleton.mp hnew, hd]
      · exact h.sorted.ingressClass d queued hqueued
    · rw [line_push]
      dsimp only
      split
      · rename_i hd
        rw [hd, Function.update_self, ← List.append_assoc, h.lines]
      · rename_i hd
        rw [Function.update_of_ne hd, h.lines]
  · rw [← Option.some.inj hstep]
    exact ⟨h.sorted, h.lines, h.deletes, h.internal, h.budget⟩

theorem ledger_removePack {playerId : PlayerId} (h : s.Ledger config)
    (hstep : s.step config (.removePack playerId) = some t) : t.Ledger config := by
  rw [← Option.some.inj hstep]
  refine ⟨h.sorted, h.lines, ?_, fun queued hqueued => ?_, h.budget⟩
  · dsimp only
    rw [← List.append_assoc, h.deletes]
  · rcases List.mem_append.mp hqueued with hold | hnew
    · exact h.internal queued hold
    · rw [List.mem_singleton.mp hnew]
      exact ⟨rfl, rfl⟩

theorem ledger_startPhase (h : s.Ledger config) (hstep : s.step config .startPhase = some t) : t.Ledger config := by
  unfold step at hstep
  dsimp only at hstep
  split at hstep
  · cases hstep
  · rw [← Option.some.inj hstep]
    refine ⟨h.sorted, fun c => ?_, ?_, h.internal, fun c => Nat.zero_add _⟩
    · dsimp only
      rw [List.append_nil]
      exact h.lines c
    · dsimp only
      rw [List.append_nil]
      exact h.deletes

section Take

variable {reserve : CommandIngressClass → SaveKind → TryReserve} {reserveDelete : SaveKind → TryReserve} {late : Bool}
  {lines : CommandLines} {deletes : List QueuedGameCommand} {command : AdmittedQueuedCommand}

theorem ledger_admitted (h : s.Ledger config) (htaken : NextTaken s reserve lines deletes (.ok (some command)))
    (running : Bool) :
    Ledger config { s with
      lines
      buildingDeletes := deletes
      classRemaining := s.spend command
      running
      admitted := s.admitted ++ [command] } := by
  cases htaken with
  | delete hlines hdeletes =>
      have hclass : command.queued.ingressClass = none := (h.internal _ (hdeletes ▸ List.mem_cons_self)).1
      have hnone : ∀ c, ofClass (some c) [command] = [] := fun c => ofClass_singleton_ne (by rw [hclass]; exact nofun)
      have hspend : s.spend command = s.classRemaining := by rw [spend, hclass]
      subst hlines
      refine ⟨h.sorted, fun c => ?_, ?_, fun queued hqueued => ?_, fun c => ?_⟩
      · dsimp only
        rw [← List.append_assoc, ofClass_append, hnone, List.append_nil]
        exact h.lines c
      · dsimp only
        rw [← List.append_assoc, ofClass_append, ofClass_singleton hclass, ← h.deletes, hdeletes, List.append_assoc]
        rfl
      · exact h.internal queued (hdeletes ▸ List.mem_cons_of_mem _ hqueued)
      · dsimp only
        rw [ofClass_append, hnone, List.append_nil, hspend]
        exact h.budget c
  | command hdeletes htaken =>
      subst hdeletes
      cases htaken with
      | vain hr => exact absurd rfl (hr command)
      | admitted c hturn hremaining hline hothers hnext hvain =>
          have hclass : command.queued.ingressClass = some c :=
            h.sorted.ingressClass c _ (hline ▸ List.mem_cons_self)
          have hother : ∀ d, d ≠ c → ofClass (some d) [command] = [] := fun d hd =>
            ofClass_singleton_ne (by rw [hclass]; exact fun hsame => hd (Option.some.inj hsame).symm)
          have hspend : s.spend command = Function.update s.classRemaining c (s.classRemaining c - 1) := by
            rw [spend, hclass]
          refine ⟨⟨by rw [hnext]; exact Nat.mod_lt _ (by decide), fun d queued hqueued => ?_⟩, fun d => ?_, ?_,
            h.internal, fun d => ?_⟩
          · by_cases hd : d = c
            · subst hd
              exact h.sorted.ingressClass d queued (hline ▸ List.mem_cons_of_mem _ hqueued)
            · exact h.sorted.ingressClass d queued (hothers d hd ▸ hqueued)
          · dsimp only
            by_cases hd : d = c
            · subst hd
              rw [← List.append_assoc, ofClass_append, ofClass_singleton hclass, ← h.lines, hline, List.append_assoc]
              rfl
            · rw [← List.append_assoc, ofClass_append, hother d hd, List.append_nil, hothers d hd]
              exact h.lines d
          · dsimp only
            rw [← List.append_assoc, ofClass_append, ofClass_singleton_ne (by rw [hclass]; exact nofun), List.append_nil]
            exact h.deletes
          · have hbudget := h.budget d
            dsimp only
            rw [ofClass_append, hspend]
            by_cases hd : d = c
            · subst hd
              rw [ofClass_singleton hclass, List.length_append, Function.update_self, List.length_singleton]
              omega
            · rw [hother d hd, List.append_nil, Function.update_of_ne hd]
              exact hbudget

theorem ledger_vain {r : Except String (Option AdmittedQueuedCommand)} (h : s.Ledger config)
    (hr : ∀ command, r ≠ .ok (some command)) (htaken : NextTaken s reserve lines deletes r) (running : Bool) :
    Ledger config { s with lines, buildingDeletes := deletes, running } := by
  cases htaken with
  | delete => exact absurd rfl (hr _)
  | command hdeletes htaken =>
      subst hdeletes
      cases htaken with
      | admitted => exact absurd rfl (hr _)
      | vain _ hline hnext =>
          refine ⟨⟨hnext, fun c => ?_⟩, fun c => ?_, h.deletes, h.internal, h.budget⟩
          · rw [hline]
            exact h.sorted.ingressClass c
          · dsimp only
            rw [hline]
            exact h.lines c

/-- What a round of the phase does. -/
theorem take_cases (h : s.Ledger config) (hstep : s.step config (.take reserve reserveDelete late) = some t) :
    ∃ lines deletes r, NextTaken s reserve lines deletes r ∧
      ((∃ command running, r = .ok (some command) ∧ t = { s with
          lines
          buildingDeletes := deletes
          classRemaining := s.spend command
          running
          admitted := s.admitted ++ [command] }) ∨
        (∀ command, r ≠ .ok (some command)) ∧ t = { s with lines, buildingDeletes := deletes, running := false }) := by
  unfold step at hstep
  dsimp only at hstep
  split at hstep
  · split at hstep
    · cases hstep
    · rename_i lines deletes command htake
      exact ⟨lines, deletes, _, takeNext_taken h.sorted htake,
        .inl ⟨command, _, rfl, (Option.some.inj hstep).symm⟩⟩
    · rename_i lines deletes r hr htake
      exact ⟨lines, deletes, r, takeNext_taken h.sorted htake,
        .inr ⟨fun command hsame => hr command hsame, (Option.some.inj hstep).symm⟩⟩
  · cases hstep

end Take

theorem ledger_step {e : AdmissionEvent} (h : s.Ledger config) (hstep : s.step config e = some t) : t.Ledger config := by
  cases e with
  | enqueue playerId sessionId c command => exact ledger_enqueue h hstep
  | removePack playerId => exact ledger_removePack h hstep
  | startPhase => exact ledger_startPhase h hstep
  | take reserve reserveDelete late =>
      obtain ⟨lines, deletes, r, htaken, ⟨command, running, rfl, rfl⟩ | ⟨hr, rfl⟩⟩ := take_cases h hstep
      · exact ledger_admitted h htaken running
      · exact ledger_vain h hr htaken false

theorem ledger_run {es : List AdmissionEvent} (hs : s.Ledger config) (hrun : run (step config) s es = some t) :
    t.Ledger config :=
  run_preserves (P := fun s => s.Ledger config) hs (fun _ _ _ _ h hstep => ledger_step h hstep) hrun

end Step

section Progress

variable {c : CommandIngressClass} {queued : QueuedGameCommand}

/-- The rounds that go by at most before the first command of a class is admitted. -/
def wait (s : CommandPhase) (c : CommandIngressClass) : Nat := s.buildingDeletes.length + c.turn s.lines.nextClass

/-- The class has a first command, and may still admit one. -/
def First (s : CommandPhase) (c : CommandIngressClass) (queued : QueuedGameCommand) : Prop :=
  queued ∈ (s.lines.line c).head? ∧ 0 < s.classRemaining c

/-- The commands of other players come in, or a round goes by in which the command would get its permit. -/
def Offers (c : CommandIngressClass) (queued : QueuedGameCommand) : AdmissionEvent → Prop
  | .enqueue .. => True
  | .take reserve _ _ => ∀ kind ∈ queued.command.persistenceKind, reserve c kind = .permit
  | _ => False

def isTake : AdmissionEvent → Bool
  | .take .. => true
  | _ => false

theorem First.enqueue {playerId : PlayerId} {sessionId : SessionId} {d : CommandIngressClass} {command : GameCommand}
    (hfirst : s.First c queued) (hstep : s.step config (.enqueue playerId sessionId d command) = some t) :
    t.First c queued ∧ t.wait c = s.wait c ∧ t.admitted = s.admitted := by
  unfold step at hstep
  dsimp only at hstep
  split at hstep
  · rw [← Option.some.inj hstep]
    refine ⟨⟨?_, hfirst.2⟩, rfl, rfl⟩
    rw [line_push]
    split
    · rename_i hsame
      rw [← hsame, List.head?_append]
      exact Option.mem_def.mpr (by rw [Option.mem_def.mp hfirst.1]; rfl)
    · exact hfirst.1
  · rw [← Option.some.inj hstep]
    exact ⟨hfirst, rfl, rfl⟩

/-- A round admits the first command of the class, or it is a round nearer. -/
theorem First.take {reserve : CommandIngressClass → SaveKind → TryReserve} {reserveDelete : SaveKind → TryReserve}
    {late : Bool} (h : s.Ledger config) (hfirst : s.First c queued)
    (hpermit : ∀ kind ∈ queued.command.persistenceKind, reserve c kind = .permit)
    (hstep : s.step config (.take reserve reserveDelete late) = some t) :
    s.admitted <+: t.admitted ∧ s.admitted ≠ t.admitted ∧
      (queued ∈ ofClass (some c) t.admitted ∨ t.First c queued ∧ t.wait c < s.wait c) := by
  have hadmissible : s.lines.Admissible reserve s.classRemaining c := ⟨hfirst.2, queued, hfirst.1, hpermit⟩
  obtain ⟨lines, deletes, r, htaken, ⟨command, running, rfl, rfl⟩ | ⟨hr, rfl⟩⟩ := take_cases h hstep
  · refine ⟨List.prefix_append _ _, fun hsame => ?_, ?_⟩
    · exact List.cons_ne_nil command [] (List.append_right_eq_self.mp hsame.symm)
    · cases htaken with
      | delete hlines hdeletes =>
          have hclass : command.queued.ingressClass = none := (h.internal _ (hdeletes ▸ List.mem_cons_self)).1
          refine .inr ⟨⟨?_, ?_⟩, ?_⟩
          · rw [hlines]
            exact hfirst.1
          · rw [spend, hclass]
            exact hfirst.2
          · rw [wait, wait, hlines, hdeletes, List.length_cons]
            dsimp only
            omega
      | command hdeletes htaken =>
          cases htaken with
          | vain hr => exact absurd rfl (hr command)
          | admitted d hturn hremaining hline hothers hnext hvain =>
              have hclass : command.queued.ingressClass = some d :=
                h.sorted.ingressClass d _ (hline ▸ List.mem_cons_self)
              by_cases hd : d = c
              · subst hd
                have hhead : command.queued = queued := by
                  have hmem := hfirst.1
                  rw [hline] at hmem
                  exact Option.some.inj hmem
                refine .inl ?_
                rw [ofClass_append, ofClass_singleton hclass, hhead]
                exact List.mem_append_right _ (List.mem_singleton.mpr rfl)
              · have hless : d.turn s.lines.nextClass < c.turn s.lines.nextClass := by
                  rcases Nat.lt_trichotomy (d.turn s.lines.nextClass) (c.turn s.lines.nextClass) with hlt | heq | hgt
                  · exact hlt
                  · refine absurd (CommandIngressClass.index_injective ?_) hd
                    have hindex := d.index_lt
                    have hindex' := c.index_lt
                    have hnextClass := h.sorted.nextClass
                    unfold CommandIngressClass.turn at heq
                    omega
                  · exact absurd hadmissible (hvain c hgt)
                refine .inr ⟨⟨?_, ?_⟩, ?_⟩
                · rw [hothers c (Ne.symm hd)]
                  exact hfirst.1
                · rw [spend, hclass]
                  dsimp only
                  rw [Function.update_of_ne (Ne.symm hd)]
                  exact hfirst.2
                · have hafter := CommandIngressClass.turn_after h.sorted.nextClass hless
                  rw [wait, wait, hdeletes]
                  dsimp only
                  rw [hnext]
                  omega
  · cases htaken with
    | delete => exact absurd rfl (hr _)
    | command _ htaken =>
        cases htaken with
        | admitted => exact absurd rfl (hr _)
        | vain _ _ _ hvain => exact absurd hadmissible (hvain c (CommandIngressClass.turn_lt _ _))

theorem admitted_step {e : AdmissionEvent} (h : s.Ledger config) (he : Offers c queued e)
    (hstep : s.step config e = some t) : s.admitted <+: t.admitted := by
  cases e with
  | enqueue playerId sessionId d command =>
      unfold step at hstep
      dsimp only at hstep
      split at hstep
      · exact Option.some.inj hstep ▸ List.prefix_rfl
      · exact Option.some.inj hstep ▸ List.prefix_rfl
  | take reserve reserveDelete late =>
      obtain ⟨lines, deletes, r, -, ⟨command, running, rfl, rfl⟩ | ⟨hr, rfl⟩⟩ := take_cases h hstep
      · exact List.prefix_append _ _
      · exact List.prefix_rfl
  | removePack playerId => exact he.elim
  | startPhase => exact he.elim

theorem mem_ofClass_run {es : List AdmissionEvent} (h : s.Ledger config) (hoffers : ∀ e ∈ es, Offers c queued e)
    (hrun : run (step config) s es = some t) (hmem : queued ∈ ofClass (some c) s.admitted) :
    queued ∈ ofClass (some c) t.admitted := by
  refine (run_preserves (P := fun u => u.Ledger config ∧ queued ∈ ofClass (some c) u.admitted) ⟨h, hmem⟩
    (fun e he u v hu hstep => ⟨ledger_step hu.1 hstep, ?_⟩) hrun).2
  obtain ⟨more, hmore⟩ := admitted_step hu.1 (hoffers e he) hstep
  rw [← hmore, ofClass_append]
  exact List.mem_append_left _ hu.2

/-- After so many rounds in which it would get its permit, the first command of a class is admitted. -/
theorem first_run {es : List AdmissionEvent} (h : s.Ledger config) (hfirst : s.First c queued)
    (hoffers : ∀ e ∈ es, Offers c queued e) (hrun : run (step config) s es = some t)
    (hrounds : s.wait c < es.countP isTake) : queued ∈ ofClass (some c) t.admitted := by
  induction es generalizing s with
  | nil => exact absurd hrounds (Nat.not_lt_zero _)
  | cons e es ih =>
      obtain ⟨u, hu, ht⟩ := run_cons_eq_some.mp hrun
      have he := hoffers e List.mem_cons_self
      have hes : ∀ e ∈ es, Offers c queued e := fun e he => hoffers e (List.mem_cons_of_mem _ he)
      have hledger := ledger_step h hu
      cases e with
      | enqueue playerId sessionId d command =>
          obtain ⟨hnext, hwait, -⟩ := hfirst.enqueue hu
          exact ih hledger hnext hes ht (by rw [hwait]; exact hrounds)
      | take reserve reserveDelete late =>
          rw [List.countP_cons_of_pos rfl] at hrounds
          obtain ⟨-, -, hmem | ⟨hnext, hwait⟩⟩ := hfirst.take h he hu
          · exact mem_ofClass_run hledger hes ht hmem
          · exact ih hledger hnext hes ht (by omega)
      | removePack playerId => exact he.elim
      | startPhase => exact he.elim

end Progress

/-- Commands are admitted in the order of their class, none lost and none twice, and no more than the
budget allows in a phase. A round is in vain only where no class has a command to admit, and the first
command of a class does not wait for the permits of other classes. -/
theorem commands_admitted {s t : CommandPhase} {es : List AdmissionEvent} (hs : s.Start config)
    (hrun : run (step config) s es = some t) :
    (∀ c, ofClass (some c) (t.earlier ++ t.admitted) ++ t.lines.line c = t.enqueued c) ∧
      ofClass none (t.earlier ++ t.admitted) ++ t.buildingDeletes = t.deletes ∧
      (∀ c, (ofClass (some c) t.admitted).length ≤ config.budget c) ∧
      (t.running → ∀ reserve reserveDelete late, (∀ c kind, reserve c kind ≠ .closed) →
        (∀ kind, reserveDelete kind ≠ .closed) → (t.step config (.take reserve reserveDelete late)).isSome) ∧
      ∀ c queued, t.First c queued →
        (∀ reserve reserveDelete late u, (∀ kind ∈ queued.command.persistenceKind, reserve c kind = .permit) →
          t.step config (.take reserve reserveDelete late) = some u → ∃ command, u.admitted = t.admitted ++ [command]) ∧
        ∀ es u, (∀ e ∈ es, Offers c queued e) → run (step config) t es = some u →
          t.wait c < es.countP isTake → queued ∈ ofClass (some c) u.admitted := by
  have h : t.Ledger config := ledger_run hs.ledger hrun
  refine ⟨h.lines, h.deletes, fun c => ?_, fun hrunning reserve reserveDelete late hopen hopenDelete => ?_,
    fun c queued hfirst => ⟨fun reserve reserveDelete late u hpermit hstep => ?_,
      fun es u hoffers hrun hrounds => first_run h hfirst hoffers hrun hrounds⟩⟩
  · have hbudget := h.budget c
    omega
  · obtain ⟨⟨lines, deletes, r⟩, htake⟩ := Option.isSome_iff_exists.mp (takeNext_isSome h hopen hopenDelete)
    unfold step
    dsimp only
    rw [if_pos hrunning, htake]
    match r with
    | .ok (some command) => rfl
    | .ok none => rfl
    | .error e => rfl
  · obtain ⟨-, hne, -⟩ := hfirst.take h hpermit hstep
    obtain ⟨lines, deletes, r, -, ⟨command, running, rfl, rfl⟩ | ⟨hr, rfl⟩⟩ := take_cases h hstep
    · exact ⟨command, rfl⟩
    · exact absurd rfl hne

def oneSlot : IngressConfig := ⟨fun _ => 2, fun _ => 1⟩

def idlePhase : CommandPhase where
  lines := ⟨fun _ => [], fun _ => none, 0⟩
  buildingDeletes := []
  classRemaining := oneSlot.budget
  running := false
  commandSeq := 1
  enqueued := fun _ => []
  deletes := []
  earlier := []
  admitted := []

def saturated (_ : CommandIngressClass) (_ : SaveKind) : TryReserve := .full

/-- A disconnect gets no permit; a move and the answer to an earlier command come through. -/
def saturatedRounds : List AdmissionEvent :=
  [.enqueue 1 41 .lifecycle ⟨"disconnect", some .player⟩, .enqueue 2 42 .gameplay ⟨"move", none⟩,
    .enqueue 2 42 .gameplay ⟨"dig", none⟩, .startPhase, .take saturated (fun _ => .full) false,
    .take saturated (fun _ => .full) false]

theorem commands_admitted_saturated :
    ∃ t, run (step oneSlot) idlePhase saturatedRounds = some t ∧
      t.admitted.map (fun a => a.queued.command.name) = ["move"] ∧
      ∀ c, ofClass (some c) (t.earlier ++ t.admitted) ++ t.lines.line c = t.enqueued c := by
  have hrun : (run (step oneSlot) idlePhase saturatedRounds).isSome := by decide
  obtain ⟨t, ht⟩ := Option.isSome_iff_exists.mp hrun
  have hnames : (run (step oneSlot) idlePhase saturatedRounds).map
      (fun t => t.admitted.map (fun a => a.queued.command.name)) = some ["move"] := by decide
  rw [ht] at hnames
  have hstart : idlePhase.Start oneSlot :=
    ⟨fun _ => rfl, fun _ => rfl, rfl, rfl, rfl, fun _ => rfl, rfl, rfl, rfl⟩
  exact ⟨t, ht, Option.some.inj hnames, (commands_admitted hstart ht).1⟩

end CommandPhase

end OpenMines
