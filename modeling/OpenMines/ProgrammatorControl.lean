import OpenMines.ProgrammatorSystem

namespace OpenMines

open Lib.CheckedInt

section Functions

variable {fs : Functions} {name n : String} {f : PFunction → PFunction}

namespace Functions

theorem lookup_resetAll (fs : Functions) (n : String) : fs.resetAll.lookup n = (fs.lookup n).map PFunction.reset := by
  have hentries : ∀ entries : List (Sigma fun _ : String => PFunction),
      List.dlookup n (entries.map fun e => (⟨e.1, e.2.reset⟩ : Sigma fun _ : String => PFunction)) =
        (List.dlookup n entries).map PFunction.reset := by
    intro entries
    induction entries with
    | nil => rfl
    | cons e entries ih =>
        obtain ⟨name, g⟩ := e
        by_cases hn : n = name
        · subst hn
          rw [List.map_cons, List.dlookup_cons_eq, List.dlookup_cons_eq]
          rfl
        · rw [List.map_cons, List.dlookup_cons_ne _ _ hn, List.dlookup_cons_ne _ _ hn, ih]
  exact hentries fs.entries

@[simp] theorem mem_resetAll : n ∈ fs.resetAll ↔ n ∈ fs := by
  rw [← AList.lookup_isSome, ← AList.lookup_isSome, lookup_resetAll, Option.isSome_map]

/-- The first function is there, calls came from functions of the program, and no index is behind the end. -/
structure Linked (fs : Functions) : Prop where
  root : "" ∈ fs
  calls : ∀ name g, fs.lookup name = some g → ∀ caller ∈ g.calledFrom, caller ∈ fs
  indices : ∀ name g, fs.lookup name = some g → g.current ≤ g.actions.length

theorem Linked.modify (h : fs.Linked) (name : String)
    (hcalls : ∀ g, fs.lookup name = some g → ∀ caller ∈ (f g).calledFrom, caller ∈ fs)
    (hindices : ∀ g, fs.lookup name = some g → (f g).current ≤ (f g).actions.length) : (fs.modify name f).Linked := by
  have hlookup : ∀ n g, (fs.modify name f).lookup n = some g →
      fs.lookup n = some g ∨ ∃ old, fs.lookup name = some old ∧ g = f old := by
    intro n g hg
    rw [lookup_modify] at hg
    split at hg
    · rename_i hn
      obtain ⟨old, hold, rfl⟩ := Option.map_eq_some_iff.mp hg
      exact .inr ⟨old, hn ▸ hold, rfl⟩
    · exact .inl hg
  refine ⟨mem_modify.mpr h.root, fun n g hg caller hcaller => mem_modify.mpr ?_, fun n g hg => ?_⟩
  · rcases hlookup n g hg with hsame | ⟨old, hold, rfl⟩
    · exact h.calls n g hsame caller hcaller
    · exact hcalls old hold caller hcaller
  · rcases hlookup n g hg with hsame | ⟨old, hold, rfl⟩
    · exact h.indices n g hsame
    · exact hindices old hold

theorem Linked.resetAll (h : fs.Linked) : fs.resetAll.Linked := by
  refine ⟨mem_resetAll.mpr h.root, fun n g hg caller hcaller => mem_resetAll.mpr ?_, fun n g hg => ?_⟩
  · rw [lookup_resetAll] at hg
    obtain ⟨old, hold, rfl⟩ := Option.map_eq_some_iff.mp hg
    exact h.calls n old hold caller hcaller
  · rw [lookup_resetAll] at hg
    obtain ⟨old, hold, rfl⟩ := Option.map_eq_some_iff.mp hg
    exact Nat.zero_le _

end Functions

end Functions

namespace ProgrammatorState

/-- What the control of a program names is there. -/
structure Controlled (prog : ProgrammatorState) : Prop where
  linked : prog.currentProg.Linked
  order : ∀ name ∈ prog.functionOrder, name ∈ prog.currentProg
  current : prog.currentFunction ∈ prog.currentProg
  start : ∃ g, prog.currentProg.lookup prog.startpoint.1 = some g ∧ prog.startpoint.2 ≤ g.actions.length
  death : ∀ label ∈ prog.gotoDeath, label ∈ prog.currentProg

end ProgrammatorState

/-- What of a function the control is about. -/
def PFunction.control (g : PFunction) : List PAction × Nat × Option String := (g.actions, g.current, g.calledFrom)

/-- Nothing that the control is about differs. -/
structure SameControl (prog next : ProgrammatorState) : Prop where
  functions : ∀ name, (next.currentProg.lookup name).map PFunction.control =
    (prog.currentProg.lookup name).map PFunction.control
  order : next.functionOrder = prog.functionOrder
  current : next.currentFunction = prog.currentFunction
  start : next.startpoint = prog.startpoint
  death : next.gotoDeath = prog.gotoDeath

section Control

variable {prog next last : ProgrammatorState} {name label : String} {f : PFunction → PFunction}

theorem SameControl.refl (prog : ProgrammatorState) : SameControl prog prog :=
  ⟨fun _ => rfl, rfl, rfl, rfl, rfl⟩

theorem sameControl_of_eq (hprog : next.currentProg = prog.currentProg)
    (horder : next.functionOrder = prog.functionOrder)
    (hcurrent : next.currentFunction = prog.currentFunction) (hstart : next.startpoint = prog.startpoint)
    (hdeath : next.gotoDeath = prog.gotoDeath) : SameControl prog next :=
  ⟨fun _ => hprog ▸ rfl, horder, hcurrent, hstart, hdeath⟩

theorem SameControl.trans (h : SameControl prog next) (h' : SameControl next last) : SameControl prog last :=
  ⟨fun name => (h'.functions name).trans (h.functions name), h'.order.trans h.order, h'.current.trans h.current,
    h'.start.trans h.start, h'.death.trans h.death⟩

theorem SameControl.lookup (h : SameControl prog next) {g : PFunction} (hg : next.currentProg.lookup name = some g) :
    ∃ old, prog.currentProg.lookup name = some old ∧ g.control = old.control := by
  have hname := h.functions name
  rw [hg] at hname
  obtain ⟨old, hold, hcontrol⟩ := Option.map_eq_some_iff.mp hname.symm
  exact ⟨old, hold, hcontrol.symm⟩

theorem SameControl.mem (h : SameControl prog next) : name ∈ next.currentProg ↔ name ∈ prog.currentProg := by
  have hsome := congrArg Option.isSome (h.functions name)
  rw [Option.isSome_map, Option.isSome_map] at hsome
  rw [← AList.lookup_isSome, ← AList.lookup_isSome, hsome]

theorem sameControl_modify (prog : ProgrammatorState) (name : String) (hf : ∀ g, (f g).control = g.control) :
    SameControl prog { prog with currentProg := prog.currentProg.modify name f } := by
  refine ⟨fun n => ?_, rfl, rfl, rfl, rfl⟩
  rw [Functions.lookup_modify]
  split
  · rw [Option.map_map, show PFunction.control ∘ f = PFunction.control from funext hf]
  · rfl

namespace ProgrammatorState.Controlled

theorem same (h : prog.Controlled) (hsame : SameControl prog next) : next.Controlled := by
  refine ⟨⟨hsame.mem.mpr h.linked.root, fun name g hg caller hcaller => ?_, fun name g hg => ?_⟩,
    fun name hname => hsame.mem.mpr (h.order name (hsame.order ▸ hname)), ?_, ?_,
    fun label hlabel => hsame.mem.mpr (h.death label (hsame.death ▸ hlabel))⟩
  · obtain ⟨old, hold, hcontrol⟩ := hsame.lookup hg
    have hcalled : g.calledFrom = old.calledFrom := congrArg (fun c => c.2.2) hcontrol
    exact hsame.mem.mpr (h.linked.calls name old hold caller (hcalled ▸ hcaller))
  · obtain ⟨old, hold, hcontrol⟩ := hsame.lookup hg
    have hactions : g.actions = old.actions := congrArg (fun c => c.1) hcontrol
    have hcurrent : g.current = old.current := congrArg (fun c => c.2.1) hcontrol
    rw [hactions, hcurrent]
    exact h.linked.indices name old hold
  · rw [hsame.current]
    exact hsame.mem.mpr h.current
  · obtain ⟨old, hold, hle⟩ := h.start
    have hname := hsame.functions prog.startpoint.1
    rw [hold] at hname
    obtain ⟨g, hg, hcontrol⟩ := Option.map_eq_some_iff.mp hname
    have hactions : g.actions = old.actions := congrArg (fun c => c.1) hcontrol
    rw [hsame.start]
    exact ⟨g, hg, hactions ▸ hle⟩

/-- A change of one function that leaves its actions. -/
theorem modify (h : prog.Controlled) (name : String) (hactions : ∀ g, (f g).actions = g.actions)
    (hcalls : ∀ g, prog.currentProg.lookup name = some g → ∀ caller ∈ (f g).calledFrom, caller ∈ prog.currentProg)
    (hindices : ∀ g, prog.currentProg.lookup name = some g → (f g).current ≤ g.actions.length) :
    { prog with currentProg := prog.currentProg.modify name f }.Controlled := by
  refine ⟨h.linked.modify name hcalls fun g hg => (hactions g).symm ▸ hindices g hg,
    fun n hn => Functions.mem_modify.mpr (h.order n hn), Functions.mem_modify.mpr h.current, ?_,
    fun label hlabel => Functions.mem_modify.mpr (h.death label hlabel)⟩
  obtain ⟨g, hg, hle⟩ := h.start
  dsimp only
  rw [Functions.lookup_modify]
  split
  · exact ⟨f g, by rw [hg]; rfl, (hactions g).symm ▸ hle⟩
  · exact ⟨g, hg, hle⟩

theorem goTo (h : prog.Controlled) (hname : name ∈ prog.currentProg) :
    { prog with currentFunction := name }.Controlled :=
  ⟨h.linked, h.order, hname, h.start, h.death⟩

theorem reset (h : prog.Controlled) : (prog.modifyCurrent PFunction.reset).Controlled :=
  h.modify _ (fun _ => rfl) (fun g hg caller hcaller => h.linked.calls _ g hg caller hcaller)
    fun _ _ => Nat.zero_le _

theorem fetched (h : prog.Controlled) {g : PFunction} (hg : prog.function = some g)
    (hlt : g.current < g.actions.length) : prog.fetched.Controlled := by
  refine h.modify _ (fun _ => rfl) (fun g hg caller hcaller => h.linked.calls _ g hg caller hcaller) fun g' hg' => ?_
  obtain rfl := Option.some.inj (hg.symm.trans hg')
  exact hlt

theorem toStartpoint (h : prog.Controlled) : prog.toStartpoint.Controlled := by
  obtain ⟨g, hg, hle⟩ := h.start
  refine (h.goTo (AList.lookup_isSome.mp (by rw [hg]; rfl))).modify _ (fun _ => rfl)
    (fun g hg caller hcaller => h.linked.calls _ g hg caller hcaller) fun g' hg' => ?_
  obtain rfl := Option.some.inj (hg.symm.trans hg')
  exact hle

theorem dropState (h : prog.Controlled) : prog.dropState.Controlled := by
  refine ⟨h.linked.resetAll, fun name hname => Functions.mem_resetAll.mpr (h.order name hname),
    Functions.mem_resetAll.mpr h.linked.root, ?_, nofun⟩
  obtain ⟨g, hg⟩ := Option.isSome_iff_exists.mp (AList.lookup_isSome.mpr h.linked.root)
  refine ⟨g.reset, ?_, Nat.zero_le _⟩
  exact (Functions.lookup_resetAll _ _).trans (congrArg (Option.map PFunction.reset) hg)

theorem stopProgram (h : prog.Controlled) : prog.stopProgram.Controlled :=
  dropState ⟨h.linked, h.order, h.current, h.start, h.death⟩

theorem nextFunction (h : prog.Controlled) (hnext : prog.nextFunction = some next) : next.Controlled := by
  rw [ProgrammatorState.nextFunction] at hnext
  split at hnext
  · dsimp only at hnext
    split at hnext
    · obtain ⟨name, hname, heq⟩ := Option.bind_eq_some_iff.mp hnext
      exact Option.some.inj heq ▸ h.goTo (h.order name (List.mem_of_getElem? hname))
    · obtain ⟨name, hname, heq⟩ := Option.bind_eq_some_iff.mp hnext
      exact Option.some.inj heq ▸ h.goTo (h.order name (List.mem_of_getElem? hname))
  · split at hnext
    · rename_i first hfirst
      obtain rfl := Option.some.inj hnext
      exact h.goTo (h.order first (List.mem_of_head? hfirst))
    · exact Option.some.inj hnext ▸ h

end ProgrammatorState.Controlled

end Control

section Execution

variable {prog next : ProgrammatorState} {ctx : ProgrammatorContext} {α β : Type} {state : α → ProgrammatorState}

/-- A computation that has a result leaves the control as it was. -/
def Leaves (state : α → ProgrammatorState) (prog : ProgrammatorState) (r : Checked α) : Prop :=
  ∀ a, r = some a → SameControl prog (state a)

theorem leaves_some {a : α} (h : SameControl prog (state a)) : Leaves state prog (some a) :=
  fun _ hb => Option.some.inj hb ▸ h

theorem leaves_none : Leaves state prog none := nofun

theorem leaves_bind {x : Checked β} {k : β → Checked α} (h : ∀ b, x = some b → Leaves state prog (k b)) :
    Leaves state prog (x >>= k) := by
  intro a ha
  obtain ⟨b, hb, hk⟩ := Option.bind_eq_some_iff.mp ha
  exact h b hb a hk

theorem sameControl_setConditionState (prog : ProgrammatorState) (result : Bool) :
    SameControl prog (prog.setConditionState result) := by
  refine sameControl_modify prog prog.currentFunction fun g => ?_
  split <;> rfl

theorem leaves_checkCell (pos : PlayerPosition) (predicate : Int32 → Int32 → Checked Bool) :
    Leaves id prog (prog.checkCell pos predicate) := by
  refine leaves_bind fun ⟨x, y⟩ _ => leaves_bind fun result _ => leaves_some ?_
  have hreset : SameControl prog prog.resetViewOffsets := sameControl_of_eq rfl rfl rfl rfl rfl
  exact hreset.trans (sameControl_setConditionState prog.resetViewOffsets result)

theorem leaves_cellIs (predicate : UInt8 → Bool) : Leaves Executed.prog prog (cellIs prog ctx predicate) :=
  leaves_bind fun looked hlooked => leaves_some (leaves_checkCell _ _ looked hlooked)

theorem leaves_cellDefIs (predicate : ProgrammatorCell → Bool) :
    Leaves Executed.prog prog (cellDefIs prog ctx predicate) :=
  leaves_bind fun looked hlooked => leaves_some (leaves_checkCell _ _ looked hlooked)

theorem leaves_roadIs : Leaves Executed.prog prog (roadIs prog ctx) :=
  leaves_bind fun looked hlooked => leaves_some (leaves_checkCell _ _ looked hlooked)

theorem leaves_moveBy (offset : Int32 × Int32) : Leaves Executed.prog prog (moveBy prog ctx offset) :=
  leaves_bind fun _ _ => leaves_bind fun ⟨_, _⟩ _ => leaves_some (.refl prog)

theorem leaves_turnTo (dir : Int32) : Leaves Executed.prog prog (turnTo prog ctx dir) :=
  leaves_bind fun _ _ => leaves_some (.refl prog)

theorem leaves_shiftBy (offset : Int32 × Int32) : Leaves Executed.prog prog (shiftBy prog offset) :=
  leaves_bind fun _ _ => leaves_bind fun _ _ => leaves_some (sameControl_of_eq rfl rfl rfl rfl rfl)

theorem leaves_runIf (stays : Bool) (label : String) : Leaves Executed.prog prog (runIf prog stays label) := by
  rw [runIf]
  split
  · exact leaves_some (.refl prog)
  · exact leaves_some (sameControl_modify prog prog.currentFunction fun _ => rfl)

theorem leaves_digToward {after : ProgrammatorState} (h : SameControl prog after) (dir : Int32) :
    Leaves Executed.prog prog (digToward prog ctx after dir) := by
  rw [digToward]
  split
  · exact leaves_some h
  · exact leaves_bind fun _ _ => leaves_some (.refl prog)

theorem leaves_macrosDig : Leaves Executed.prog prog (macrosDig prog ctx) := by
  refine leaves_bind fun ⟨x, y⟩ _ => leaves_bind fun cell _ => ?_
  split <;> exact leaves_some (.refl prog)

theorem leaves_macrosHeal : Leaves Executed.prog prog (macrosHeal prog ctx) := by
  rw [macrosHeal]
  split <;> exact leaves_some (.refl prog)

theorem leaves_mineAround : Leaves Executed.prog prog (mineAround prog ctx) := by
  refine leaves_bind fun found _ => ?_
  cases found with
  | some dir =>
      have hafter : SameControl prog { prog with macrosTemplate := some dir } := sameControl_of_eq rfl rfl rfl rfl rfl
      exact leaves_digToward hafter dir
  | none => exact leaves_some (sameControl_of_eq rfl rfl rfl rfl rfl)

theorem leaves_macrosMine : Leaves Executed.prog prog (macrosMine prog ctx) := by
  have hahead : ∀ ahead : Option Int32, Leaves Executed.prog prog
      (if ahead.isSome then some ⟨prog, [dig ctx], some ctx.directActionDelayUs, .boolResult true⟩
        else mineAround prog ctx) := by
    intro ahead
    split
    · exact leaves_some (.refl prog)
    · exact leaves_mineAround
  rw [macrosMine]
  dsimp only
  split
  · exact leaves_bind fun ahead _ => hahead ahead
  · exact leaves_bind fun ahead _ => hahead ahead

theorem leaves_macrosGun : Leaves Executed.prog prog (macrosGun prog ctx) :=
  leaves_bind fun ⟨_, _⟩ _ => leaves_some (.refl prog)

theorem leaves_macrosDigAround : Leaves Executed.prog prog (macrosDigAround prog ctx) := by
  refine leaves_bind fun _ _ => leaves_bind fun _ _ => leaves_bind fun _ _ => leaves_bind fun _ _ =>
    leaves_bind fun found _ => ?_
  cases found with
  | some dir => exact leaves_digToward (.refl prog) dir
  | none => exact leaves_some (.refl prog)

theorem leaves_readonly (label : String) : Leaves Prod.snd prog (readonlyProgrammatorValue prog ctx label) := by
  have hvalue : ∀ n : Int32, Leaves Prod.snd prog (some (some n, prog)) := fun n => leaves_some (.refl prog)
  rw [readonlyProgrammatorValue]
  dsimp only
  split
  · exact hvalue _
  · split
    case h_9 =>
      exact leaves_bind fun ⟨_, _⟩ _ => leaves_some (sameControl_of_eq rfl rfl rfl rfl rfl)
    case h_11 =>
      split
      · exact hvalue _
      · exact leaves_bind fun percent _ => hvalue percent
    case h_15 => exact leaves_bind fun percent _ => hvalue percent
    case h_19 | h_20 => exact leaves_bind fun _ _ => leaves_bind fun n _ => hvalue n
    case h_21 | h_22 => exact leaves_bind fun _ _ => leaves_bind fun n _ => hvalue n
    case h_23 => exact leaves_some (.refl prog)
    all_goals exact hvalue _

theorem leaves_commandVariable (name : String) : Leaves Prod.snd prog (commandVariableValue prog ctx name) := by
  rw [commandVariableValue]
  split
  · exact leaves_some (.refl prog)
  · exact leaves_readonly name

theorem leaves_runCommand (command : String) (num : Int32) :
    Leaves Prod.snd prog (runProgrammatorCommand prog ctx command num) := by
  have hset : ∀ (looked : ProgrammatorState) (name : String) (value : Int32), SameControl prog looked →
      SameControl prog (looked.setVariable name value) :=
    fun looked name value h => h.trans (sameControl_of_eq rfl rfl rfl rfl rfl)
  rw [runProgrammatorCommand]
  split
  · split
    · exact leaves_some (.refl prog)
    · split
      · exact leaves_some (.refl prog)
      · refine leaves_bind fun found _ => ?_
        cases found with
        | some next => exact leaves_some (hset prog _ next (.refl prog))
        | none => exact leaves_some (.refl prog)
  · split
    · split
      · refine leaves_bind fun ⟨younger, looked⟩ hlooked => ?_
        have hsame : SameControl prog looked := leaves_commandVariable _ _ hlooked
        cases younger with
        | none => exact leaves_some hsame
        | some younger =>
            dsimp only
            split
            · exact leaves_some hsame
            · exact leaves_bind fun next _ => leaves_some (hset looked _ next hsame)
      · exact leaves_some (.refl prog)
    · exact leaves_some (.refl prog)

theorem leaves_compareVariable (action : PAction) : Leaves Executed.prog prog (compareVariable prog ctx action) := by
  have htouch : ∀ p : ProgrammatorState, SameControl p (p.touch action.label) := fun p =>
    sameControl_of_eq rfl rfl rfl rfl rfl
  refine leaves_bind fun ⟨value, looked⟩ hlooked => ?_
  have hsame : SameControl prog looked := leaves_readonly _ _ hlooked
  cases value with
  | some value => exact leaves_some ((hsame.trans (sameControl_setConditionState looked _)).trans (htouch _))
  | none =>
      have hwritten : ∀ r : Bool × ProgrammatorState, SameControl prog r.2 → Leaves Executed.prog prog
          (some ⟨(r.2.touch action.label).setConditionState r.1, [], none, .boolResult r.1⟩) := fun r h =>
        leaves_some ((h.trans (htouch r.2)).trans (sameControl_setConditionState _ r.1))
      refine hwritten _ ?_
      split
      · exact hsame
      · split
        · exact hsame.trans (sameControl_of_eq rfl rfl rfl rfl rfl)
        · exact hsame

theorem leaves_writableState (action : PAction) :
    Leaves Executed.prog prog (executeWritableState prog ctx action) := by
  rw [executeWritableState]
  split
  · exact leaves_some (.refl prog)
  · refine leaves_bind fun ⟨ran, commanded⟩ hcommanded => ?_
    have hsame : SameControl prog commanded := leaves_runCommand _ _ _ hcommanded
    dsimp only
    split
    · exact leaves_some hsame
    · exact fun executed h => hsame.trans (leaves_compareVariable action executed h)

theorem leaves_executeAction {action : PAction} (h : action.actionType ≠ .stop) :
    Leaves Executed.prog prog (executeAction prog ctx action) := by
  unfold executeAction
  generalize action.actionType = actionType at h
  cases actionType
  case moveUp | moveDown | moveLeft | moveRight | moveForward => exact leaves_moveBy _
  case rotateUp | rotateLeft | rotateDown | rotateRight | rotateLeftRelative | rotateRightRelative | rotateRandom =>
    exact leaves_turnTo _
  case shiftUp | shiftDown | shiftLeft | shiftRight | shiftForward => exact leaves_shiftBy _
  case isEmpty | isNotEmpty | isBoulder | isSand | isBreakableRock | isUnbreakable | isFalling => exact leaves_cellDefIs _
  case isRoad => exact leaves_roadIs
  case isCrystal | isBox | isGreenBlock | isYellowBlock | isRedBlock | isPillar | isQuadBlock | isRedRock | isBlackRock
      | isAcid | isSlime | isInGun | isLivingCrystal => exact leaves_cellIs _
  case isHpLower100 | isHpLower50 => exact leaves_some (sameControl_setConditionState prog _)
  case runIfTrue | runIfFalse => exact leaves_runIf _ _
  case or | and => exact leaves_some (sameControl_modify prog prog.currentFunction fun _ => rfl)
  case macrosDig => exact leaves_macrosDig
  case macrosHeal => exact leaves_macrosHeal
  case macrosMine => exact leaves_macrosMine
  case macrosGun => exact leaves_macrosGun
  case macrosDigAround => exact leaves_macrosDigAround
  case writableState | writableStateLower | writableStateMore => exact leaves_writableState _
  case stop => exact absurd rfl h
  all_goals exact leaves_some (sameControl_of_eq rfl rfl rfl rfl rfl)

end Execution

namespace ProgrammatorState.Controlled

variable {prog next : ProgrammatorState} {ctx : ProgrammatorContext} {name label caller : String}
  {f : PFunction → PFunction} {actionType : ActionType}

theorem current_function (h : prog.Controlled) : ∃ g, prog.function = some g :=
  Option.isSome_iff_exists.mp (AList.lookup_isSome.mpr h.current)

theorem caller_mem (h : prog.Controlled) (hcaller : prog.function.bind PFunction.calledFrom = some caller) :
    caller ∈ prog.currentProg := by
  obtain ⟨g, hg, hcalled⟩ := Option.bind_eq_some_iff.mp hcaller
  exact h.linked.calls _ g hg caller hcalled

/-- A change of the function that runs, but not of what the control is about. -/
theorem modifyCurrent (h : prog.Controlled) (hf : ∀ g, (f g).control = g.control) :
    (prog.modifyCurrent f).Controlled :=
  h.same (sameControl_modify prog prog.currentFunction hf)

theorem handOffset (h : prog.Controlled) (hoffered : prog.handOffset name = some next) :
    next.Controlled ∧ SameControl prog next := by
  rw [ProgrammatorState.handOffset] at hoffered
  split at hoffered
  · obtain ⟨x, -, hx⟩ := Option.bind_eq_some_iff.mp hoffered
    obtain ⟨y, -, hy⟩ := Option.bind_eq_some_iff.mp hx
    have hsame : SameControl prog next := Option.some.inj hy ▸ sameControl_modify prog name fun _ => rfl
    exact ⟨h.same hsame, hsame⟩
  · obtain rfl := Option.some.inj hoffered
    exact ⟨h, .refl prog⟩

/-- A function is called by a function of the program. -/
theorem called (h : prog.Controlled) (hlabel : label ∈ prog.currentProg) {calledFrom : Option String}
    (hcaller : ∀ c ∈ calledFrom, c ∈ prog.currentProg)
    (hf : ∀ g, (f g).actions = g.actions ∧ (f g).current = g.current) :
    { prog with
      currentProg := prog.currentProg.modify label (fun g => { f g with calledFrom })
      currentFunction := label }.Controlled := by
  refine (h.modify (f := fun g => { f g with calledFrom }) label (fun g => (hf g).1) (fun _ _ => hcaller)
    fun g hg => ?_).goTo (Functions.mem_modify.mpr hlabel)
  exact (hf g).2 ▸ h.linked.indices label g hg

theorem handleGotoLabel (h : prog.Controlled) (label : String) : (handleGotoLabel prog label).Controlled := by
  rw [OpenMines.handleGotoLabel]
  split
  · rename_i hlabel
    split
    · exact h.reset.toStartpoint
    · exact h.reset.goTo (Functions.mem_modify.mpr hlabel)
  · exact h.toStartpoint

theorem handleLabelResult (h : prog.Controlled) (hnext : handleLabelResult prog actionType label = some next) :
    next.Controlled := by
  have hcaller : ∀ c ∈ (some prog.currentFunction : Option String), c ∈ prog.currentProg := fun c hc =>
    Option.some.inj hc ▸ h.current
  unfold OpenMines.handleLabelResult at hnext
  dsimp only at hnext
  split at hnext
  · exact Option.some.inj hnext ▸ h.handleGotoLabel label
  · split at hnext
    · rename_i hlabel
      exact Option.some.inj hnext ▸ h.called (f := id) hlabel hcaller fun _ => ⟨rfl, rfl⟩
    · exact Option.some.inj hnext ▸ h
  · split at hnext
    · rename_i hlabel
      obtain ⟨offered, hoffered, hcalled⟩ := Option.bind_eq_some_iff.mp hnext
      obtain ⟨hcontrolled, hsame⟩ := h.handOffset hoffered
      exact Option.some.inj hcalled ▸ hcontrolled.called (f := id) (hsame.mem.mpr hlabel)
        (fun c hc => hsame.mem.mpr (hcaller c hc)) fun _ => ⟨rfl, rfl⟩
    · exact Option.some.inj hnext ▸ h
  · split at hnext
    · rename_i hlabel
      obtain ⟨offered, hoffered, hcalled⟩ := Option.bind_eq_some_iff.mp hnext
      obtain ⟨hcontrolled, hsame⟩ := h.handOffset hoffered
      let f (g : PFunction) : PFunction :=
        { g with
          state := prog.function.bind PFunction.state
          lastStateAction := prog.function.bind PFunction.lastStateAction }
      exact Option.some.inj hcalled ▸ hcontrolled.called (f := f) (hsame.mem.mpr hlabel)
        (fun c hc => hsame.mem.mpr (hcaller c hc)) fun _ => ⟨rfl, rfl⟩
    · exact Option.some.inj hnext ▸ h
  · split at hnext
    · rename_i hlabel
      split at hnext
      · exact Option.some.inj hnext ▸ h.reset.toStartpoint
      · exact Option.some.inj hnext ▸ h.reset.called (f := id) (Functions.mem_modify.mpr hlabel)
          (fun _ hc => h.reset.caller_mem hc) fun _ => ⟨rfl, rfl⟩
    · exact Option.some.inj hnext ▸ h
  · split at hnext
    · rename_i hlabel
      split at hnext
      · exact Option.some.inj hnext ▸ h.reset.toStartpoint
      · exact Option.some.inj hnext ▸ h.reset.called (f := id) (Functions.mem_modify.mpr hlabel)
          (fun _ hc => h.reset.caller_mem hc) fun _ => ⟨rfl, rfl⟩
    · exact Option.some.inj hnext ▸ h
  · split at hnext
    · rename_i hlabel
      refine Option.some.inj hnext ▸ ⟨h.linked, h.order, h.current, h.start, fun l hl => ?_⟩
      exact Option.some.inj hl ▸ hlabel
    · exact Option.some.inj hnext ▸ h
  · exact Option.some.inj hnext ▸ h

theorem handleBoolResult (h : prog.Controlled) (actionType : ActionType) (state : Bool) :
    (handleBoolResult prog actionType state).Controlled := by
  have hback :
      (if state then prog.modifyCurrent (fun f => { f with current := f.current - 1 }) else prog).Controlled := by
    split
    · exact h.modify _ (fun _ => rfl) (fun g hg => h.linked.calls _ g hg)
        fun g hg => Nat.le_trans (Nat.sub_le _ _) (h.linked.indices _ g hg)
    · exact h
  unfold OpenMines.handleBoolResult
  split
  · have hleft : (prog.modifyCurrent fun f => { f.reset with startoffset := (0, 0) }).Controlled :=
      h.modify _ (fun _ => rfl) (fun g hg => h.linked.calls _ g hg) fun _ _ => Nat.zero_le _
    dsimp only
    split
    · rename_i caller hcaller
      exact (hleft.goTo (hleft.caller_mem hcaller)).modifyCurrent fun _ => rfl
    · exact hleft
  · exact hback
  · exact hback
  · exact hback
  · exact hback
  · exact hback
  · exact h

theorem handleNoneResult (h : prog.Controlled) (hnext : handleNoneResult prog actionType = some next) :
    next.Controlled := by
  have hoffset : (prog.modifyCurrent fun f => { f with startoffset := (0, 0) }).Controlled :=
    h.modifyCurrent fun _ => rfl
  unfold OpenMines.handleNoneResult at hnext
  split at hnext
  case h_14 =>
    dsimp only at hnext
    split at hnext
    · rename_i caller hcaller
      exact Option.some.inj hnext ▸ h.reset.goTo (h.reset.caller_mem hcaller)
    · exact Option.some.inj hnext ▸ h.reset
  case h_15 =>
    dsimp only at hnext
    split at hnext
    · rename_i caller hcaller
      obtain ⟨offered, hoffered, hreturned⟩ := Option.bind_eq_some_iff.mp hnext
      obtain ⟨hcontrolled, hsame⟩ := h.reset.handOffset hoffered
      let f (g : PFunction) : PFunction :=
        { g with
          state := (prog.modifyCurrent PFunction.reset).function.bind PFunction.state
          lastStateAction := (prog.modifyCurrent PFunction.reset).function.bind PFunction.lastStateAction }
      refine Option.some.inj hreturned ▸
        (hcontrolled.same (sameControl_modify (f := f) offered caller fun _ => rfl)).goTo ?_
      exact Functions.mem_modify.mpr (hsame.mem.mpr (h.reset.caller_mem hcaller))
    · exact Option.some.inj hnext ▸ h.reset
  case h_16 =>
    obtain ⟨g, hg⟩ := h.current_function
    refine Option.some.inj hnext ▸ ⟨h.linked, h.order, h.current, ⟨g, hg, ?_⟩, h.death⟩
    rw [hg]
    exact h.linked.indices _ g hg
  case h_17 => exact Option.some.inj hnext ▸ h.same (sameControl_of_eq rfl rfl rfl rfl rfl)
  case h_18 => exact Option.some.inj hnext ▸ h
  all_goals exact Option.some.inj hnext ▸ hoffset

theorem executeAction {action : PAction} {executed : Executed} (h : prog.Controlled)
    (hexecuted : executeAction prog ctx action = some executed) : executed.prog.Controlled := by
  by_cases hstop : action.actionType = .stop
  · rw [OpenMines.executeAction, hstop] at hexecuted
    exact Option.some.inj hexecuted ▸ h.stopProgram
  · exact h.same (leaves_executeAction hstop executed hexecuted)

theorem scheduleNextStep (h : prog.Controlled) (queue : List ProgrammatorAction) (delay : Option Nat) :
    (scheduleNextStep prog ctx queue delay).prog.Controlled := by
  rw [OpenMines.scheduleNextStep]
  split
  · exact h.same (sameControl_of_eq rfl rfl rfl rfl rfl)
  · exact h

theorem runAction {action : PAction} {ticked : Ticked} (h : prog.Controlled)
    (hticked : runAction prog ctx action = some ticked) : ticked.prog.Controlled := by
  obtain ⟨executed, hexecuted, hrest⟩ := Option.bind_eq_some_iff.mp hticked
  obtain ⟨handled, hhandled, hscheduled⟩ := Option.bind_eq_some_iff.mp hrest
  have hcontrolled := h.executeAction hexecuted
  refine Option.some.inj hscheduled ▸ scheduleNextStep ?_ _ _
  rw [handleResult] at hhandled
  split at hhandled
  · exact hcontrolled.handleLabelResult hhandled
  · exact Option.some.inj hhandled ▸ hcontrolled.handleBoolResult _ _
  · exact hcontrolled.handleNoneResult hhandled

/-- A round of the system; the function that runs is always found. -/
theorem programmatorSystem {dueAt : Nat} {ticked : Ticked} (h : prog.Controlled)
    (hticked : programmatorSystem prog ctx dueAt = some ticked) : ticked.prog.Controlled := by
  obtain ⟨g, hg⟩ := h.current_function
  rw [OpenMines.programmatorSystem] at hticked
  split at hticked
  · rw [hg] at hticked
    dsimp only at hticked
    split at hticked
    · obtain ⟨next, hnext, hscheduled⟩ := Option.bind_eq_some_iff.mp hticked
      exact Option.some.inj hscheduled ▸ (h.reset.nextFunction hnext).scheduleNextStep _ _
    · rename_i hend
      obtain ⟨action, -, hran⟩ := Option.bind_eq_some_iff.mp hticked
      exact (h.fetched hg (Nat.lt_of_not_le fun hle => hend (.inr hle))).runAction hran
  · exact Option.some.inj hticked ▸ h

theorem die (h : prog.Controlled) (isFreeResp : Bool) : (prog.die isFreeResp).Controlled := by
  rw [ProgrammatorState.die]
  split
  · split
    · rename_i label hlabel
      have hmem := (Option.filter_eq_some_iff.mp hlabel).2
      exact h.reset.goTo (Functions.mem_modify.mpr (of_decide_eq_true (Bool.and_eq_true_iff.mp hmem).2))
    · exact h.same (sameControl_of_eq rfl rfl rfl rfl rfl)
  · exact h

end ProgrammatorState.Controlled

end OpenMines
