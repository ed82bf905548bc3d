import OpenMines.Lib.Run
import OpenMines.ProgrammatorControl
import OpenMines.ProgrammatorPanics

namespace OpenMines

open Lib.CheckedInt Lib.Run

section Parsers

/-- What a parser has built: the first function and those of the order are there, and none has run. -/
structure ParseState.Fresh (p : ParseState) : Prop where
  root : "" ∈ p.functions
  order : ∀ name ∈ p.functionOrder, name ∈ p.functions
  idle : ∀ name g, p.functions.lookup name = some g → g.current = 0 ∧ g.calledFrom = none

variable {p q : ParseState}

theorem fresh_start : ParseState.start.Fresh := by
  have hlookup : ∀ name, ParseState.start.functions.lookup name = if name = "" then some .new else none := by
    intro name
    by_cases hname : name = ""
    · subst hname
      rfl
    · rw [if_neg hname]
      exact List.dlookup_cons_ne [] _ hname
  refine ⟨?_, fun name hname => ?_, fun name g hg => ?_⟩
  · rw [← AList.lookup_isSome, hlookup]
    rfl
  · rw [List.mem_singleton.mp hname, ← AList.lookup_isSome, hlookup]
    rfl
  · rw [hlookup] at hg
    split at hg
    · exact Option.some.inj hg ▸ ⟨rfl, rfl⟩
    · cases hg

namespace ParseState.Fresh

theorem push (h : p.Fresh) (actionType : ActionType) (label : List Char) (num : Int32) :
    (p.push actionType label num).Fresh := by
  refine ⟨Functions.mem_modify.mpr h.root, fun name hname => Functions.mem_modify.mpr (h.order name hname),
    fun name g hg => ?_⟩
  have hg' : (p.functions.modify p.currentFunc fun f => f.push ⟨actionType, String.ofList label, num⟩).lookup name =
      some g := hg
  rw [Functions.lookup_modify] at hg'
  split at hg'
  · obtain ⟨old, hold, rfl⟩ := Option.map_eq_some_iff.mp hg'
    exact h.idle name old hold
  · exact h.idle name g hg'

/-- A function is new, or it takes the place of one with its name. -/
theorem insert (h : p.Fresh) (name : String) :
    (⟨p.functions.insert name .new, p.functionOrder ++ [name], name⟩ : ParseState).Fresh := by
  refine ⟨(AList.mem_insert _).mpr (.inr h.root), fun n hn => (AList.mem_insert _).mpr ?_, fun n g hg => ?_⟩
  · rcases List.mem_append.mp hn with hn | hn
    · exact .inr (h.order n hn)
    · exact .inl (List.mem_singleton.mp hn)
  · by_cases hname : n = name
    · subst hname
      rw [AList.lookup_insert] at hg
      exact Option.some.inj hg ▸ ⟨rfl, rfl⟩
    · rw [AList.lookup_insert_ne hname] at hg
      exact h.idle n g hg

theorem beginFunction (h : p.Fresh) (label : List Char) : (beginFunction p label).Fresh := by
  rw [OpenMines.beginFunction]
  split
  · exact ⟨h.root, h.order, h.idle⟩
  · exact h.insert _

theorem stateAction (h : p.Fresh) (expr : List Char) : (stateAction p expr).Fresh := by
  rw [OpenMines.stateAction]
  split
  · dsimp only
    split
    · exact h.push _ _ _
    · exact h
  · split
    · dsimp only
      split
      · exact h.push _ _ _
      · exact h
    · split
      · dsimp only
        split
        · exact h.push _ _ _
        · exact h
      · exact h

end ParseState.Fresh

namespace NormalState

variable {n m : NormalState}

theorem fresh_add (h : n.Fresh) (atype : ActionType) (name : List Char) (number : Int32) :
    (n.add atype name number).Fresh := by
  unfold add
  split
  case h_2 => exact h.insert _
  case h_13 => exact h
  all_goals first | exact ⟨h.root, h.order, h.idle⟩ | exact h.push _ _ _

theorem fresh_endRow (h : n.Fresh) : n.endRow.Fresh := by
  rw [endRow]
  split
  · dsimp only
    split
    · exact h.push _ _ _
    · exact h
  · exact h

end NormalState

/-- A parser ends with such functions, where it ends with any. -/
def Yields (r : Checked (Option (Functions × List String))) : Prop :=
  ∀ functions order, r = some (some (functions, order)) → ∃ p : ParseState, p.Fresh ∧ p.functions = functions ∧
    p.functionOrder = order

theorem normalStep_fresh {bytes : List UInt8} {labels : List (List Char)} {n m : NormalState} {i : Nat} (h : n.Fresh)
    (hstep : normalStep bytes labels n i = some m) : m.Fresh := by
  obtain ⟨_, -, hoffset⟩ := Option.bind_eq_some_iff.mp hstep
  obtain ⟨_, -, hbyte⟩ := Option.bind_eq_some_iff.mp hoffset
  obtain ⟨⟨name, number⟩, -, hlabel⟩ := Option.bind_eq_some_iff.mp hbyte
  obtain ⟨_, -, hindex⟩ := Option.bind_eq_some_iff.mp hlabel
  exact Option.some.inj hindex ▸ NormalState.fresh_endRow (NormalState.fresh_add h _ name number)

theorem foldlM_fresh {bytes : List UInt8} {labels : List (List Char)} {l : List Nat} {n m : NormalState} (h : n.Fresh)
    (hloop : l.foldlM (normalStep bytes labels) n = some m) : m.Fresh := by
  induction l generalizing n with
  | nil => exact Option.some.inj hloop ▸ h
  | cons i l ih =>
      rw [List.foldlM_cons] at hloop
      obtain ⟨n', hstep, hrest⟩ := Option.bind_eq_some_iff.mp hloop
      exact ih (normalStep_fresh h hstep) hrest

theorem yields_parseNormal (codec : ProgramCodec) (data : List Char) : Yields (parseNormal codec data) := by
  intro functions order h
  obtain ⟨decoded, -, hloop⟩ := Option.bind_eq_some_iff.mp h
  match decoded, hloop with
  | some (bytes, num, labels), hloop =>
      obtain ⟨n, hn, hresult⟩ := Option.bind_eq_some_iff.mp hloop
      obtain ⟨rfl, rfl⟩ := Prod.mk.inj (Option.some.inj (Option.some.inj hresult))
      exact ⟨n.toParseState, foldlM_fresh fresh_start hn, rfl, rfl⟩

section Text

variable {context : List Char} {i : Nat}

/-- A round of the reader leaves such functions. -/
def Keeps (r : Checked (Nat × ParseState)) : Prop := ∀ next q, r = some (next, q) → q.Fresh

theorem keeps_at (h : p.Fresh) (n : Checked Nat) : Keeps (n.bind fun next => some (next, p)) := by
  intro next q hq
  obtain ⟨m, -, hm⟩ := Option.bind_eq_some_iff.mp hq
  exact (Prod.mk.inj (Option.some.inj hm)).2 ▸ h

theorem keeps_bind {x : Checked Nat} {k : Nat → Checked (Nat × ParseState)} (h : ∀ n, Keeps (k n)) :
    Keeps (x.bind k) := by
  intro next q hq
  obtain ⟨n, -, hn⟩ := Option.bind_eq_some_iff.mp hq
  exact h n next q hn

theorem keeps_skipChar (h : p.Fresh) (ch : Char) : Keeps (skipChar i p ch) := keeps_at h _

theorem keeps_readLabel {start : Nat} {delimiter : Char} {act : List Char → ParseState}
    {otherwise : Checked (Nat × ParseState)} (hact : ∀ label, (act label).Fresh) (hother : Keeps otherwise) :
    Keeps (readLabel context start delimiter act otherwise) := by
  intro next q hq
  obtain ⟨found, -, hfound⟩ := Option.bind_eq_some_iff.mp hq
  match found, hfound with
  | some (label, after), hfound => exact (Prod.mk.inj (Option.some.inj hfound)).2 ▸ hact label
  | none, hfound => exact hother next q hfound

theorem keeps_readLabelAction (h : p.Fresh) (start : Nat) (delimiter : Char) (actionType : ActionType) (ch : Char) :
    Keeps (readLabelAction context i p start delimiter actionType ch) :=
  keeps_readLabel (fun label => h.push actionType label 0) (keeps_skipChar h ch)

theorem keeps_readKind (h : p.Fresh) (kinds : List (Char × ActionType)) (ch : Char)
    {otherwise : Checked (Nat × ParseState)} (hother : Keeps otherwise) :
    Keeps (readKind context i p kinds ch otherwise) := by
  refine keeps_bind fun after => ?_
  split
  · split
    · exact keeps_at (h.push _ _ _) _
    · exact hother
  · exact hother

theorem keeps_charStep (h : p.Fresh) (ch : Char) : Keeps (charStep context i p ch) := by
  have hskip : Keeps (skipChar i p ch) := keeps_skipChar h ch
  have hword (n : Checked Nat) (actionType : ActionType) :
      Keeps (n.bind fun next => some (next, p.pushTextAction actionType)) := keeps_at (h.push _ _ _) n
  have hlabel (n : Checked Nat) (delimiter : Char) (actionType : ActionType) :
      Keeps (n.bind fun start => readLabelAction context i p start delimiter actionType ch) :=
    keeps_bind fun start => keeps_readLabelAction h start delimiter actionType ch
  refine keeps_bind fun after => ?_
  split
  · exact keeps_readLabelAction h _ _ _ _
  · exact keeps_readLabel h.stateAction hskip
  · split
    · exact hlabel _ _ _
    · split
      · exact hlabel _ _ _
      · exact hskip
  · refine keeps_readLabel (fun label => ?_) hskip
    split
    · exact h.push _ _ _
    · exact h
  · split
    · exact hword _ _
    · split
      · exact hword _ _
      · split
        · exact hlabel _ _ _
        · exact hskip
  · split
    · exact hlabel _ _ _
    · exact hskip
  · split
    · exact hlabel _ _ _
    · exact hskip
  · have hkind : Keeps (readKind context i p conditionKinds '=' (skipChar i p '=')) := keeps_readKind h _ _ hskip
    split
    · exact keeps_bind fun start => keeps_readLabel (fun label => h.push _ label 0) hkind
    · exact hkind
  · exact keeps_readLabelAction h _ _ _ _
  · exact keeps_readLabel h.beginFunction hskip
  · split
    · exact hword _ _
    · split
      · exact hword _ _
      · split
        · exact hword _ _
        · exact hskip
  · exact keeps_readKind h _ _ hskip
  · exact keeps_readLabelAction h _ _ _ _
  · split
    · exact keeps_skipChar (h.push _ _ _) ch
    · exact hskip

theorem keeps_textStep (h : p.Fresh) (ch : Char) (rest : List Char) : Keeps (textStep context i p ch rest) := by
  rw [textStep]
  split
  · exact keeps_at (h.push _ _ _) _
  · exact keeps_charStep h ch

theorem textLoop_fresh {rounds : Nat} (h : p.Fresh) (hloop : textLoop context rounds i p = some (some q)) :
    q.Fresh := by
  induction rounds generalizing i p with
  | zero => cases hloop
  | succ rounds ih =>
      rw [textLoop] at hloop
      split at hloop
      · split at hloop
        · cases hloop
        · exact Option.some.inj (Option.some.inj hloop) ▸ h
        · obtain ⟨⟨next, p'⟩, hstep, hrest⟩ := Option.bind_eq_some_iff.mp hloop
          exact ih (keeps_textStep h _ _ next p' hstep) hrest
      · exact Option.some.inj (Option.some.inj hloop) ▸ h

theorem yields_parseText (data : List Char) : Yields (parseText data) := by
  intro functions order h
  rw [parseText.eq_def] at h
  split at h
  · obtain ⟨found, hfound, hresult⟩ := Option.bind_eq_some_iff.mp h
    match found, hfound, hresult with
    | some q, hfound, hresult =>
        obtain ⟨rfl, rfl⟩ := Prod.mk.inj (Option.some.inj (Option.some.inj hresult))
        exact ⟨q, textLoop_fresh fresh_start hfound, rfl, rfl⟩
  · cases h

end Text

end Parsers

section Runs

variable {codec : ProgramCodec} {prog next : ProgrammatorState} {data : Source} {now : Nat}

/-- No program is loaded: none was ever read, or the last one could not be. -/
def ProgrammatorState.Blank (prog : ProgrammatorState) : Prop := prog.currentProg.keys = [] ∧ prog.running = false

/-- A program that was just read. -/
theorem controlled_of_fresh {p : ParseState} (h : p.Fresh) (hprog : prog.currentProg = p.functions)
    (horder : prog.functionOrder = p.functionOrder) : prog.dropState.Controlled := by
  have hlinked : prog.currentProg.Linked := by
    rw [hprog]
    refine ⟨h.root, fun name g hg caller hcaller => ?_, fun name g hg => ?_⟩
    · rw [(h.idle name g hg).2] at hcaller
      cases hcaller
    · rw [(h.idle name g hg).1]
      exact Nat.zero_le _
  obtain ⟨g, hg⟩ := Option.isSome_iff_exists.mp (AList.lookup_isSome.mpr hlinked.root)
  have hroot :
      ({ prog with currentFunction := "", startpoint := ("", 0), gotoDeath := none } : ProgrammatorState).Controlled :=
    ⟨hlinked, fun name hname => hprog ▸ h.order name (horder ▸ hname), hlinked.root, ⟨g, hg, Nat.zero_le _⟩, nofun⟩
  exact hroot.dropState

theorem runProgram_controlled (hrun : prog.runProgram codec data now = some next) : next.Controlled ∨ next.Blank := by
  let stopped : ProgrammatorState :=
    { prog with running := false, currentProg := ∅, functionOrder := [], currentFunction := "" }
  have hparsed : ∀ r, Yields r → ∀ load : Option (Functions × List String) → Checked ProgrammatorState,
      (∀ functions order, load (some (functions, order)) =
        some { { stopped with
          currentProg := functions, functionOrder := order, delay := now, startedAt := now }.dropState with
          running := true }) →
      load none = some stopped.dropState → r.bind load = some next → next.Controlled ∨ next.Blank := by
    intro r hr load hloads hfails hnext
    obtain ⟨parsed, hparsed, hloaded⟩ := Option.bind_eq_some_iff.mp hnext
    cases parsed with
    | none => exact .inr (Option.some.inj (hfails.symm.trans hloaded) ▸ ⟨rfl, rfl⟩)
    | some loaded =>
        obtain ⟨functions, order⟩ := loaded
        obtain ⟨p, hfresh, rfl, rfl⟩ := hr functions order hparsed
        obtain rfl := Option.some.inj ((hloads _ _).symm.trans hloaded)
        exact .inl ((controlled_of_fresh hfresh rfl rfl).same (sameControl_of_eq rfl rfl rfl rfl rfl))
  rw [ProgrammatorState.runProgram] at hrun
  dsimp only at hrun
  split at hrun
  · exact hparsed _ (yields_parseText _) _ (fun _ _ => rfl) rfl hrun
  · exact hparsed _ (yields_parseNormal codec _) _ (fun _ _ => rfl) rfl hrun

/-- The programs of the players, and the snapshots that their rows keep. -/
structure ProgramStore where
  live : Programmators
  saved : Entity → Option ProgrammatorState

inductive StoreEvent
  /-- the row of the player is saved -/
  | save (entity : Entity)
  /-- the player connects, with the program of its row -/
  | connect (entity : Entity) (now : Nat)
  | server (e : ProgrammatorEvent)

namespace ProgramStore

/-- A server without players. -/
def empty : ProgramStore := ⟨⟨fun _ => none, [], [], []⟩, fun _ => none⟩

def step (codec : ProgramCodec) (s : ProgramStore) : StoreEvent → Checked ProgramStore
  | .save entity => some { s with saved := Function.update s.saved entity (s.live.states entity) }
  | .connect entity now =>
      (Programmators.step codec s.live (.connect entity now (s.saved entity))).map fun live => { s with live }
  | .server (.connect ..) => none
  | .server e => (Programmators.step codec s.live e).map fun live => { s with live }

/-- The program that a connection brings. -/
def snapshot : ProgrammatorEvent → Option ProgrammatorState
  | .connect _ _ snapshot => snapshot
  | _ => none

/-- Each program is controlled, or none is loaded. -/
def Kept (states : Entity → Option ProgrammatorState) : Prop :=
  ∀ entity prog, states entity = some prog → prog.Controlled ∨ prog.Blank

theorem kept_update {states : Entity → Option ProgrammatorState} (h : Kept states) (entity : Entity)
    {state : Option ProgrammatorState} (hstate : ∀ prog ∈ state, prog.Controlled ∨ prog.Blank) :
    Kept (Function.update states entity state) := by
  intro e p hp
  by_cases he : e = entity
  · subst he
    rw [Function.update_self] at hp
    exact hstate p hp
  · rw [Function.update_of_ne he] at hp
    exact h e p hp

theorem kept_alter {s : Programmators} (h : Kept s.states) (entity : Entity)
    {f : ProgrammatorState → ProgrammatorState}
    (hf : ∀ p : ProgrammatorState, p.Controlled ∨ p.Blank → (f p).Controlled ∨ (f p).Blank) :
    Kept (s.alter entity f).states := by
  rw [Programmators.alter]
  split
  · rename_i p hp
    exact kept_update h entity fun _ hq => Option.some.inj hq ▸ hf p (h entity p hp)
  · exact h

theorem kept_step {s t : Programmators} {e : ProgrammatorEvent} (h : Kept s.states)
    (hsnapshot : ∀ p ∈ snapshot e, p.Controlled ∨ p.Blank) (hstep : Programmators.step codec s e = some t) :
    Kept t.states := by
  cases e with
  | packet payload =>
      obtain ⟨_, -, ht⟩ := Option.bind_eq_some_iff.mp hstep
      exact Option.some.inj ht ▸ h
  | connect entity now snapshot =>
      obtain rfl := Option.some.inj hstep
      refine kept_update h entity fun q hq => Option.some.inj hq ▸ ?_
      cases snapshot with
      | none => exact .inr ⟨rfl, rfl⟩
      | some p => exact (hsnapshot p rfl).imp (fun hp => hp.same (sameControl_of_eq rfl rfl rfl rfl rfl)) id
  | run entity data now =>
      rw [Programmators.step] at hstep
      split at hstep
      · obtain ⟨next, hnext, ht⟩ := Option.bind_eq_some_iff.mp hstep
        exact Option.some.inj ht ▸ kept_update h entity fun _ hq => Option.some.inj hq ▸ runProgram_controlled hnext
      · exact Option.some.inj hstep ▸ h
  | due entity dueAt ctx =>
      rw [Programmators.step] at hstep
      split at hstep
      · rename_i p hp
        obtain ⟨ticked, hticked, ht⟩ := Option.bind_eq_some_iff.mp hstep
        refine Option.some.inj ht ▸ kept_update h entity fun q hq => Option.some.inj hq ▸ ?_
        rcases h entity p hp with hcontrolled | hblank
        · exact .inl (hcontrolled.programmatorSystem hticked)
        · have hidle : p.isDue ctx dueAt = false := by
            rw [ProgrammatorState.isDue, hblank.2, Bool.and_false, Bool.false_and, Bool.false_and]
          rw [programmatorSystem, if_neg (by rw [hidle]; exact Bool.false_ne_true)] at hticked
          exact .inr (Option.some.inj hticked ▸ hblank)
      · exact Option.some.inj hstep ▸ h
  | stop entity =>
      obtain rfl := Option.some.inj hstep
      refine kept_alter h entity fun p hp => ?_
      split
      · rename_i hrunning
        exact .inl (hp.resolve_right fun hblank => by rw [hblank.2] at hrunning; cases hrunning).stopProgram
      · exact hp
  | clear entity =>
      obtain rfl := Option.some.inj hstep
      exact kept_alter h entity fun p hp =>
        hp.imp (fun hcontrolled => hcontrolled.same (sameControl_of_eq rfl rfl rfl rfl rfl))
          fun hblank => ⟨hblank.1, rfl⟩
  | death entity isFreeResp =>
      obtain rfl := Option.some.inj hstep
      refine kept_alter h entity fun p hp => hp.imp (fun hcontrolled => hcontrolled.die isFreeResp) fun hblank => ?_
      rw [ProgrammatorState.die, if_neg (by rw [hblank.2]; exact Bool.false_ne_true)]
      exact hblank

/-- Both the programs that run and the snapshots. -/
def Controls (s : ProgramStore) : Prop := Kept s.live.states ∧ Kept s.saved

theorem controls_server {s t : ProgramStore} {e : ProgrammatorEvent} (h : s.Controls)
    (hsnapshot : ∀ p ∈ snapshot e, p.Controlled ∨ p.Blank)
    (hstep : (Programmators.step codec s.live e).map (fun live => ({ s with live } : ProgramStore)) = some t) :
    t.Controls := by
  obtain ⟨live, hlive, rfl⟩ := Option.map_eq_some_iff.mp hstep
  exact ⟨kept_step h.1 hsnapshot hlive, h.2⟩

theorem controls_step {s t : ProgramStore} {e : StoreEvent} (h : s.Controls) (hstep : step codec s e = some t) :
    t.Controls := by
  cases e with
  | save entity =>
      obtain rfl := Option.some.inj hstep
      exact ⟨h.1, kept_update h.2 entity fun p hp => h.1 entity p hp⟩
  | connect entity now =>
      exact @controls_server codec s t (.connect entity now (s.saved entity)) h (fun p hp => h.2 entity p hp) hstep
  | server e =>
      have hnone : ∀ p ∈ (none : Option ProgrammatorState), p.Controlled ∨ p.Blank := fun _ hp => by cases hp
      cases e with
      | connect => cases hstep
      | packet payload => exact @controls_server codec s t (.packet payload) h hnone hstep
      | run entity data now => exact @controls_server codec s t (.run entity data now) h hnone hstep
      | due entity dueAt ctx => exact @controls_server codec s t (.due entity dueAt ctx) h hnone hstep
      | stop entity => exact @controls_server codec s t (.stop entity) h hnone hstep
      | clear entity => exact @controls_server codec s t (.clear entity) h hnone hstep
      | death entity isFreeResp => exact @controls_server codec s t (.death entity isFreeResp) h hnone hstep

theorem controls_empty : empty.Controls :=
  ⟨fun _ _ hp => (by cases hp), fun _ _ hp => (by cases hp)⟩

/-- A program that is loaded is controlled in every state of a run, and so is every snapshot: what the control names
is there, and where an action is fetched there is one. -/
theorem controlled_run {es : List StoreEvent} {t : ProgramStore} (hrun : Lib.Run.run (step codec) empty es = some t)
    (entity : Entity) (prog : ProgrammatorState)
    (hprog : t.live.states entity = some prog ∨ t.saved entity = some prog) (hloaded : prog.currentProg.keys ≠ []) :
    prog.Controlled ∧ ∃ f, prog.function = some f ∧
      (f.current = f.actions.length ∨ ∃ action, f.actions[f.current]? = some action) := by
  have hcontrols : t.Controls :=
    run_preserves (P := Controls) controls_empty (fun e _ u v hu hstep => controls_step hu hstep) hrun
  have hkept : prog.Controlled ∨ prog.Blank := hprog.elim (hcontrols.1 entity prog) (hcontrols.2 entity prog)
  have hcontrolled := hkept.resolve_right fun hblank => hloaded hblank.1
  obtain ⟨f, hf⟩ := hcontrolled.current_function
  refine ⟨hcontrolled, f, hf, ?_⟩
  rcases Nat.eq_or_lt_of_le (hcontrolled.linked.indices _ f hf) with heq | hlt
  · exact .inl heq
  · exact .inr ⟨f.actions[f.current], List.getElem?_eq_getElem hlt⟩

/-- A program that calls a function, and returns from it. -/
def callingProgram : Source := ⟨"$:>f>|f:s<|".toList, by decide⟩

/-- The player of the program. -/
def anyPlayer : ProgrammatorContext := { Programmators.idlePlayer with now := 1000000 }

/-- The program is called, saved in its function, and restored there. -/
def callAndRestore : List StoreEvent :=
  [.connect 0 0, .server (.run 0 callingProgram 0), .server (.due 0 0 anyPlayer), .save 0, .connect 0 0]

theorem controlled_run_in_call :
    ∃ t prog, Lib.Run.run (step ⟨fun _ => none, fun _ => none⟩) empty callAndRestore = some t ∧
      t.live.states 0 = some prog ∧ prog.currentFunction = "f" ∧ prog.Controlled := by
  have hrun : (Lib.Run.run (step ⟨fun _ => none, fun _ => none⟩) empty callAndRestore).isSome := by decide
  obtain ⟨t, ht⟩ := Option.isSome_iff_exists.mp hrun
  have hlive : ((Lib.Run.run (step ⟨fun _ => none, fun _ => none⟩) empty callAndRestore).bind fun t =>
      (t.live.states 0).map fun prog => (prog.currentFunction, prog.currentProg.keys)) = some ("f", ["f", ""]) := by
    decide
  rw [ht] at hlive
  obtain ⟨prog, hprog, heq⟩ := Option.map_eq_some_iff.mp hlive
  obtain ⟨hcurrent, hkeys⟩ := Prod.mk.inj heq
  refine ⟨t, prog, ht, hprog, hcurrent, (controlled_run ht 0 prog (.inl hprog) ?_).1⟩
  rw [hkeys]
  exact List.cons_ne_nil _ _

end ProgramStore

end Runs

end OpenMines
