import OpenMines.Lib.NameCycle
import OpenMines.ProgrammatorText

namespace OpenMines

open Lib Lib.CheckedInt Lib.NameCycle Lib.Utf8

section Order

/-- The program goes on from function to function, so many times. -/
def ProgrammatorState.fallThrough (s : ProgrammatorState) : Nat → Checked ProgrammatorState
  | 0 => some s
  | n + 1 => (s.fallThrough n).bind ProgrammatorState.nextFunction

/-- From the first function on, the program goes round all entries of the order. -/
def CyclesThrough (order : List String) : Prop :=
  ∀ s : ProgrammatorState, s.functionOrder = order → some s.currentFunction = order.head? → ∀ n,
    (s.fallThrough n).map ProgrammatorState.currentFunction = order[n % order.length]?

theorem nextFunction_spec {s : ProgrammatorState} (hne : s.functionOrder ≠ []) :
    s.nextFunction = (next s.functionOrder s.currentFunction).map fun name => { s with currentFunction := name } := by
  rw [ProgrammatorState.nextFunction, next]
  cases s.functionOrder.findIdx? fun name => name == s.currentFunction with
  | some i =>
      dsimp only
      split
      · cases s.functionOrder[i + 1]? <;> rfl
      · cases s.functionOrder[0]? <;> rfl
  | none =>
      cases hhead : s.functionOrder.head? with
      | none => exact absurd (List.head?_eq_none_iff.mp hhead) hne
      | some first => rfl

theorem fallThrough_eq {s : ProgrammatorState} {order : List String} (hne : order ≠ []) (horder : s.functionOrder = order)
    (hfirst : some s.currentFunction = order.head?) (n : Nat) :
    s.fallThrough n = (visits order n).map fun name => { s with currentFunction := name } := by
  induction n with
  | zero =>
      rw [ProgrammatorState.fallThrough, visits, ← hfirst]
      rfl
  | succ n ih =>
      rw [ProgrammatorState.fallThrough, ih, visits]
      cases visits order n with
      | none => rfl
      | some name =>
          have hnext : ({ s with currentFunction := name } : ProgrammatorState).nextFunction = _ :=
            nextFunction_spec (horder ▸ hne)
          rw [Option.map_some, Option.bind_some, Option.bind_some, hnext, ← horder]

theorem cyclesThrough_iff {order : List String} (hne : order ≠ []) : CyclesThrough order ↔ RepeatsAgree order := by
  rw [← visits_iff hne]
  have hmap : ∀ s : ProgrammatorState, s.functionOrder = order → some s.currentFunction = order.head? → ∀ n,
      (s.fallThrough n).map ProgrammatorState.currentFunction = visits order n := by
    intro s horder hfirst n
    rw [fallThrough_eq hne horder hfirst, Option.map_map]
    exact Option.map_id'
  constructor
  · intro h n
    let s : ProgrammatorState := { ProgrammatorState.new 0 with functionOrder := order, currentFunction := order.head hne }
    have hfirst : some s.currentFunction = order.head? := (List.head?_eq_some_head hne).symm
    rw [← hmap s rfl hfirst, h s rfl hfirst]
  · intro h s horder hfirst n
    rw [hmap s horder hfirst, h]

end Order

section Binary

variable {bytes : List UInt8} {labels : List (List Char)} {i : Nat}

/-- The name of the function that an action of a binary program begins. -/
def createdName (bytes : List UInt8) (labels : List (List Char)) (i : Nat) : Option String := do
  let id ← bytes[i + 4]?
  if getActionType id = .createFunction then (labelOf labels i).map fun label => String.ofList label.1 else none

def writesAction (bytes : List UInt8) (i : Nat) : Bool :=
  bytes[i + 4]?.any fun id =>
    getActionType id != .nextRow && getActionType id != .createFunction && getActionType id != .none

def createdNames (bytes : List UInt8) (labels : List (List Char)) (num : Nat) : List String :=
  (List.range num).filterMap (createdName bytes labels)

/-- The function that an action stands in. -/
def functionAt (bytes : List UInt8) (labels : List (List Char)) (i : Nat) : String :=
  (createdNames bytes labels i).getLastD ""

theorem createdNames_succ (num : Nat) : createdNames bytes labels (num + 1) =
    createdNames bytes labels num ++ (createdName bytes labels num).toList := by
  rw [createdNames, List.range_succ, List.filterMap_append, List.filterMap_cons]
  cases createdName bytes labels num <;> rfl

theorem functionAt_succ (i : Nat) : functionAt bytes labels (i + 1) =
    (createdName bytes labels i).getD (functionAt bytes labels i) := by
  rw [functionAt, createdNames_succ]
  cases createdName bytes labels i with
  | none => rw [Option.toList_none, List.append_nil]; rfl
  | some name => simp

namespace ParseState

/-- There is an action in the function of a name. -/
def Filled (p : ParseState) (name : String) : Prop := ∃ f, p.functions.lookup name = some f ∧ f.actions ≠ []

end ParseState

theorem filled_push {p : ParseState} (h : p.currentFunc ∈ p.functions) (actionType : ActionType) (label : List Char)
    (num : Int32) (name : String) :
    (p.push actionType label num).Filled name ↔ p.Filled name ∨ name = p.currentFunc := by
  rw [ParseState.Filled, ParseState.push]
  dsimp only
  rw [Functions.lookup_modify]
  by_cases hname : name = p.currentFunc
  · rw [if_pos hname, hname]
    obtain ⟨f, hf⟩ := Option.isSome_iff_exists.mp (AList.lookup_isSome.mpr h)
    rw [hf]
    exact iff_of_true ⟨_, rfl, List.append_ne_nil_of_right_ne_nil _ (List.cons_ne_nil _ _)⟩ (Or.inr rfl)
  · rw [if_neg hname, or_iff_left hname]
    rfl

theorem Grows.filled {p q : ParseState} (h : Grows p q) {name : String} (hp : p.Filled name) : q.Filled name := by
  obtain ⟨f, hf, hne⟩ := hp
  obtain ⟨g, hg, hprefix⟩ := h name f hf
  exact ⟨g, hg, fun hnil => hne (List.prefix_nil.mp (hnil ▸ hprefix))⟩

/-- An action of a binary program begins a function, or writes to the present one, or does neither. -/
inductive Adds (p : ParseState) : Option String → Bool → ParseState → Prop
  | create (name : String) : Adds p (some name) false
      { functions := p.functions.insert name .new, functionOrder := p.functionOrder ++ [name], currentFunc := name }
  | write (actionType : ActionType) (label : List Char) (num : Int32) : Adds p none true (p.push actionType label num)
  | skip : Adds p none false p

theorem adds_add (p : NormalState) {id : UInt8} {label : List Char × Int32} (hid : bytes[i + 4]? = some id)
    (hlabel : labelOf labels i = some label) :
    Adds p.toParseState (createdName bytes labels i) (writesAction bytes i)
      (p.add (getActionType id) label.1 label.2).toParseState := by
  have hname : createdName bytes labels i =
      if getActionType id = .createFunction then some (String.ofList label.1) else none := by
    rw [createdName, hid, hlabel]
    rfl
  have hwrites : writesAction bytes i = (getActionType id != .nextRow && getActionType id != .createFunction &&
      getActionType id != .none) := by
    rw [writesAction, hid]
    rfl
  rw [hname, hwrites]
  cases getActionType id with
  | nextRow => exact .skip
  | createFunction => exact .create _
  | none => exact .skip
  | _ => exact .write ..

theorem endRow_cases (p : NormalState) : p.endRow.toParseState = p.toParseState ∨
    (p.toParseState.Filled p.currentFunc ∧ p.index ≠ 0 ∧
      p.endRow.toParseState = p.toParseState.pushTextAction .goTo) := by
  rw [NormalState.endRow]
  split
  · rename_i hindex
    dsimp only
    split
    · rename_i hadd
      refine Or.inr ⟨?_, Nat.ne_of_gt hindex.1, rfl⟩
      cases hf : p.functions.lookup p.currentFunc with
      | none =>
          rw [hf] at hadd
          cases hadd
      | some f =>
          refine ⟨f, hf, fun hnil => ?_⟩
          rw [hf, Option.elim_some, hnil] at hadd
          cases hadd
    · exact Or.inl rfl
  · exact Or.inl rfl

/-- What a step over a binary program does with what was read before. -/
theorem normalStep_cases {p q : NormalState} (h : normalStep bytes labels p i = some q) :
    ∃ r : ParseState, Adds p.toParseState (createdName bytes labels i) (writesAction bytes i) r ∧
      (q.toParseState = r ∨
        createdName bytes labels i = none ∧ r.Filled r.currentFunc ∧ q.toParseState = r.pushTextAction .goTo) := by
  obtain ⟨at', hat, h⟩ := Option.bind_eq_some_iff.mp h
  obtain ⟨-, rfl⟩ := usize_eq_some.mp hat
  obtain ⟨id, hid, h⟩ := Option.bind_eq_some_iff.mp h
  obtain ⟨label, hlabel, h⟩ := Option.bind_eq_some_iff.mp h
  obtain ⟨next, -, h⟩ := Option.bind_eq_some_iff.mp h
  obtain rfl := Option.some.inj h
  refine ⟨_, adds_add p hid hlabel, ?_⟩
  refine (endRow_cases (p.add (getActionType id) label.1 label.2)).imp (fun hsame => hsame)
    fun ⟨hfilled, hindex, hgoto⟩ => ⟨?_, hfilled, hgoto⟩
  rw [createdName, hid]
  refine if_neg fun hcreate => hindex ?_
  rw [hcreate]
  rfl

theorem Adds.grows {p q : ParseState} {created : Option String} {writes : Bool} (h : Adds p created writes q)
    (hnot : ∀ name, created = some name → ¬ p.Filled name) : Grows p q := by
  cases h with
  | create name =>
      intro other f hf
      dsimp only
      by_cases hother : other = name
      · refine ⟨.new, hother ▸ AList.lookup_insert _, ?_⟩
        have hnil : f.actions = [] := by
          by_contra hne
          exact hnot name rfl ⟨f, hother ▸ hf, hne⟩
        rw [hnil]
        exact List.nil_prefix
      · exact ⟨f, (AList.lookup_insert_ne hother).trans hf, List.prefix_refl _⟩
  | write => exact fun name => grows_push _ _ _ _ name
  | skip => exact .refl p

/-- What has been read before an action of a binary program. -/
structure ReadUpTo (bytes : List UInt8) (labels : List (List Char)) (i : Nat) (p : ParseState) : Prop where
  listed : Listed p
  current_mem : p.currentFunc ∈ p.functions
  order_eq : p.functionOrder = "" :: createdNames bytes labels i
  current_eq : p.currentFunc = functionAt bytes labels i
  written : ∀ name, p.Filled name → ∃ a < i, writesAction bytes a ∧ functionAt bytes labels a = name

theorem readUpTo_start : ReadUpTo bytes labels 0 .start where
  listed := listed_start
  current_mem := (listed_start "").mpr (List.mem_singleton.mpr rfl)
  order_eq := rfl
  current_eq := rfl
  written := by
    rintro name ⟨f, hf, hne⟩
    rw [ParseState.start, ← AList.insert_empty] at hf
    by_cases hname : name = ""
    · rw [hname, AList.lookup_insert] at hf
      exact absurd (Option.some.inj hf ▸ rfl) hne
    · rw [AList.lookup_insert_ne hname] at hf
      cases hf

theorem ReadUpTo.adds {p q : ParseState} (h : ReadUpTo bytes labels i p)
    (hadds : Adds p (createdName bytes labels i) (writesAction bytes i) q) : ReadUpTo bytes labels (i + 1) q := by
  have hnames : createdNames bytes labels (i + 1) = _ := createdNames_succ i
  have hfunction : functionAt bytes labels (i + 1) = _ := functionAt_succ i
  have hbefore : ∀ name, p.Filled name → ∃ a < i + 1, writesAction bytes a ∧ functionAt bytes labels a = name := by
    intro name hfilled
    obtain ⟨a, ha, hwritten⟩ := h.written name hfilled
    exact ⟨a, Nat.lt_succ_of_lt ha, hwritten⟩
  generalize hcreated : createdName bytes labels i = created at hadds hnames hfunction
  generalize hwrites : writesAction bytes i = writes at hadds
  cases hadds with
  | create name =>
      refine ⟨fun other => ?_, (AList.mem_insert _).mpr (Or.inl rfl), ?_, hfunction.symm, fun other hfilled => ?_⟩
      · dsimp only
        rw [AList.mem_insert, List.mem_append, List.mem_singleton, h.listed other, or_comm]
      · dsimp only
        rw [hnames, h.order_eq]
        rfl
      · obtain ⟨f, hf, hne⟩ := hfilled
        dsimp only at hf
        by_cases hother : other = name
        · rw [hother, AList.lookup_insert] at hf
          exact absurd (Option.some.inj hf ▸ rfl) hne
        · rw [AList.lookup_insert_ne hother] at hf
          exact hbefore other ⟨f, hf, hne⟩
  | write actionType label num =>
      refine ⟨h.listed.push _ _ _, Functions.mem_modify.mpr h.current_mem, ?_, ?_, fun other hfilled => ?_⟩
      · rw [hnames, Option.toList_none, List.append_nil]
        exact h.order_eq
      · rw [hfunction]
        exact h.current_eq
      · cases (filled_push h.current_mem _ _ _ other).mp hfilled with
        | inl hfilled => exact hbefore other hfilled
        | inr heq => exact ⟨i, Nat.lt_succ_self i, hwrites, heq ▸ h.current_eq.symm⟩
  | skip =>
      refine ⟨h.listed, h.current_mem, ?_, ?_, hbefore⟩
      · rw [hnames, Option.toList_none, List.append_nil]
        exact h.order_eq
      · rw [hfunction]
        exact h.current_eq

/-- A jump behind a row is written to a function that has an action. -/
theorem ReadUpTo.pushGoTo {p : ParseState} (h : ReadUpTo bytes labels i p) (hfilled : p.Filled p.currentFunc) :
    ReadUpTo bytes labels i (p.pushTextAction .goTo) where
  listed := h.listed.push _ _ _
  current_mem := Functions.mem_modify.mpr h.current_mem
  order_eq := h.order_eq
  current_eq := h.current_eq
  written := fun other hother => by
    cases (filled_push h.current_mem _ _ _ other).mp hother with
    | inl hother => exact h.written other hother
    | inr heq => exact h.written other (heq ▸ hfilled)

theorem ReadUpTo.step {p q : NormalState} (h : ReadUpTo bytes labels i p.toParseState)
    (hstep : normalStep bytes labels p i = some q) : ReadUpTo bytes labels (i + 1) q.toParseState := by
  obtain ⟨r, hadds, hq⟩ := normalStep_cases hstep
  have hr := h.adds hadds
  rcases hq with hq | ⟨-, hfilled, hq⟩
  · exact hq ▸ hr
  · exact hq ▸ hr.pushGoTo hfilled

theorem readUpTo_foldlM {num : Nat} {p : NormalState}
    (h : (List.range num).foldlM (normalStep bytes labels) ⟨.start, false, 0⟩ = some p) :
    ReadUpTo bytes labels num p.toParseState := by
  induction num generalizing p with
  | zero =>
      obtain rfl := Option.some.inj h
      exact readUpTo_start
  | succ num ih =>
      rw [List.range_succ, List.foldlM_append] at h
      obtain ⟨r, hr, h⟩ := Option.bind_eq_some_iff.mp h
      obtain ⟨q, hq, h⟩ := Option.bind_eq_some_iff.mp h
      obtain rfl := Option.some.inj h
      exact (ih hr).step hq

end Binary

section Programs

/-- A step of the loop over a text. -/
inductive TextStep (data : List Char) : ParseState → ParseState → Prop
  | step {context rest : List Char} {i next : Nat} {p q : ParseState} {ch : Char} (hdata : data = '$' :: context)
      (h : TextReach context i p) (hrest : dropBytes context i = some (ch :: rest))
      (hstep : textStep context i p ch rest = some (next, q)) : TextStep data p q

/-- A step of the loop over a binary program. -/
inductive BinaryStep (codec : ProgramCodec) (data : List Char) : ParseState → ParseState → Prop
  | step {bytes : List UInt8} {num i : Nat} {labels : List (List Char)} {p q : NormalState}
      (hdecode : decodeNormalPayload codec data = some (some (bytes, num, labels))) (hi : i < num)
      (h : (List.range i).foldlM (normalStep bytes labels) ⟨.start, false, 0⟩ = some p)
      (hstep : normalStep bytes labels p i = some q) : BinaryStep codec data p.toParseState q.toParseState

/-- The order is gone round, all functions are in it, and no step of the parser has taken an action away. -/
structure FallsThrough (steps : ParseState → ParseState → Prop) (fs : Functions) (order : List String) : Prop where
  cycles : CyclesThrough order
  listed : ∀ name ∈ fs, name ∈ order
  kept : ∀ p q, steps p q → Grows p q

theorem TextReach.listed {context : List Char} {i : Nat} {p : ParseState} (h : TextReach context i p) :
    Listed p ∧ p.functionOrder.Nodup := by
  induction h with
  | start => exact ⟨listed_start, List.nodup_singleton _⟩
  | step _ hrest hstep ih =>
      have hreads := (lands_textStep hrest _ _ hstep).2
      exact ⟨hreads.listed ih.1, hreads.nodup ih.1 ih.2⟩

theorem TextReach.order_ne_nil {context : List Char} {i : Nat} {p : ParseState} (h : TextReach context i p) :
    p.functionOrder ≠ [] := by
  induction h with
  | start => exact List.cons_ne_nil _ _
  | step _ hrest hstep ih => exact (lands_textStep hrest _ _ hstep).2.order_ne_nil ih

theorem parseText_fallsThrough {data : List Char} {fs : Functions} {order : List String}
    (h : parseText data = some (some (fs, order))) : FallsThrough (TextStep data) fs order := by
  unfold parseText at h
  split at h
  · rename_i context
    obtain ⟨result, hloop, h⟩ := Option.bind_eq_some_iff.mp h
    cases result with
    | none => cases h
    | some p =>
        obtain ⟨rfl, rfl⟩ := Prod.mk.inj (Option.some.inj (Option.some.inj h))
        have hreach : TextReach context (byteLen context) p := textLoop_reach .start hloop
        obtain ⟨hlisted, hnodup⟩ := hreach.listed
        refine ⟨(cyclesThrough_iff hreach.order_ne_nil).mpr (repeatsAgree_of_nodup hnodup), fun name => (hlisted name).mp, ?_⟩
        intro p q hstep
        cases hstep with
        | step hdata h hrest hstep => exact (lands_textStep hrest _ _ hstep).2.grows
  · cases h

/-- Where a name is given again, the same name comes next, and no function that has an action is begun again. -/
def KeepsFunctions (codec : ProgramCodec) (data : List Char) : Prop :=
  ∀ bytes num labels, decodeNormalPayload codec data = some (some (bytes, num, labels)) →
    RepeatsAgree ("" :: createdNames bytes labels num) ∧
    ∀ a b, a < b → b < num → writesAction bytes a → createdName bytes labels b ≠ some (functionAt bytes labels a)

variable {bytes : List UInt8} {labels : List (List Char)} {num i : Nat}

theorem grows_step {p q : NormalState} (h : ReadUpTo bytes labels i p.toParseState)
    (hstep : normalStep bytes labels p i = some q)
    (hnot : ∀ a < i, writesAction bytes a → createdName bytes labels i ≠ some (functionAt bytes labels a)) :
    Grows p.toParseState q.toParseState := by
  obtain ⟨r, hadds, hq⟩ := normalStep_cases hstep
  have hr : Grows p.toParseState r := by
    refine hadds.grows fun name hname hfilled => ?_
    obtain ⟨a, ha, hwrites, hfunction⟩ := h.written name hfilled
    exact hnot a ha hwrites (hfunction ▸ hname)
  rcases hq with hq | ⟨-, -, hq⟩
  · exact hq ▸ hr
  · rw [hq]
    exact hr.trans (grows_push r _ _ _)

/-- An action that is written is there afterwards. -/
theorem filled_step {p q : NormalState} (h : ReadUpTo bytes labels i p.toParseState)
    (hstep : normalStep bytes labels p i = some q) (hwrites : writesAction bytes i) :
    q.toParseState.Filled (functionAt bytes labels i) := by
  obtain ⟨r, hadds, hq⟩ := normalStep_cases hstep
  have hr : r.Filled (functionAt bytes labels i) := by
    generalize createdName bytes labels i = created at hadds
    rw [hwrites] at hadds
    cases hadds with
    | write => exact (filled_push h.current_mem _ _ _ _).mpr (Or.inr h.current_eq.symm)
  rcases hq with hq | ⟨-, -, hq⟩
  · exact hq ▸ hr
  · rw [hq]
    exact (grows_push r _ _ _).filled hr

/-- A function that is begun has no action. -/
theorem not_filled_created {p q : NormalState} {name : String} (hstep : normalStep bytes labels p i = some q)
    (hname : createdName bytes labels i = some name) : ¬ q.toParseState.Filled name := by
  obtain ⟨r, hadds, hq⟩ := normalStep_cases hstep
  rcases hq with hq | ⟨hnone, -, -⟩
  · rw [hname] at hadds
    generalize writesAction bytes i = writes at hadds
    rw [hq]
    cases hadds with
    | create =>
        rintro ⟨f, hf, hne⟩
        rw [AList.lookup_insert] at hf
        exact hne (Option.some.inj hf ▸ rfl)
  · rw [hname] at hnone
    cases hnone

theorem exists_step (hlen : 4 + num ≤ bytes.length) (hfits : 4 + num ≤ usizeMax) (hi : i < num) :
    ∃ p q, (List.range i).foldlM (normalStep bytes labels) ⟨.start, false, 0⟩ = some p ∧
      normalStep bytes labels p i = some q ∧
      (List.range (i + 1)).foldlM (normalStep bytes labels) ⟨.start, false, 0⟩ = some q := by
  have hloop : ∃ q, (List.range (i + 1)).foldlM (normalStep bytes labels) ⟨.start, false, 0⟩ = some q ∧ q.index ≤ i + 1 :=
    foldlM_normalStep (by omega) (by omega)
  obtain ⟨q, hq, -⟩ := hloop
  have h := hq
  rw [List.range_succ, List.foldlM_append] at h
  obtain ⟨p, hp, h⟩ := Option.bind_eq_some_iff.mp h
  obtain ⟨q', hstep, h⟩ := Option.bind_eq_some_iff.mp h
  obtain rfl := Option.some.inj h
  exact ⟨p, q', hp, hstep, hq⟩

/-- Where no step takes an action away, the function of an action has one from then on. -/
theorem filled_of_kept {codec : ProgramCodec} {data : List Char}
    (hdecode : decodeNormalPayload codec data = some (some (bytes, num, labels)))
    (hkept : ∀ p q, BinaryStep codec data p q → Grows p q) {a : Nat} (hwrites : writesAction bytes a) {k : Nat}
    (hak : a < k) (hk : k ≤ num) {p : NormalState}
    (hp : (List.range k).foldlM (normalStep bytes labels) ⟨.start, false, 0⟩ = some p) :
    p.toParseState.Filled (functionAt bytes labels a) := by
  obtain ⟨hlen, hfits⟩ := decodeNormalPayload_bounds hdecode
  induction k generalizing p with
  | zero => cases hak
  | succ k ih =>
      obtain ⟨r, q, hr, hstep, hq⟩ : ∃ r q, _ ∧ normalStep bytes labels r k = some q ∧ _ := exists_step hlen hfits hk
      rw [hp] at hq
      obtain rfl := Option.some.inj hq
      cases Nat.lt_or_eq_of_le (Nat.le_of_lt_succ hak) with
      | inl hlt => exact (hkept _ _ (.step hdecode hk hr hstep)).filled (ih hlt (Nat.le_of_lt hk) hr)
      | inr heq =>
          subst heq
          exact filled_step (readUpTo_foldlM hr) hstep hwrites

theorem parseNormal_fallsThrough_iff {codec : ProgramCodec} {data : List Char} {fs : Functions} {order : List String}
    (h : parseNormal codec data = some (some (fs, order))) :
    FallsThrough (BinaryStep codec data) fs order ↔ KeepsFunctions codec data := by
  obtain ⟨decoded, hdecode, h⟩ := Option.bind_eq_some_iff.mp h
  cases decoded with
  | none => cases h
  | some decoded =>
      obtain ⟨bytes, num, labels⟩ := decoded
      obtain ⟨p, hp, h⟩ := Option.bind_eq_some_iff.mp h
      obtain ⟨rfl, rfl⟩ := Prod.mk.inj (Option.some.inj (Option.some.inj h))
      have hend := readUpTo_foldlM hp
      have hne : p.functionOrder ≠ [] := by
        rw [hend.order_eq]
        exact List.cons_ne_nil _ _
      constructor
      · rintro ⟨hcycles, -, hkept⟩ bytes' num' labels' hdecode'
        obtain ⟨rfl, rfl, rfl⟩ : bytes = bytes' ∧ num = num' ∧ labels = labels' := by
          rw [hdecode] at hdecode'
          cases hdecode'
          exact ⟨rfl, rfl, rfl⟩
        refine ⟨hend.order_eq ▸ (cyclesThrough_iff hne).mp hcycles, fun a b hab hb hwrites hcreated => ?_⟩
        obtain ⟨hlen, hfits⟩ := decodeNormalPayload_bounds hdecode
        obtain ⟨r, q, hr, hstep, hq⟩ : ∃ r q, _ ∧ normalStep bytes labels r b = some q ∧ _ := exists_step hlen hfits hb
        exact not_filled_created hstep hcreated
          (filled_of_kept hdecode hkept hwrites (Nat.lt_succ_of_lt hab) hb hq)
      · intro hkeeps
        obtain ⟨hagree, hnot⟩ := hkeeps bytes num labels hdecode
        refine ⟨(cyclesThrough_iff hne).mpr (hend.order_eq ▸ hagree), fun name => (hend.listed name).mp, ?_⟩
        intro q r hstep
        cases hstep with
        | step hdecode' hi hfold hstep =>
            rw [hdecode] at hdecode'
            cases hdecode'
            exact grows_step (readUpTo_foldlM hfold) hstep fun a ha hwrites => hnot a _ ha hi hwrites

end Programs

/-- The functions of a text are all gone round; those of a binary program are just where none is lost or passed over. -/
theorem fallsThrough_iff (codec : ProgramCodec) (data : List Char) (fs : Functions) (order : List String) :
    (parseText data = some (some (fs, order)) → FallsThrough (TextStep data) fs order) ∧
      (parseNormal codec data = some (some (fs, order)) →
        (FallsThrough (BinaryStep codec data) fs order ↔ KeepsFunctions codec data)) :=
  ⟨parseText_fallsThrough, parseNormal_fallsThrough_iff⟩

section Repeated

def repeatedText : List Char := "XQAAgAD//////////wABgDicl7RH7+f+TuTI9cET/9daAAA=".toList

def repeatedPacked : List UInt8 :=
  [93, 0, 0, 128, 0, 255, 255, 255, 255, 255, 255, 255, 255, 0, 1, 128, 56, 156, 151, 180, 71, 239, 231, 254, 78, 228,
    200, 245, 193, 19, 255, 215, 90, 0, 0]

/-- The function `f` with a move, and the function `f` again. -/
def repeatedBytes : List UInt8 := [3, 0, 0, 0, 40, 4, 40, 102, 58, 120, 58, 102]

def repeatedCodec : ProgramCodec where
  base64 := fun data => if data = repeatedText then some repeatedPacked else none
  lzmaDecompress := fun data => if data = repeatedPacked then some repeatedBytes else none

theorem decode_repeated : decodeNormalPayload repeatedCodec repeatedText =
    some (some (repeatedBytes, 3, [['f'], ['x'], ['f']])) := by
  decide

theorem exists_parse_repeated : ∃ p : NormalState,
    parseNormal repeatedCodec repeatedText = some (some (p.functions, p.functionOrder)) ∧
      (List.range 3).foldlM (normalStep repeatedBytes [['f'], ['x'], ['f']]) ⟨.start, false, 0⟩ = some p := by
  obtain ⟨p, hp, -⟩ : ∃ p, (List.range 3).foldlM (normalStep repeatedBytes [['f'], ['x'], ['f']])
      ⟨.start, false, 0⟩ = some p ∧ p.index ≤ 3 := foldlM_normalStep (by decide) (by decide)
  refine ⟨p, ?_, hp⟩
  rw [parseNormal, decode_repeated, Option.bind_eq_bind, Option.bind_some]
  dsimp only
  rw [hp]
  rfl

theorem fallsThrough_iff_repeated : ∃ fs order,
    parseNormal repeatedCodec repeatedText = some (some (fs, order)) ∧
      (FallsThrough (BinaryStep repeatedCodec repeatedText) fs order ↔ KeepsFunctions repeatedCodec repeatedText) := by
  obtain ⟨p, hparse, -⟩ := exists_parse_repeated
  exact ⟨_, _, hparse, (fallsThrough_iff repeatedCodec repeatedText p.functions p.functionOrder).2 hparse⟩

theorem repeated_not_fallsThrough : ∃ fs order,
    parseNormal repeatedCodec repeatedText = some (some (fs, order)) ∧ ¬ CyclesThrough order ∧
      ¬ ∀ p q, BinaryStep repeatedCodec repeatedText p q → Grows p q := by
  obtain ⟨p, hparse, hp⟩ := exists_parse_repeated
  have horder : p.functionOrder = "" :: createdNames repeatedBytes [['f'], ['x'], ['f']] 3 :=
    (readUpTo_foldlM hp).order_eq
  have hnames : createdNames repeatedBytes [['f'], ['x'], ['f']] 3 = ["f", "f"] := by decide
  rw [hnames] at horder
  refine ⟨p.functions, p.functionOrder, hparse, ?_, fun hkept => ?_⟩
  · rw [horder, cyclesThrough_iff (List.cons_ne_nil _ _)]
    intro hagree
    exact absurd (hagree 1 2 (by decide) (by decide) (by decide)) (by decide)
  · obtain ⟨r, q, hr, hstep, hq⟩ : ∃ r q, _ ∧ normalStep repeatedBytes [['f'], ['x'], ['f']] r 2 = some q ∧ _ :=
      exists_step (by decide : 4 + 3 ≤ repeatedBytes.length) (by decide) (by decide)
    exact not_filled_created hstep (by decide)
      (filled_of_kept decode_repeated hkept (a := 1) (by decide) (by decide) (by decide) hq)

end Repeated

end OpenMines
