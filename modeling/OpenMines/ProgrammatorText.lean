import OpenMines.ProgrammatorParses

namespace OpenMines

open Lib.CheckedInt Lib.Utf8

/-- No function loses an action. -/
def Grows (p q : ParseState) : Prop :=
  ∀ name f, p.functions.lookup name = some f → ∃ g, q.functions.lookup name = some g ∧ f.actions <+: g.actions

theorem Grows.refl (p : ParseState) : Grows p p := fun _ f hf => ⟨f, hf, List.prefix_refl _⟩

theorem Grows.trans {p q r : ParseState} (hpq : Grows p q) (hqr : Grows q r) : Grows p r := by
  intro name f hf
  obtain ⟨g, hg, hfg⟩ := hpq name f hf
  obtain ⟨k, hk, hgk⟩ := hqr name g hg
  exact ⟨k, hk, hfg.trans hgk⟩

theorem grows_push (p : ParseState) (actionType : ActionType) (label : List Char) (num : Int32) :
    Grows p (p.push actionType label num) := by
  intro name f hf
  rw [ParseState.push]
  dsimp only
  rw [Functions.lookup_modify, hf]
  split
  · exact ⟨_, rfl, List.prefix_append ..⟩
  · exact ⟨f, rfl, List.prefix_refl _⟩

/-- The functions are those of the order. -/
def Listed (p : ParseState) : Prop := ∀ name, name ∈ p.functions ↔ name ∈ p.functionOrder

theorem listed_start : Listed .start := by
  intro name
  rw [ParseState.start, AList.mem_keys, AList.keys_singleton, List.mem_singleton]

theorem Listed.push {p : ParseState} (h : Listed p) (actionType : ActionType) (label : List Char) (num : Int32) :
    Listed (p.push actionType label num) := fun name => Functions.mem_modify.trans (h name)

theorem beginFunction_of_mem {p : ParseState} {label : List Char} (h : String.ofList label ∈ p.functions) :
    beginFunction p label = { p with currentFunc := String.ofList label } := by
  rw [beginFunction]
  exact if_pos h

theorem beginFunction_of_not_mem {p : ParseState} {label : List Char} (h : String.ofList label ∉ p.functions) :
    beginFunction p label = { functions := p.functions.insert (String.ofList label) .new
                              functionOrder := p.functionOrder ++ [String.ofList label]
                              currentFunc := String.ofList label } := by
  rw [beginFunction]
  exact if_neg h

theorem grows_beginFunction (p : ParseState) (label : List Char) : Grows p (beginFunction p label) := by
  by_cases hmem : String.ofList label ∈ p.functions
  · rw [beginFunction_of_mem hmem]
    exact .refl p
  · rw [beginFunction_of_not_mem hmem]
    intro name f hf
    have hne : name ≠ String.ofList label := fun heq => hmem (heq ▸ AList.lookup_isSome.mp (Option.isSome_of_eq_some hf))
    exact ⟨f, (AList.lookup_insert_ne hne).trans hf, List.prefix_refl _⟩

theorem Listed.beginFunction {p : ParseState} (h : Listed p) (label : List Char) : Listed (beginFunction p label) := by
  by_cases hmem : String.ofList label ∈ p.functions
  · rw [beginFunction_of_mem hmem]
    exact h
  · rw [beginFunction_of_not_mem hmem]
    intro name
    dsimp only
    rw [AList.mem_insert, List.mem_append, List.mem_singleton, h name, or_comm]

theorem nodup_beginFunction {p : ParseState} (h : Listed p) (hnodup : p.functionOrder.Nodup) (label : List Char) :
    (beginFunction p label).functionOrder.Nodup := by
  by_cases hmem : String.ofList label ∈ p.functions
  · rw [beginFunction_of_mem hmem]
    exact hnodup
  · rw [beginFunction_of_not_mem hmem]
    dsimp only
    rw [← List.concat_eq_append]
    exact hnodup.concat (fun hin => hmem ((h _).mpr hin))

/-- What a step over a text does with what was read before. -/
inductive Reads (p : ParseState) : ParseState → Prop
  | skip : Reads p p
  | push (actionType : ActionType) (label : List Char) (num : Int32) : Reads p (p.push actionType label num)
  | beginFunction (label : List Char) : Reads p (beginFunction p label)

theorem Reads.grows {p q : ParseState} (h : Reads p q) : Grows p q := by
  cases h with
  | skip => exact .refl p
  | push actionType label num => exact grows_push p actionType label num
  | beginFunction label => exact grows_beginFunction p label

theorem Reads.listed {p q : ParseState} (h : Reads p q) (hp : Listed p) : Listed q := by
  cases h with
  | skip => exact hp
  | push actionType label num => exact hp.push actionType label num
  | beginFunction label => exact hp.beginFunction label

theorem Reads.nodup {p q : ParseState} (h : Reads p q) (hp : Listed p) (hnodup : p.functionOrder.Nodup) :
    q.functionOrder.Nodup := by
  cases h with
  | skip => exact hnodup
  | push => exact hnodup
  | beginFunction label => exact nodup_beginFunction hp hnodup label

theorem Reads.order_ne_nil {p q : ParseState} (h : Reads p q) (hp : p.functionOrder ≠ []) : q.functionOrder ≠ [] := by
  cases h with
  | skip | push => exact hp
  | beginFunction label =>
      by_cases hmem : String.ofList label ∈ p.functions
      · rw [beginFunction_of_mem hmem]
        exact hp
      · rw [beginFunction_of_not_mem hmem]
        exact List.append_ne_nil_of_right_ne_nil _ (List.cons_ne_nil _ _)

/-- A step ends at the start of a character, or at the end. -/
def Lands (context : List Char) (p : ParseState) (r : Checked (Nat × ParseState)) : Prop :=
  ∀ next q, r = some (next, q) → (dropBytes context next).isSome ∧ Reads p q

variable {context : List Char} {i : Nat} {p q : ParseState}

theorem lands_usize {n : Nat} (hn : (dropBytes context n).isSome) (hq : Reads p q) :
    Lands context p ((usize n).bind fun next => some (next, q)) := by
  intro next q' h
  obtain ⟨m, hm, heq⟩ := Option.bind_eq_some_iff.mp h
  obtain ⟨-, rfl⟩ := usize_eq_some.mp hm
  obtain ⟨rfl, rfl⟩ := Prod.mk.inj (Option.some.inj heq)
  exact ⟨hn, hq⟩

theorem dropBytes_char {ch : Char} {rest : List Char} (h : dropBytes context i = some (ch :: rest)) :
    dropBytes context (i + ch.utf8Size) = some rest := by
  have h : dropBytes context i = some ([ch] ++ rest) := h
  exact dropBytes_add h

theorem lands_skipChar {ch : Char} {rest : List Char} (hrest : dropBytes context i = some (ch :: rest))
    (hq : Reads p q) : Lands context p (skipChar i q ch) :=
  lands_usize (Option.isSome_of_eq_some (dropBytes_char hrest)) hq

theorem parseLabelUntil_lands {start next : Nat} {delimiter : Char} {label : List Char}
    (h : parseLabelUntil context start delimiter = some (some (label, next))) : (dropBytes context next).isSome := by
  rw [parseLabelUntil] at h
  cases hrest : dropBytes context start with
  | none =>
      rw [hrest] at h
      cases h
  | some rest =>
      rw [hrest] at h
      dsimp only at h
      cases hfind : findByte delimiter rest with
      | none =>
          rw [hfind] at h
          cases h
      | some stop =>
          rw [hfind] at h
          obtain ⟨before, after, rfl, rfl⟩ := findByte_eq_some hfind
          obtain ⟨_, -, h⟩ := Option.bind_eq_some_iff.mp h
          obtain ⟨middle, hmiddle, h⟩ := Option.bind_eq_some_iff.mp h
          obtain ⟨-, rfl⟩ := usize_eq_some.mp hmiddle
          obtain ⟨last, hlast, h⟩ := Option.bind_eq_some_iff.mp h
          obtain ⟨-, rfl⟩ := usize_eq_some.mp hlast
          obtain ⟨-, rfl⟩ := Prod.mk.inj (Option.some.inj (Option.some.inj h))
          exact Option.isSome_of_eq_some (dropBytes_char (dropBytes_add hrest))

theorem lands_readLabel (start : Nat) (delimiter : Char) {act : List Char → ParseState}
    {otherwise : Checked (Nat × ParseState)} (hact : ∀ label, Reads p (act label))
    (hother : Lands context p otherwise) : Lands context p (readLabel context start delimiter act otherwise) := by
  intro next q h
  obtain ⟨found, hfound, h⟩ := Option.bind_eq_some_iff.mp h
  cases found with
  | none => exact hother next q h
  | some label =>
      obtain ⟨rfl, rfl⟩ := Prod.mk.inj (Option.some.inj h)
      exact ⟨parseLabelUntil_lands hfound, hact label.1⟩

theorem startsAt_eq_true {start : Nat} {word : String} :
    startsAt context start word = true ↔ ∃ rest, dropBytes context start = some (word.toList ++ rest) := by
  rw [startsAt, Option.any_eq_true]
  constructor
  · rintro ⟨rest, hrest, hprefix⟩
    obtain ⟨tail, rfl⟩ := List.isPrefixOf_iff_prefix.mp hprefix
    exact ⟨tail, hrest⟩
  · rintro ⟨tail, hrest⟩
    exact ⟨_, hrest, List.isPrefixOf_iff_prefix.mpr (List.prefix_append ..)⟩

theorem lands_word {start n : Nat} {word : String} (h : startsAt context start word = true) (actionType : ActionType)
    (hn : byteLen word.toList = n) :
    Lands context p ((usize (start + n)).bind fun next => some (next, p.pushTextAction actionType)) := by
  obtain ⟨rest, hrest⟩ := startsAt_eq_true.mp h
  exact lands_usize (Option.isSome_of_eq_some (hn ▸ dropBytes_add hrest)) (.push ..)

theorem lands_readKind {kinds : List (Char × ActionType)} {ch : Char} {otherwise : Checked (Nat × ParseState)}
    (hother : Lands context p otherwise) : Lands context p (readKind context i p kinds ch otherwise) := by
  intro next q h
  obtain ⟨after, -, h⟩ := Option.bind_eq_some_iff.mp h
  cases hkind : charAt context after with
  | none =>
      rw [hkind] at h
      exact hother next q h
  | some kind =>
      rw [hkind] at h
      dsimp only at h
      split at h
      · obtain ⟨rest, hrest, hhead⟩ := Option.bind_eq_some_iff.mp hkind
        obtain ⟨tail, rfl⟩ := List.head?_eq_some_iff.mp hhead
        exact lands_usize (Option.isSome_of_eq_some (dropBytes_char hrest)) (.push ..) next q h
      · exact hother next q h

theorem reads_stateAction (p : ParseState) (expr : List Char) : Reads p (stateAction p expr) := by
  rw [stateAction]
  dsimp only
  split
  · split
    · exact .push ..
    · exact .skip
  · split
    · split
      · exact .push ..
      · exact .skip
    · split
      · split
        · exact .push ..
        · exact .skip
      · exact .skip

theorem lands_charStep {ch : Char} {rest : List Char} (hrest : dropBytes context i = some (ch :: rest)) :
    Lands context p (charStep context i p ch) := by
  have hskip : Lands context p (skipChar i p ch) := lands_skipChar hrest .skip
  have hlabel (start : Nat) (delimiter : Char) (actionType : ActionType) :
      Lands context p (readLabelAction context i p start delimiter actionType ch) :=
    lands_readLabel start delimiter (fun label => .push ..) hskip
  have hafter (start : Nat) (delimiter : Char) (actionType : ActionType) : Lands context p
      ((usize start).bind fun start => readLabelAction context i p start delimiter actionType ch) := by
    intro next q h
    obtain ⟨start, -, h⟩ := Option.bind_eq_some_iff.mp h
    exact hlabel start delimiter actionType next q h
  rw [charStep]
  intro next q h
  obtain ⟨after, -, h⟩ := Option.bind_eq_some_iff.mp h
  refine (?_ : Lands context p _) next q h
  clear h
  simp only [Option.bind_eq_bind, Option.pure_def]
  split
  · exact hlabel _ _ _
  · exact lands_readLabel _ _ (reads_stateAction p) hskip
  · split
    · exact hafter _ _ _
    · split
      · exact hafter _ _ _
      · exact hskip
  · refine lands_readLabel _ _ (fun option => ?_) hskip
    split
    · exact .push ..
    · exact .skip
  · split
    · exact lands_word (by assumption) _ (by decide)
    · split
      · exact lands_word (by assumption) _ (by decide)
      · split
        · exact hafter _ _ _
        · exact hskip
  · split
    · exact hafter _ _ _
    · exact hskip
  · split
    · exact hafter _ _ _
    · exact hskip
  · have hkind : Lands context p (readKind context i p conditionKinds '=' (skipChar i p '=')) := lands_readKind hskip
    split
    · intro next q h
      obtain ⟨start, -, h⟩ := Option.bind_eq_some_iff.mp h
      exact lands_readLabel start _ (fun label => .push ..) hkind next q h
    · exact hkind
  · exact hlabel _ _ _
  · exact lands_readLabel _ _ (fun label => .beginFunction label) hskip
  · split
    · exact lands_word (by assumption) _ (by decide)
    · split
      · exact lands_word (by assumption) _ (by decide)
      · split
        · exact lands_word (by assumption) _ (by decide)
        · exact hskip
  · exact lands_readKind hskip
  · exact hlabel _ _ _
  · split
    · exact lands_skipChar hrest (.push ..)
    · exact hskip

theorem lands_textStep {ch : Char} {rest : List Char} (hrest : dropBytes context i = some (ch :: rest)) :
    Lands context p (textStep context i p ch rest) := by
  rw [textStep]
  cases hfind : textTokens.find? (fun token => token.1.toList.isPrefixOf (ch :: rest)) with
  | none => exact lands_charStep hrest
  | some token =>
      have hstands : token.1.toList.isPrefixOf (ch :: rest) := by simpa using List.find?_some hfind
      obtain ⟨tail, htail⟩ := List.isPrefixOf_iff_prefix.mp hstands
      have hwidth := (textTokens_width token (List.mem_of_find?_eq_some hfind)).2
      refine lands_usize ?_ (.push ..)
      rw [hwidth]
      rw [← htail] at hrest
      exact Option.isSome_of_eq_some (dropBytes_add hrest)

/-- The positions that the loop over a text comes to, and what it has read there. -/
inductive TextReach (context : List Char) : Nat → ParseState → Prop
  | start : TextReach context 0 .start
  | step {i next : Nat} {p q : ParseState} {ch : Char} {rest : List Char} (h : TextReach context i p)
      (hrest : dropBytes context i = some (ch :: rest)) (hstep : textStep context i p ch rest = some (next, q)) :
      TextReach context next q

theorem TextReach.onBoundary (h : TextReach context i p) : (dropBytes context i).isSome := by
  cases h with
  | start => rw [dropBytes_zero]; rfl
  | step _ hrest hstep => exact (lands_textStep hrest _ _ hstep).1

/-- What the loop returns it has reached, and the text is over there. -/
theorem textLoop_reach {rounds : Nat} (h : TextReach context i p) (hloop : textLoop context rounds i p = some (some q)) :
    TextReach context (byteLen context) q := by
  induction rounds generalizing i p with
  | zero => cases hloop
  | succ rounds ih =>
      rw [textLoop] at hloop
      split at hloop
      · rename_i hlt
        split at hloop
        · cases hloop
        · rename_i hrest
          have hlen := byteLen_of_dropBytes hrest
          rw [byteLen_nil] at hlen
          omega
        · rename_i ch rest hrest
          obtain ⟨⟨next, q'⟩, hstep, hloop⟩ := Option.bind_eq_some_iff.mp hloop
          exact ih (.step h hrest hstep) hloop
      · rename_i hge
        obtain rfl := Option.some.inj (Option.some.inj hloop)
        obtain ⟨rest, hrest⟩ := Option.isSome_iff_exists.mp h.onBoundary
        have hlen := byteLen_of_dropBytes hrest
        obtain rfl : i = byteLen context := by omega
        exact h

end OpenMines
