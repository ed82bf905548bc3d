import OpenMines.ProgrammatorText

namespace OpenMines

open Lib.CheckedInt Lib.Utf8

section Grammar

/-- The beginning of a label, the sign behind it, and the action with the label. -/
def labelForms : List (String × Char × ActionType) :=
  [("?", '<', .runIfFalse), ("!?", '<', .runIfTrue), ("!\x7b", '}', .debugMessage), ("#R", '<', .runOnRespawn),
    (":>", '>', .runSub), ("->", '>', .runFunction), ("=>", '>', .runState), (">", '|', .goTo),
    ("\x7b", '}', .debugPause)]

def signs : List (String × ActionType) :=
  [("#S", .start), ("#E", .stop), ("<|", .return), ("<-|", .returnFunction), ("<=|", .returnState)]

def comparisons : List (Char × ActionType) :=
  [('=', .writableState), ('<', .writableStateLower), ('>', .writableStateMore)]

/-- The tokens of a program; no label contains the sign behind it. -/
inductive TextToken
  | word (entry : String × Nat × ActionType) (known : entry ∈ textTokens)
  | char (entry : Char × ActionType) (known : entry ∈ textChars)
  | condition (entry : Char × ActionType) (known : entry ∈ conditionKinds)
  | move (entry : Char × ActionType) (known : entry ∈ moveKinds)
  | view (entry : String × ActionType) (known : entry ∈ viewOptions)
  | sign (entry : String × ActionType) (known : entry ∈ signs)
  | labelled (form : String × Char × ActionType) (known : form ∈ labelForms) (label : List Char)
      (closed : form.2.1 ∉ label)
  | state (comparison : Char × ActionType) (known : comparison ∈ comparisons) (label : List Char)
      (closed : comparison.1 ∉ label ∧ ')' ∉ label) (number : List Char) (num : Int32)
      (denotes : Lib.Text.parseI32 (String.ofList number) = some num)
  | function (label : List Char) (closed : ':' ∉ label)

namespace TextToken

def text : TextToken → List Char
  | word entry _ => entry.1.toList
  | char entry _ => [entry.1]
  | condition entry _ => ['=', entry.1]
  | move entry _ => ['^', entry.1]
  | view entry _ => '[' :: entry.1.toList ++ [']']
  | sign entry _ => entry.1.toList
  | labelled form _ label _ => form.1.toList ++ label ++ [form.2.1]
  | state comparison _ label _ number _ _ => '(' :: label ++ comparison.1 :: number ++ [')']
  | function label _ => '|' :: label ++ [':']

/-- The function that a token begins, or else its action. -/
def meaning : TextToken → String ⊕ PAction
  | word entry _ => .inr ⟨entry.2.2, "", 0⟩
  | char entry _ => .inr ⟨entry.2, "", 0⟩
  | condition entry _ => .inr ⟨entry.2, "", 0⟩
  | move entry _ => .inr ⟨entry.2, "", 0⟩
  | view entry _ => .inr ⟨entry.2, "", 0⟩
  | sign entry _ => .inr ⟨entry.2, "", 0⟩
  | labelled form _ label _ => .inr ⟨form.2.2, String.ofList label, 0⟩
  | state comparison _ label _ _ num _ => .inr ⟨comparison.2, String.ofList label, num⟩
  | function label _ => .inl (String.ofList label)

/-- The label of a comparison contains no sign that is looked for before the sign of the comparison. -/
def Plain : TextToken → Prop
  | state comparison _ label _ _ _ _ =>
      (comparison.1 = '<' → '=' ∉ label) ∧ (comparison.1 = '>' → '=' ∉ label ∧ '<' ∉ label)
  | _ => True

end TextToken

/-- The functions that are begun, in order. -/
def created (meanings : List (String ⊕ PAction)) : List String := meanings.filterMap Sum.getLeft?

/-- The actions with the functions that they stand in. -/
def written (current : String) : List (String ⊕ PAction) → List (String × PAction)
  | [] => []
  | .inl name :: rest => written name rest
  | .inr action :: rest => (current, action) :: written current rest

/-- The actions of one function, in order. -/
def actionsOf (name current : String) (meanings : List (String ⊕ PAction)) : List PAction :=
  (written current meanings).filterMap fun a => if a.1 = name then some a.2 else none

/-- The functions hold the actions, split where a function begins. -/
structure SplitInto (meanings : List (String ⊕ PAction)) (fs : Functions) (order : List String) : Prop where
  order_eq : order = ("" :: created meanings).eraseDups
  mem_iff : ∀ name, name ∈ fs ↔ name ∈ order
  lookup_eq : ∀ name f, fs.lookup name = some f → f = { PFunction.new with actions := actionsOf name "" meanings }

end Grammar

section Tokens

variable {context rest tail label : List Char} {i : Nat} {p : ParseState} {ch delimiter : Char}

/-- No word of the format begins so, and none begins what begins so. -/
def Free (opening : List Char) : Prop :=
  ∀ entry ∈ textTokens, ¬ entry.1.toList <+: opening ∧ ¬ opening <+: entry.1.toList

instance (opening : List Char) : Decidable (Free opening) :=
  inferInstanceAs (Decidable (∀ entry ∈ textTokens, _))

theorem textStep_of_free {opening : List Char} (hfree : Free opening) (hhead : opening ++ rest = ch :: tail) :
    textStep context i p ch tail = charStep context i p ch := by
  have hnone : textTokens.find? (fun token => token.1.toList.isPrefixOf (ch :: tail)) = none := by
    refine List.find?_eq_none.mpr fun entry hentry hprefix => ?_
    have hword : entry.1.toList <+: opening ++ rest := hhead ▸ List.isPrefixOf_iff_prefix.mp hprefix
    obtain ⟨hword', hopening⟩ := hfree entry hentry
    exact (List.prefix_or_prefix_of_prefix hword (List.prefix_append ..)).elim hword' hopening
  rw [textStep, hnone]

theorem words_apart : ∀ a ∈ textTokens, ∀ b ∈ textTokens, a.1.toList <+: b.1.toList → a = b := by
  decide

theorem textStep_word {entry : String × Nat × ActionType} (known : entry ∈ textTokens)
    (hhead : entry.1.toList ++ rest = ch :: tail) (hfits : i + byteLen entry.1.toList ≤ usizeMax) :
    textStep context i p ch tail = some (i + byteLen entry.1.toList, p.pushTextAction entry.2.2) := by
  have hstands : entry.1.toList.isPrefixOf (ch :: tail) := by
    rw [← hhead]
    exact List.isPrefixOf_iff_prefix.mpr (List.prefix_append ..)
  have hfind : textTokens.find? (fun token => token.1.toList.isPrefixOf (ch :: tail)) = some entry := by
    cases hfind : textTokens.find? (fun token => token.1.toList.isPrefixOf (ch :: tail)) with
    | none => exact absurd hstands (List.find?_eq_none.mp hfind entry known)
    | some found =>
        have hfound := List.mem_of_find?_eq_some hfind
        have hprefix : found.1.toList <+: ch :: tail :=
          List.isPrefixOf_iff_prefix.mp (by simpa using List.find?_some hfind)
        cases List.prefix_or_prefix_of_prefix hprefix (List.isPrefixOf_iff_prefix.mp hstands) with
        | inl hle => rw [words_apart found hfound entry known hle]
        | inr hle => rw [words_apart entry known found hfound hle]
  rw [textStep, hfind]
  dsimp only
  rw [(textTokens_width entry known).2, usize_eq_some.mpr ⟨hfits, rfl⟩]
  rfl

theorem findByte_append (h : delimiter ∉ label) : findByte delimiter (label ++ delimiter :: rest) = some (byteLen label) := by
  induction label with
  | nil => exact if_pos rfl
  | cons c label ih =>
      have hne : ¬ c = delimiter := fun heq => h (heq ▸ List.mem_cons_self)
      have hlabel : delimiter ∉ label := fun hin => h (List.mem_cons_of_mem c hin)
      rw [List.cons_append, findByte, if_neg hne, ih hlabel]
      rfl

theorem readLabel_label {start : Nat} (hfits : byteLen context ≤ usizeMax)
    (hrest : dropBytes context start = some (label ++ delimiter :: rest)) (h : delimiter ∉ label)
    (act : List Char → ParseState) (otherwise : Checked (Nat × ParseState)) :
    readLabel context start delimiter act otherwise =
      some (start + byteLen label + delimiter.utf8Size, act label) := by
  have hlen := byteLen_of_dropBytes hrest
  rw [byteLen_append, byteLen_cons] at hlen
  have hstop : usize (start + byteLen label) = some _ := usize_eq_some.mpr ⟨by omega, rfl⟩
  have hnext : usize (start + byteLen label + delimiter.utf8Size) = some _ := usize_eq_some.mpr ⟨by omega, rfl⟩
  rw [readLabel, parseLabelUntil, hrest]
  dsimp only
  rw [findByte_append h]
  dsimp only
  simp only [takeBytes_append, hstop, hnext, Option.bind_eq_bind, Option.bind_some, Option.pure_def]

theorem startsAt_eq {start : Nat} {word : String} {opening : List Char} (hword : word.toList = opening)
    (hrest : dropBytes context start = some rest) : startsAt context start word = opening.isPrefixOf rest := by
  rw [startsAt, hrest, hword]
  rfl

/-- The next character after one that stands there. -/
theorem usize_behind (hfits : byteLen context ≤ usizeMax) (hrest : dropBytes context i = some (ch :: rest)) :
    usize (i + ch.utf8Size) = some (i + ch.utf8Size) := by
  have hlen := byteLen_of_dropBytes hrest
  rw [byteLen_cons] at hlen
  exact usize_eq_some.mpr ⟨by omega, rfl⟩

theorem ends_at {m n : Nat} {text : List Char} (htext : m + n = byteLen text) (hfits : i + byteLen text ≤ usizeMax)
    (q : ParseState) : ((usize (i + m + n)).bind fun next => some (next, q)) = some (i + byteLen text, q) := by
  rw [Nat.add_assoc, htext, usize_eq_some.mpr ⟨hfits, rfl⟩]
  rfl

theorem charStep_sign {entry : String × ActionType} (known : entry ∈ signs) (hfits : byteLen context ≤ usizeMax)
    (hrest : dropBytes context i = some (entry.1.toList ++ rest)) (hhead : entry.1.toList ++ rest = ch :: tail) :
    charStep context i p ch = some (i + byteLen entry.1.toList, p.pushTextAction entry.2) := by
  have hlen := byteLen_of_dropBytes hrest
  rw [byteLen_append] at hlen
  have hend : i + byteLen entry.1.toList ≤ usizeMax := by omega
  rw [hhead] at hrest
  have hafter := usize_behind hfits hrest
  have htail := dropBytes_char hrest
  simp only [signs, List.mem_cons, List.not_mem_nil, or_false] at known
  rcases known with rfl | rfl | rfl | rfl | rfl
  · rw [show "#S".toList = ['#', 'S'] by decide] at hhead hend ⊢
    obtain ⟨rfl, rfl⟩ := List.cons.inj hhead
    have hstands := startsAt_eq (show "S".toList = ['S'] by decide) htail
    simp only [charStep, hafter, Option.bind_eq_bind, Option.bind_some, hstands]
    exact ends_at rfl hend _
  · rw [show "#E".toList = ['#', 'E'] by decide] at hhead hend ⊢
    obtain ⟨rfl, rfl⟩ := List.cons.inj hhead
    have hother := startsAt_eq (show "S".toList = ['S'] by decide) htail
    have hstands := startsAt_eq (show "E".toList = ['E'] by decide) htail
    simp only [charStep, hafter, Option.bind_eq_bind, Option.bind_some, hother, hstands]
    exact ends_at rfl hend _
  · rw [show "<|".toList = ['<', '|'] by decide] at hhead hend ⊢
    obtain ⟨rfl, rfl⟩ := List.cons.inj hhead
    have hstands := startsAt_eq (show "|".toList = ['|'] by decide) htail
    simp only [charStep, hafter, Option.bind_eq_bind, Option.bind_some, hstands]
    exact ends_at rfl hend _
  · rw [show "<-|".toList = ['<', '-', '|'] by decide] at hhead hend ⊢
    obtain ⟨rfl, rfl⟩ := List.cons.inj hhead
    have hother := startsAt_eq (show "|".toList = ['|'] by decide) htail
    have hstands := startsAt_eq (show "-|".toList = ['-', '|'] by decide) htail
    simp only [charStep, hafter, Option.bind_eq_bind, Option.bind_some, hother, hstands]
    exact ends_at rfl hend _
  · rw [show "<=|".toList = ['<', '=', '|'] by decide] at hhead hend ⊢
    obtain ⟨rfl, rfl⟩ := List.cons.inj hhead
    have hother := startsAt_eq (show "|".toList = ['|'] by decide) htail
    have hother' := startsAt_eq (show "-|".toList = ['-', '|'] by decide) htail
    have hstands := startsAt_eq (show "=|".toList = ['=', '|'] by decide) htail
    simp only [charStep, hafter, Option.bind_eq_bind, Option.bind_some, hother, hother', hstands]
    exact ends_at rfl hend _

theorem charStep_labelled {form : String × Char × ActionType} (known : form ∈ labelForms) (closed : form.2.1 ∉ label)
    (hfits : byteLen context ≤ usizeMax)
    (hrest : dropBytes context i = some (form.1.toList ++ label ++ form.2.1 :: rest))
    (hhead : form.1.toList ++ label ++ form.2.1 :: rest = ch :: tail) :
    charStep context i p ch =
      some (i + byteLen form.1.toList + byteLen label + form.2.1.utf8Size, p.push form.2.2 label 0) := by
  rw [hhead] at hrest
  have hafter := usize_behind hfits hrest
  have htail := dropBytes_char hrest
  simp only [labelForms, List.mem_cons, List.not_mem_nil, or_false] at known
  rcases known with rfl | rfl | rfl | rfl | rfl | rfl | rfl | rfl | rfl
  · rw [show "?".toList = ['?'] by decide] at hhead ⊢
    obtain ⟨rfl, rfl⟩ := List.cons.inj hhead
    simp only [charStep, hafter, Option.bind_eq_bind, Option.bind_some, readLabelAction]
    exact readLabel_label hfits htail closed _ _
  · rw [show "!?".toList = ['!', '?'] by decide] at hhead ⊢
    obtain ⟨rfl, rfl⟩ := List.cons.inj hhead
    have hstands := startsAt_eq (show "?".toList = ['?'] by decide) htail
    have hbehind := usize_behind hfits htail
    simp only [charStep, hafter, Option.bind_eq_bind, Option.bind_some, hstands, hbehind, readLabelAction]
    exact readLabel_label hfits (dropBytes_char htail) closed _ _
  · rw [show "!\x7b".toList = ['!', '{'] by decide] at hhead ⊢
    obtain ⟨rfl, rfl⟩ := List.cons.inj hhead
    have hother := startsAt_eq (show "?".toList = ['?'] by decide) htail
    have hstands := startsAt_eq (show "\x7b".toList = ['{'] by decide) htail
    have hbehind := usize_behind hfits htail
    simp only [charStep, hafter, Option.bind_eq_bind, Option.bind_some, hother, hstands, hbehind, readLabelAction]
    exact readLabel_label hfits (dropBytes_char htail) closed _ _
  · rw [show "#R".toList = ['#', 'R'] by decide] at hhead ⊢
    obtain ⟨rfl, rfl⟩ := List.cons.inj hhead
    have hother := startsAt_eq (show "S".toList = ['S'] by decide) htail
    have hother' := startsAt_eq (show "E".toList = ['E'] by decide) htail
    have hstands := startsAt_eq (show "R".toList = ['R'] by decide) htail
    have hbehind := usize_behind hfits htail
    simp only [charStep, hafter, Option.bind_eq_bind, Option.bind_some, hother, hother', hstands, hbehind, readLabelAction]
    exact readLabel_label hfits (dropBytes_char htail) closed _ _
  · rw [show ":>".toList = [':', '>'] by decide] at hhead ⊢
    obtain ⟨rfl, rfl⟩ := List.cons.inj hhead
    have hstands := startsAt_eq (show ">".toList = ['>'] by decide) htail
    have hbehind := usize_behind hfits htail
    simp only [charStep, hafter, Option.bind_eq_bind, Option.bind_some, hstands, hbehind, readLabelAction]
    exact readLabel_label hfits (dropBytes_char htail) closed _ _
  · rw [show "->".toList = ['-', '>'] by decide] at hhead ⊢
    obtain ⟨rfl, rfl⟩ := List.cons.inj hhead
    have hstands := startsAt_eq (show ">".toList = ['>'] by decide) htail
    have hbehind := usize_behind hfits htail
    simp only [charStep, hafter, Option.bind_eq_bind, Option.bind_some, hstands, hbehind, readLabelAction]
    exact readLabel_label hfits (dropBytes_char htail) closed _ _
  · rw [show "=>".toList = ['=', '>'] by decide] at hhead ⊢
    obtain ⟨rfl, rfl⟩ := List.cons.inj hhead
    have hstands := startsAt_eq (show ">".toList = ['>'] by decide) htail
    have hbehind := usize_behind hfits htail
    simp only [charStep, hafter, Option.bind_eq_bind, Option.bind_some, hstands, hbehind]
    exact readLabel_label hfits (dropBytes_char htail) closed _ _
  · rw [show ">".toList = ['>'] by decide] at hhead ⊢
    obtain ⟨rfl, rfl⟩ := List.cons.inj hhead
    simp only [charStep, hafter, Option.bind_eq_bind, Option.bind_some, readLabelAction]
    exact readLabel_label hfits htail closed _ _
  · rw [show "\x7b".toList = ['{'] by decide] at hhead ⊢
    obtain ⟨rfl, rfl⟩ := List.cons.inj hhead
    simp only [charStep, hafter, Option.bind_eq_bind, Option.bind_some, readLabelAction]
    exact readLabel_label hfits htail closed _ _

theorem lookup_conditionKinds : ∀ entry ∈ conditionKinds, conditionKinds.lookup entry.1 = some entry.2 ∧ entry.1 ≠ '>' := by
  decide

theorem lookup_moveKinds : ∀ entry ∈ moveKinds, moveKinds.lookup entry.1 = some entry.2 := by decide

theorem lookup_viewOptions :
    ∀ entry ∈ viewOptions, viewOptions.lookup entry.1 = some entry.2 ∧ ']' ∉ entry.1.toList := by
  decide

theorem charStep_char {entry : Char × ActionType} (known : entry ∈ textChars) (hfits : byteLen context ≤ usizeMax)
    (hrest : dropBytes context i = some (entry.1 :: rest)) :
    charStep context i p entry.1 = some (i + entry.1.utf8Size, p.pushTextAction entry.2) := by
  have hafter := usize_behind hfits hrest
  simp only [textChars, List.mem_cons, List.not_mem_nil, or_false] at known
  rcases known with rfl | rfl | rfl | rfl | rfl | rfl | rfl | rfl | rfl | rfl | rfl
  all_goals
    rw [charStep, hafter]
    change skipChar i (p.pushTextAction _) _ = _
    rw [skipChar, hafter]
    rfl

theorem readKind_kind {kinds : List (Char × ActionType)} {entry : Char × ActionType}
    (hlookup : kinds.lookup entry.1 = some entry.2) (hfits : byteLen context ≤ usizeMax)
    (hrest : dropBytes context i = some (ch :: entry.1 :: rest)) (otherwise : Checked (Nat × ParseState)) :
    readKind context i p kinds ch otherwise =
      some (i + ch.utf8Size + entry.1.utf8Size, p.pushTextAction entry.2) := by
  have htail := dropBytes_char hrest
  have hchar : charAt context (i + ch.utf8Size) = some entry.1 := by
    rw [charAt, htail]
    rfl
  simp only [readKind, usize_behind hfits hrest, usize_behind hfits htail, hchar, hlookup, Option.bind_eq_bind,
    Option.bind_some, Option.pure_def]

theorem charStep_condition {entry : Char × ActionType} (known : entry ∈ conditionKinds)
    (hfits : byteLen context ≤ usizeMax) (hrest : dropBytes context i = some ('=' :: entry.1 :: rest)) :
    charStep context i p '=' = some (i + '='.utf8Size + entry.1.utf8Size, p.pushTextAction entry.2) := by
  obtain ⟨hlookup, hne⟩ := lookup_conditionKinds entry known
  have hother : startsAt context (i + '='.utf8Size) ">" = false := by
    rw [startsAt_eq (show ">".toList = ['>'] by decide) (dropBytes_char hrest)]
    rw [List.isPrefixOf, beq_eq_false_iff_ne.mpr hne.symm]
    rfl
  simp only [charStep, usize_behind hfits hrest, hother, Option.bind_eq_bind, Option.bind_some]
  exact readKind_kind hlookup hfits hrest _

theorem charStep_move {entry : Char × ActionType} (known : entry ∈ moveKinds) (hfits : byteLen context ≤ usizeMax)
    (hrest : dropBytes context i = some ('^' :: entry.1 :: rest)) :
    charStep context i p '^' = some (i + '^'.utf8Size + entry.1.utf8Size, p.pushTextAction entry.2) := by
  simp only [charStep, usize_behind hfits hrest, Option.bind_eq_bind, Option.bind_some]
  exact readKind_kind (lookup_moveKinds entry known) hfits hrest _

theorem charStep_view {entry : String × ActionType} (known : entry ∈ viewOptions) (hfits : byteLen context ≤ usizeMax)
    (hrest : dropBytes context i = some ('[' :: entry.1.toList ++ ']' :: rest)) :
    charStep context i p '[' =
      some (i + '['.utf8Size + byteLen entry.1.toList + ']'.utf8Size, p.pushTextAction entry.2) := by
  obtain ⟨hlookup, hclosed⟩ := lookup_viewOptions entry known
  simp only [charStep, usize_behind hfits hrest, Option.bind_eq_bind, Option.bind_some]
  rw [readLabel_label hfits (dropBytes_char hrest) hclosed, String.ofList_toList, hlookup]

theorem charStep_function (closed : ':' ∉ label) (hfits : byteLen context ≤ usizeMax)
    (hrest : dropBytes context i = some ('|' :: label ++ ':' :: rest)) :
    charStep context i p '|' = some (i + '|'.utf8Size + byteLen label + ':'.utf8Size, beginFunction p label) := by
  simp only [charStep, usize_behind hfits hrest, Option.bind_eq_bind, Option.bind_some]
  exact readLabel_label hfits (dropBytes_char hrest) closed _ _

/-- A number contains no comparison and no bracket. -/
theorem not_mem_number {number : List Char} {num : Int32}
    (h : Lib.Text.parseI32 (String.ofList number) = some num) (hch : (ch == '-' || ch == '+' || ch.isDigit) = false) :
    ch ∉ number := by
  intro hin
  have hchars := Lib.Text.chars_of_parseI32 h ch (String.toList_ofList.symm ▸ hin)
  simp only [Bool.or_eq_false_iff, beq_eq_false_iff_ne] at hch
  obtain ⟨⟨hminus, hplus⟩, hdigit⟩ := hch
  rcases hchars with heq | heq | heq
  · exact hminus heq
  · exact hplus heq
  · rw [hdigit] at heq
    cases heq

theorem stateAction_state {comparison : Char × ActionType} (known : comparison ∈ comparisons)
    (closed : comparison.1 ∉ label ∧ ')' ∉ label) {number : List Char} {num : Int32}
    (denotes : Lib.Text.parseI32 (String.ofList number) = some num)
    (hplain : (TextToken.state comparison known label closed number num denotes).Plain) :
    stateAction p (label ++ comparison.1 :: number) = p.push comparison.2 label num := by
  have hequals : '=' ∉ number := not_mem_number denotes (by decide)
  have hless : '<' ∉ number := not_mem_number denotes (by decide)
  obtain ⟨hlower, hmore⟩ := hplain
  have hfound : Lib.Text.splitOnce (String.ofList (label ++ comparison.1 :: number)) comparison.1 = some _ :=
    Lib.Text.splitOnce_append closed.1
  have hnone {sign : Char} (hlabel : sign ∉ label) (hne : sign ≠ comparison.1) (hnumber : sign ∉ number) :
      Lib.Text.splitOnce (String.ofList (label ++ comparison.1 :: number)) sign = none :=
    Lib.Text.splitOnce_none (by simp only [List.mem_append, List.mem_cons, not_or]; exact ⟨hlabel, hne, hnumber⟩)
  simp only [comparisons, List.mem_cons, List.not_mem_nil, or_false] at known
  rcases known with rfl | rfl | rfl
  · rw [stateAction, hfound]
    dsimp only
    rw [denotes, String.toList_ofList]
  · rw [stateAction, hnone (hlower rfl) (by decide) hequals, hfound]
    dsimp only
    rw [denotes, String.toList_ofList]
  · rw [stateAction, hnone (hmore rfl).1 (by decide) hequals, hnone (hmore rfl).2 (by decide) hless, hfound]
    dsimp only
    rw [denotes, String.toList_ofList]

theorem charStep_state {comparison : Char × ActionType} (known : comparison ∈ comparisons)
    (closed : comparison.1 ∉ label ∧ ')' ∉ label) {number : List Char} {num : Int32}
    (denotes : Lib.Text.parseI32 (String.ofList number) = some num)
    (hplain : (TextToken.state comparison known label closed number num denotes).Plain)
    (hfits : byteLen context ≤ usizeMax)
    (hrest : dropBytes context i = some ('(' :: (label ++ comparison.1 :: number) ++ ')' :: rest)) :
    charStep context i p '(' =
      some (i + '('.utf8Size + byteLen (label ++ comparison.1 :: number) + ')'.utf8Size,
        p.push comparison.2 label num) := by
  have hbracket : ')' ∉ label ++ comparison.1 :: number := by
    have hne : ∀ comparison ∈ comparisons, ')' ≠ comparison.1 := by decide
    simp only [List.mem_append, List.mem_cons, not_or]
    exact ⟨closed.2, hne comparison known, not_mem_number denotes (by decide)⟩
  simp only [charStep, usize_behind hfits hrest, Option.bind_eq_bind, Option.bind_some]
  rw [readLabel_label hfits (dropBytes_char hrest) hbracket, stateAction_state known closed denotes hplain]

end Tokens

section Reading

def ParseState.read (p : ParseState) : String ⊕ PAction → ParseState
  | .inl name => beginFunction p name.toList
  | .inr action => p.push action.actionType action.label.toList action.num

variable {p : ParseState} {meanings : List (String ⊕ PAction)}

/-- The function of a name, which is a new one where there is none. -/
def ParseState.body (p : ParseState) (name : String) : PFunction := (p.functions.lookup name).getD .new

theorem body_push (h : p.currentFunc ∈ p.functions) (action : PAction) (name : String) :
    (p.read (.inr action)).body name =
      if name = p.currentFunc then (p.body name).push action else p.body name := by
  rw [ParseState.read, ParseState.body, ParseState.push]
  dsimp only
  rw [Functions.lookup_modify, String.ofList_toList]
  split
  · rename_i heq
    obtain ⟨f, hf⟩ := Option.isSome_iff_exists.mp (AList.lookup_isSome.mpr h)
    rw [ParseState.body, heq, hf]
    rfl
  · rfl

theorem body_begin (fresh : String) (name : String) : (p.read (.inl fresh)).body name = p.body name := by
  rw [ParseState.read]
  by_cases hmem : String.ofList fresh.toList ∈ p.functions
  · rw [beginFunction_of_mem hmem]
    rfl
  · rw [beginFunction_of_not_mem hmem, ParseState.body, ParseState.body]
    dsimp only
    by_cases heq : name = String.ofList fresh.toList
    · rw [heq, AList.lookup_insert, AList.lookup_eq_none.mpr hmem]
      rfl
    · rw [AList.lookup_insert_ne heq]

theorem current_begin (fresh : String) : (p.read (.inl fresh)).currentFunc = fresh := by
  rw [ParseState.read]
  by_cases hmem : String.ofList fresh.toList ∈ p.functions
  · rw [beginFunction_of_mem hmem]
    exact String.ofList_toList
  · rw [beginFunction_of_not_mem hmem]
    exact String.ofList_toList

theorem mem_current_begin (fresh : String) :
    (p.read (.inl fresh)).currentFunc ∈ (p.read (.inl fresh)).functions := by
  rw [ParseState.read]
  by_cases hmem : String.ofList fresh.toList ∈ p.functions
  · rw [beginFunction_of_mem hmem]
    exact hmem
  · rw [beginFunction_of_not_mem hmem]
    exact (AList.mem_insert _).mpr (Or.inl rfl)

theorem order_begin (hlisted : Listed p) {names : List String} (horder : p.functionOrder = names.eraseDups)
    (fresh : String) : (p.read (.inl fresh)).functionOrder = (names ++ [fresh]).eraseDups := by
  have hmem : String.ofList fresh.toList ∈ p.functions ↔ fresh ∈ names := by
    rw [hlisted, String.ofList_toList, horder, List.mem_eraseDups]
  rw [ParseState.read, List.eraseDups_append, ← horder, List.cons_removeAll]
  by_cases h : fresh ∈ names
  · rw [beginFunction_of_mem (hmem.mpr h), if_neg (by simpa using h)]
    exact (List.append_nil _).symm
  · rw [beginFunction_of_not_mem (fun hin => h (hmem.mp hin)), if_pos (by simpa using h), String.ofList_toList]
    rfl

theorem listed_read (h : Listed p) (m : String ⊕ PAction) : Listed (p.read m) := by
  cases m with
  | inl fresh => exact h.beginFunction fresh.toList
  | inr action => exact h.push action.actionType action.label.toList action.num

theorem actionsOf_begin (name current fresh : String) :
    actionsOf name current (.inl fresh :: meanings) = actionsOf name fresh meanings := rfl

theorem actionsOf_push (name current : String) (action : PAction) :
    actionsOf name current (.inr action :: meanings) =
      if name = current then action :: actionsOf name current meanings else actionsOf name current meanings := by
  rw [actionsOf, written, List.filterMap_cons]
  by_cases h : name = current
  · rw [if_pos h, if_pos h.symm]
    rfl
  · rw [if_neg h, if_neg (fun heq => h heq.symm)]
    rfl

/-- What has been read when some of the program has been. -/
structure Holds (p : ParseState) (names : List String) : Prop where
  listed : Listed p
  current : p.currentFunc ∈ p.functions
  order_eq : p.functionOrder = names.eraseDups

theorem holds_start : Holds .start [""] where
  listed := listed_start
  current := (listed_start "").mpr (List.mem_singleton.mpr rfl)
  order_eq := rfl

theorem Holds.begin {names : List String} (h : Holds p names) (fresh : String) :
    Holds (p.read (.inl fresh)) (names ++ [fresh]) where
  listed := listed_read h.listed _
  current := mem_current_begin fresh
  order_eq := order_begin h.listed h.order_eq fresh

theorem Holds.push {names : List String} (h : Holds p names) (action : PAction) : Holds (p.read (.inr action)) names where
  listed := listed_read h.listed _
  current := Functions.mem_modify.mpr h.current
  order_eq := h.order_eq

theorem foldl_read {names : List String} (h : Holds p names) :
    Holds (meanings.foldl ParseState.read p) (names ++ created meanings) ∧
      ∀ name, (meanings.foldl ParseState.read p).body name =
        { p.body name with actions := (p.body name).actions ++ actionsOf name p.currentFunc meanings } := by
  induction meanings generalizing p names with
  | nil => exact ⟨(List.append_nil names).symm ▸ h, fun name => by simp [actionsOf, written]⟩
  | cons m meanings ih =>
      cases m with
      | inl fresh =>
          obtain ⟨hholds, hbody⟩ := ih (h.begin fresh)
          refine ⟨by simpa [created] using hholds, fun name => ?_⟩
          rw [List.foldl_cons, hbody, body_begin, current_begin, actionsOf_begin]
      | inr action =>
          obtain ⟨hholds, hbody⟩ := ih (h.push action)
          refine ⟨hholds, fun name => ?_⟩
          have hcurrent : (p.read (.inr action)).currentFunc = p.currentFunc := rfl
          rw [List.foldl_cons, hbody, body_push h.current, hcurrent, actionsOf_push]
          split
          · simp [PFunction.push]
          · rfl

theorem splitInto_foldl (meanings : List (String ⊕ PAction)) :
    SplitInto meanings (meanings.foldl ParseState.read .start).functions
      (meanings.foldl ParseState.read .start).functionOrder := by
  obtain ⟨hholds, hbody⟩ : Holds (meanings.foldl ParseState.read .start) ([""] ++ created meanings) ∧ _ :=
    foldl_read holds_start
  refine ⟨hholds.order_eq, hholds.listed, fun name f hf => ?_⟩
  have hstart : ParseState.start.body name = .new := by
    rw [ParseState.body, ParseState.start, ← AList.insert_empty]
    by_cases hname : name = ""
    · rw [hname, AList.lookup_insert]
      rfl
    · rw [AList.lookup_insert_ne hname]
      rfl
  have hname := hbody name
  rw [ParseState.body, hf, hstart] at hname
  exact hname

end Reading

section Parsing

variable {context rest tail : List Char} {i : Nat} {p : ParseState} {ch : Char}

theorem free_signs : ∀ entry ∈ signs, Free entry.1.toList := by decide

theorem free_labelForms : ∀ form ∈ labelForms, Free form.1.toList := by decide

theorem free_conditionKinds : ∀ entry ∈ conditionKinds, Free ['=', entry.1] := by decide

theorem free_textChars : ∀ entry ∈ textChars, Free [entry.1] := by decide

theorem free_brackets : Free ['^'] ∧ Free ['['] ∧ Free ['('] ∧ Free ['|'] := by decide

/-- A token is read as what it means, whatever stands behind it. -/
theorem textStep_token (token : TextToken) (hplain : token.Plain) (hfits : byteLen context ≤ usizeMax)
    (hrest : dropBytes context i = some (token.text ++ rest)) (hhead : token.text ++ rest = ch :: tail) :
    textStep context i p ch tail = some (i + byteLen token.text, p.read token.meaning) := by
  have hlen := byteLen_of_dropBytes hrest
  rw [byteLen_append] at hlen
  have hend : i + byteLen token.text ≤ usizeMax := by omega
  cases token with
  | word entry known => exact textStep_word known hhead hend
  | char entry known =>
      obtain ⟨rfl, rfl⟩ := List.cons.inj hhead
      rw [textStep_of_free (free_textChars entry known) hhead]
      exact charStep_char known hfits hrest
  | condition entry known =>
      obtain ⟨rfl, rfl⟩ := List.cons.inj hhead
      rw [textStep_of_free (free_conditionKinds entry known) hhead, charStep_condition known hfits hrest, Nat.add_assoc]
      rfl
  | move entry known =>
      obtain ⟨rfl, rfl⟩ := List.cons.inj hhead
      rw [textStep_of_free free_brackets.1 hhead, charStep_move known hfits hrest, Nat.add_assoc]
      rfl
  | view entry known =>
      obtain ⟨rfl, rfl⟩ := List.cons.inj hhead
      have hstands : dropBytes context i = some ('[' :: entry.1.toList ++ ']' :: rest) := by
        rw [hrest, TextToken.text, List.append_assoc]
        rfl
      rw [textStep_of_free free_brackets.2.1 hhead, charStep_view known hfits hstands]
      simp only [TextToken.text, byteLen_append, byteLen_cons, byteLen_nil, Nat.add_zero, Nat.add_assoc]
      rfl
  | sign entry known =>
      rw [textStep_of_free (free_signs entry known) hhead]
      exact charStep_sign known hfits hrest hhead
  | labelled form known label closed =>
      have htext : (TextToken.labelled form known label closed).text ++ rest = form.1.toList ++ label ++ form.2.1 :: rest := by
        rw [TextToken.text, List.append_assoc]
        rfl
      have hopening : form.1.toList ++ (label ++ form.2.1 :: rest) = ch :: tail := by
        rw [← List.append_assoc, ← htext, hhead]
      rw [textStep_of_free (free_labelForms form known) hopening,
        charStep_labelled known closed hfits (htext ▸ hrest) (htext ▸ hhead)]
      simp only [TextToken.text, byteLen_append, byteLen_cons, byteLen_nil, Nat.add_zero, Nat.add_assoc]
      rw [TextToken.meaning, ParseState.read, String.toList_ofList]
  | state comparison known label closed number num denotes =>
      obtain ⟨rfl, rfl⟩ := List.cons.inj hhead
      have hstands : dropBytes context i = some ('(' :: (label ++ comparison.1 :: number) ++ ')' :: rest) := by
        rw [hrest, TextToken.text]
        simp
      rw [textStep_of_free free_brackets.2.2.1 hhead,
        charStep_state known closed denotes hplain hfits hstands]
      simp only [TextToken.text, byteLen_append, byteLen_cons, byteLen_nil, Nat.add_zero, Nat.add_assoc]
      rw [TextToken.meaning, ParseState.read, String.toList_ofList]
  | function label closed =>
      obtain ⟨rfl, rfl⟩ := List.cons.inj hhead
      have hstands : dropBytes context i = some ('|' :: label ++ ':' :: rest) := by
        rw [hrest, TextToken.text, List.append_assoc]
        rfl
      rw [textStep_of_free free_brackets.2.2.2 hhead, charStep_function closed hfits hstands]
      simp only [TextToken.text, byteLen_append, byteLen_cons, byteLen_nil, Nat.add_zero, Nat.add_assoc]
      rw [TextToken.meaning, ParseState.read, String.toList_ofList]

theorem text_ne_nil (token : TextToken) : token.text ≠ [] := by
  have hwords : ∀ entry ∈ textTokens, entry.1.toList ≠ [] := by decide
  have hsigns : ∀ entry ∈ signs, entry.1.toList ≠ [] := by decide
  cases token with
  | word entry known => exact hwords entry known
  | sign entry known => exact hsigns entry known
  | labelled form known label closed => exact List.append_ne_nil_of_right_ne_nil _ (List.cons_ne_nil _ _)
  | char | condition | move | view | state | function => exact List.cons_ne_nil _ _

theorem textLoop_tokens (hfits : byteLen context ≤ usizeMax) {tokens : List TextToken}
    (hplain : ∀ token ∈ tokens, token.Plain) {rounds : Nat}
    (hrest : dropBytes context i = some (tokens.flatMap TextToken.text))
    (hrounds : byteLen (tokens.flatMap TextToken.text) < rounds) :
    textLoop context rounds i p = some (some ((tokens.map TextToken.meaning).foldl ParseState.read p)) := by
  induction tokens generalizing i p rounds with
  | nil =>
      obtain ⟨rounds, rfl⟩ := Nat.exists_eq_add_one_of_ne_zero (Nat.ne_zero_of_lt hrounds)
      have hlen : i + 0 = byteLen context := byteLen_of_dropBytes hrest
      rw [textLoop, if_neg (by omega)]
      rfl
  | cons token tokens ih =>
      obtain ⟨rounds, rfl⟩ := Nat.exists_eq_add_one_of_ne_zero (Nat.ne_zero_of_lt hrounds)
      rw [List.flatMap_cons] at hrest hrounds
      obtain ⟨ch, tail, hhead⟩ := List.exists_cons_of_ne_nil
        (List.append_ne_nil_of_left_ne_nil (text_ne_nil token) (tokens.flatMap TextToken.text))
      have hstep := textStep_token (p := p) token (hplain token List.mem_cons_self) hfits hrest hhead
      have hlen := byteLen_of_dropBytes hrest
      have hch := ch.utf8Size_pos
      have hsize : 0 < byteLen token.text := by
        obtain ⟨c, cs, htext⟩ := List.exists_cons_of_ne_nil (text_ne_nil token)
        rw [htext, byteLen_cons]
        exact Nat.add_pos_left c.utf8Size_pos _
      rw [byteLen_append] at hrounds hlen
      rw [textLoop, if_pos (by omega), hrest, hhead]
      dsimp only
      rw [hstep]
      exact ih (fun t ht => hplain t (List.mem_cons_of_mem _ ht)) (dropBytes_add hrest) (by omega)

/-- What a loop over a text returns it has read to the end. -/
theorem textLoop_ne_none {rounds : Nat} (h : TextReach context i p) : textLoop context rounds i p ≠ some none := by
  induction rounds generalizing i p with
  | zero =>
      intro hend
      cases hend
  | succ rounds ih =>
      rw [textLoop]
      split
      · split
        · rename_i hnone
          have hboundary := h.onBoundary
          rw [hnone] at hboundary
          cases hboundary
        · intro hend
          cases hend
        · rename_i ch rest hrest
          cases hstep : textStep context i p ch rest with
          | none =>
              intro hend
              cases hend
          | some next => exact ih (.step h hrest hstep)
      · intro hend
        cases hend

theorem exists_parseText {data : Source} (h : data.chars.head? = some '$') :
    ∃ parsed, parseText data.chars = some (some parsed) := by
  obtain ⟨context, hdata⟩ := List.head?_eq_some_iff.mp h
  obtain ⟨parsed, hparsed⟩ := Option.isSome_iff_exists.mp (isSome_parseText data)
  cases parsed with
  | some parsed => exact ⟨parsed, hparsed⟩
  | none =>
      rw [hdata, parseText] at hparsed
      obtain ⟨result, hresult, hparsed⟩ := Option.bind_eq_some_iff.mp hparsed
      cases result with
      | none => exact absurd hresult (textLoop_ne_none .start)
      | some p => cases hparsed

end Parsing

/-- A text of the program is read to its end, from character to character, and its tokens become its functions. -/
theorem parseText_spec :
    (∀ data : Source, data.chars.head? = some '$' → ∃ parsed, parseText data.chars = some (some parsed)) ∧
    (∀ (data : Source) (context : List Char), data.chars = '$' :: context → ∀ i p, TextReach context i p →
      (dropBytes context i).isSome ∧ ∀ ch rest, dropBytes context i = some (ch :: rest) →
        ∃ next q, textStep context i p ch rest = some (next, q) ∧ i < next) ∧
    (∀ (data : Source) (tokens : List TextToken), data.chars = '$' :: tokens.flatMap TextToken.text →
      (∀ token ∈ tokens, token.Plain) →
      ∃ fs order, parseText data.chars = some (some (fs, order)) ∧
        SplitInto (tokens.map TextToken.meaning) fs order) := by
  refine ⟨fun data h => exists_parseText h, fun data context hdata i p h => ⟨h.onBoundary, fun ch rest hrest => ?_⟩,
    fun data tokens hdata hplain => ?_⟩
  · have hfits := data.fits
    have hlen := byteLen_of_dropBytes hrest
    rw [hdata, byteLen_cons] at hfits
    have hmax : usizeMax = 18446744073709551615 := rfl
    exact advances_textStep (by omega) (by omega) ch rest
  · have hfits := data.fits
    rw [hdata, byteLen_cons] at hfits
    have hmax : usizeMax = 18446744073709551615 := rfl
    have hloop := textLoop_tokens (p := .start) (by omega) hplain (dropBytes_zero _) (Nat.lt_succ_self _)
    refine ⟨_, _, ?_, splitInto_foldl (tokens.map TextToken.meaning)⟩
    rw [hdata, parseText, hloop]
    rfl

/-- `(a=b<5)` is a comparison of the variable `a=b`, and is lost. -/
def equalsInLabel : TextToken :=
  .state ('<', .writableStateLower) (by decide) ['a', '=', 'b'] (by decide) ['5'] 5 (by decide)

theorem comparison_lost : ¬ ∀ (data : Source) (tokens : List TextToken),
    data.chars = '$' :: tokens.flatMap TextToken.text →
      ∃ fs order, parseText data.chars = some (some (fs, order)) ∧ SplitInto (tokens.map TextToken.meaning) fs order := by
  intro h
  obtain ⟨fs, order, hparse, hsplit⟩ := h ⟨'$' :: equalsInLabel.text, by decide⟩ [equalsInLabel] (by simp)
  have hbodies : (parseText ('$' :: equalsInLabel.text)).map (Option.map fun parsed =>
      (parsed.1.lookup "").map PFunction.actions) = some (some (some [])) := by
    decide
  rw [hparse, Option.map_some, Option.map_some, Option.some_inj, Option.some_inj, Option.map_eq_some_iff] at hbodies
  obtain ⟨f, hf, hactions⟩ := hbodies
  rw [hsplit.lookup_eq "" f hf] at hactions
  exact absurd hactions (by decide)

end OpenMines
