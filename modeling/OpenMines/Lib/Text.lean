import Mathlib.Data.List.Basic
import Mathlib.Data.List.TakeDrop
import Mathlib.Data.List.TakeWhile

namespace OpenMines.Lib.Text

/-- The characters with the Unicode property `White_Space`. -/
def isWhitespace (c : Char) : Bool :=
  let n := c.toNat
  (9 ≤ n && n ≤ 13) || n == 32 || n == 133 || n == 160 || n == 5760 || (8192 ≤ n && n ≤ 8202) ||
    n == 8232 || n == 8233 || n == 8239 || n == 8287 || n == 12288

def trim (s : String) : String :=
  String.ofList (((s.toList.dropWhile isWhitespace).reverse.dropWhile isWhitespace).reverse)

def startsWith (s pre : String) : Bool := pre.toList.isPrefixOf s.toList

def stripPrefix (s pre : String) : Option String :=
  (List.dropPrefix? s.toList pre.toList).map String.ofList

/-- The parts of a text between the occurrences of a character. -/
def splitOn (s : String) (sep : Char) : List String :=
  (s.toList.splitOn sep).map String.ofList

/-- The parts of a text before and after the first occurrence of a character. -/
def splitOnce (s : String) (sep : Char) : Option (String × String) :=
  match s.toList.span (fun c => c ≠ sep) with
  | (_, []) => none
  | (before, _ :: after) => some (String.ofList before, String.ofList after)

def words (cs : List Char) : List (List Char) := (cs.splitOnP isWhitespace).filter (· ≠ [])

/-- The words of a text, which white space separates. -/
def splitWhitespace (s : String) : List String := (words s.toList).map String.ofList

/-- The number that a sequence of decimal digits denotes. -/
def digits (cs : List Char) : Option Nat :=
  if cs ≠ [] ∧ cs.all Char.isDigit then some (cs.foldl (fun n c => 10 * n + (c.toNat - '0'.toNat)) 0) else none

/-- A decimal integer of a range, with or without a sign. -/
def parseInt (low high : Int) (s : String) : Option Int :=
  let value : Option Int :=
    match s.toList with
    | '-' :: cs => (digits cs).map (fun n => -(n : Int))
    | '+' :: cs => (digits cs).map Int.ofNat
    | cs => (digits cs).map Int.ofNat
  value.filter (fun n => low ≤ n ∧ n ≤ high)

def parseI32 (s : String) : Option Int32 := (parseInt (-2147483648) 2147483647 s).map Int32.ofInt

def parseI64 (s : String) : Option Int := parseInt (-9223372036854775808) 9223372036854775807 s

/-- The decimal text of an integer. -/
def decimal (n : Int) : List Char :=
  if n < 0 then '-' :: Nat.toDigits 10 n.natAbs else Nat.toDigits 10 n.natAbs

theorem digits_toDigits (n : Nat) : digits (Nat.toDigits 10 n) = some n := by
  have hdigits : (Nat.toDigits 10 n).all Char.isDigit :=
    List.all_eq_true.mpr fun c hc => Nat.isDigit_of_mem_toDigits (by decide) (by decide) hc
  rw [digits, if_pos ⟨Nat.toDigits_ne_nil, hdigits⟩]
  exact congrArg some Nat.ofDigitChars_ten_toDigits

theorem parseInt_decimal {low high n : Int} (hlow : low ≤ n) (hhigh : n ≤ high) :
    parseInt low high (String.ofList (decimal n)) = some n := by
  have hin : decide (low ≤ n ∧ n ≤ high) = true := decide_eq_true ⟨hlow, hhigh⟩
  rw [parseInt, String.toList_ofList, decimal]
  by_cases hn : n < 0
  · have hvalue : -(n.natAbs : Int) = n := by omega
    rw [if_pos hn]
    change ((digits (Nat.toDigits 10 n.natAbs) >>= fun a => some (a : Int)).map _).filter _ = some n
    rw [digits_toDigits]
    change Option.filter _ (some (-(n.natAbs : Int))) = some n
    rw [hvalue, Option.filter_some, if_pos hin]
  · have hvalue : (n.natAbs : Int) = n := by omega
    have hdigit : ∀ c ∈ Nat.toDigits 10 n.natAbs, c.isDigit :=
      fun c hc => Nat.isDigit_of_mem_toDigits (by decide) (by decide) hc
    rw [if_neg hn]
    split
    · rename_i cs hsign
      exact absurd (hdigit '-' (hsign ▸ List.mem_cons_self)) (by decide)
    · rename_i cs hsign
      exact absurd (hdigit '+' (hsign ▸ List.mem_cons_self)) (by decide)
    · rw [digits_toDigits]
      change Option.filter _ (some (n.natAbs : Int)) = some n
      rw [hvalue, Option.filter_some, if_pos hin]

theorem parseI32_decimal (n : Int32) : parseI32 (String.ofList (decimal n.toInt)) = some n := by
  have hlow : -2147483648 ≤ n.toInt := n.le_toInt
  have hhigh : n.toInt ≤ 2147483647 := Int.le_of_lt_add_one n.toInt_lt
  rw [parseI32, parseInt_decimal hlow hhigh, Option.map_some, Int32.ofInt_toInt]

theorem isDigit_of_decimal {n : Int} {c : Char} (h : c ∈ decimal n) : c = '-' ∨ c.isDigit := by
  rw [decimal] at h
  split at h
  · exact (List.mem_cons.mp h).imp_right fun hc => Nat.isDigit_of_mem_toDigits (by decide) (by decide) hc
  · exact Or.inr (Nat.isDigit_of_mem_toDigits (by decide) (by decide) h)

theorem isWhitespace_of_isDigit {c : Char} (h : c.isDigit) : isWhitespace c = false := by
  have hrange : 48 ≤ c.toNat ∧ c.toNat ≤ 57 := by
    simp only [Char.isDigit, Bool.and_eq_true, decide_eq_true_eq] at h
    exact h
  simp only [isWhitespace, Bool.or_eq_false_iff, Bool.and_eq_false_iff, beq_eq_false_iff_ne, decide_eq_false_iff_not]
  omega

theorem decimal_ne_nil (n : Int) : decimal n ≠ [] := by
  rw [decimal]
  split
  · exact List.cons_ne_nil _ _
  · exact Nat.toDigits_ne_nil

/-- A text without white space at its ends. -/
def Trimmed (cs : List Char) : Prop :=
  (∀ c, cs.head? = some c → isWhitespace c = false) ∧ ∀ c, cs.getLast? = some c → isWhitespace c = false

theorem dropWhile_of_head {cs : List Char} (h : ∀ c, cs.head? = some c → isWhitespace c = false) :
    cs.dropWhile isWhitespace = cs := by
  cases cs with
  | nil => rfl
  | cons c cs => rw [List.dropWhile_cons, if_neg (by rw [h c rfl]; decide)]

theorem trim_of_trimmed {cs : List Char} (h : Trimmed cs) : trim (String.ofList cs) = String.ofList cs := by
  have hlast : cs.reverse.dropWhile isWhitespace = cs.reverse :=
    dropWhile_of_head fun c hc => h.2 c (List.head?_reverse.symm.trans hc)
  rw [trim, String.toList_ofList, dropWhile_of_head h.1, hlast, List.reverse_reverse]

theorem splitOnce_append {before after : List Char} {sep : Char} (h : sep ∉ before) :
    splitOnce (String.ofList (before ++ sep :: after)) sep = some (String.ofList before, String.ofList after) := by
  have hspan : (before ++ sep :: after).span (fun c => c ≠ sep) = (before, sep :: after) := by
    rw [List.span_eq_takeWhile_dropWhile]
    have hall : ∀ c ∈ before, decide (c ≠ sep) = true := fun c hc => decide_eq_true fun heq => h (heq ▸ hc)
    rw [List.takeWhile_append_of_pos hall, List.dropWhile_append_of_pos hall]
    simp
  rw [splitOnce, String.toList_ofList, hspan]

theorem splitOnce_none {cs : List Char} {sep : Char} (h : sep ∉ cs) : splitOnce (String.ofList cs) sep = none := by
  have hspan : cs.span (fun c => c ≠ sep) = (cs, []) := by
    rw [List.span_eq_takeWhile_dropWhile]
    have hall : ∀ c ∈ cs, decide (c ≠ sep) = true := fun c hc => decide_eq_true fun heq => h (heq ▸ hc)
    rw [List.takeWhile_eq_self_iff.mpr hall, List.dropWhile_eq_nil_iff.mpr hall]
  rw [splitOnce, String.toList_ofList, hspan]

theorem isDigit_of_digits {cs : List Char} {n : Nat} (h : digits cs = some n) : ∀ c ∈ cs, c.isDigit := by
  rw [digits] at h
  split at h
  · rename_i hdigits
    exact List.all_eq_true.mp hdigits.2
  · cases h

/-- A number is written with digits and a sign. -/
theorem chars_of_parseInt {low high n : Int} {s : String} (h : parseInt low high s = some n) :
    ∀ c ∈ s.toList, c = '-' ∨ c = '+' ∨ c.isDigit := by
  rw [parseInt, Option.filter_eq_some_iff] at h
  obtain ⟨h, -⟩ := h
  split at h
  · rename_i cs hs
    obtain ⟨m, hm, -⟩ := Option.map_eq_some_iff.mp h
    obtain ⟨k, hk, -⟩ := Option.bind_eq_some_iff.mp hm
    intro c hc
    rw [hs] at hc
    cases List.mem_cons.mp hc with
    | inl heq => exact Or.inl heq
    | inr hin => exact Or.inr (Or.inr (isDigit_of_digits hk c hin))
  · rename_i cs hs
    obtain ⟨m, hm, -⟩ := Option.map_eq_some_iff.mp h
    intro c hc
    rw [hs] at hc
    cases List.mem_cons.mp hc with
    | inl heq => exact Or.inr (Or.inl heq)
    | inr hin => exact Or.inr (Or.inr (isDigit_of_digits hm c hin))
  · obtain ⟨m, hm, -⟩ := Option.map_eq_some_iff.mp h
    exact fun c hc => Or.inr (Or.inr (isDigit_of_digits hm c hc))

theorem chars_of_parseI32 {n : Int32} {s : String} (h : parseI32 s = some n) :
    ∀ c ∈ s.toList, c = '-' ∨ c = '+' ∨ c.isDigit := by
  obtain ⟨m, hm, -⟩ := Option.map_eq_some_iff.mp h
  exact chars_of_parseInt hm

theorem stripPrefix_eq_some {s pre rest : String} : stripPrefix s pre = some rest ↔ s = pre ++ rest := by
  have hlists : s = pre ++ rest ↔ s.toList = pre.toList ++ rest.toList := by
    rw [← String.toList_inj, String.toList_append]
  rw [hlists, stripPrefix, Option.map_eq_some_iff]
  constructor
  · rintro ⟨cs, hcs, rfl⟩
    obtain ⟨p, hp, heq⟩ := List.dropPrefix?_eq_some_iff.mp hcs
    rw [hp, beq_iff_eq.mp heq, String.toList_ofList]
  · exact fun h => ⟨rest.toList, List.dropPrefix?_eq_some_iff.mpr ⟨_, h, beq_self_eq_true _⟩, String.ofList_toList⟩

theorem stripPrefix_ofList_append (pre : String) (cs : List Char) :
    stripPrefix (String.ofList (pre.toList ++ cs)) pre = some (String.ofList cs) := by
  rw [stripPrefix_eq_some, String.ofList_append, String.ofList_toList]

theorem splitOnce_eq_some {s before after : String} {sep : Char} (h : splitOnce s sep = some (before, after)) :
    s.toList = before.toList ++ sep :: after.toList ∧ sep ∉ before.toList := by
  rw [splitOnce, List.span_eq_takeWhile_dropWhile] at h
  split at h
  · cases h
  · rename_i first c rest hspan
    obtain ⟨rfl, hdrop⟩ := Prod.mk.inj hspan
    obtain ⟨rfl, rfl⟩ := Prod.mk.inj (Option.some.inj h)
    have hsep : c = sep := by
      have hc := List.head?_dropWhile_not (fun c => decide (c ≠ sep)) s.toList
      rw [hdrop] at hc
      simpa using hc
    subst hsep
    rw [String.toList_ofList, String.toList_ofList, ← hdrop, List.takeWhile_append_dropWhile]
    exact ⟨rfl, fun hin => absurd (List.mem_takeWhile_imp hin) (by simp)⟩

theorem splitOn_of_splitOnce {s before after : String} {sep : Char} (h : splitOnce s sep = some (before, after))
    (hafter : sep ∉ after.toList) : splitOn s sep = [before, after] := by
  obtain ⟨hs, hbefore⟩ := splitOnce_eq_some h
  rw [splitOn, hs, List.splitOn_append_cons_self_of_not_mem hbefore, List.splitOn_eq_singleton hafter, List.map_cons,
    List.map_cons, List.map_nil, String.ofList_toList, String.ofList_toList]

/-! ### Prefixes -/

section Prefixes

variable {s pre other rest : String}

theorem startsWith_iff : startsWith s pre = true ↔ pre.toList <+: s.toList := by
  rw [startsWith, List.isPrefixOf_iff_prefix]

theorem startsWith_append (pre rest : String) : startsWith (pre ++ rest) pre = true := by
  rw [startsWith_iff, String.toList_append]
  exact List.prefix_append _ _

theorem startsWith_of_startsWith (h : startsWith s pre = true) (hpre : startsWith pre other = true) :
    startsWith s other = true :=
  startsWith_iff.mpr ((startsWith_iff.mp hpre).trans (startsWith_iff.mp h))

theorem exists_append_of_startsWith (h : startsWith s pre = true) : ∃ rest, s = pre ++ rest := by
  obtain ⟨cs, hcs⟩ := startsWith_iff.mp h
  refine ⟨String.ofList cs, ?_⟩
  rw [← String.toList_inj, String.toList_append, String.toList_ofList, hcs]

theorem startsWith_of_stripPrefix (h : stripPrefix s pre = some rest) : startsWith s pre = true := by
  rw [stripPrefix_eq_some.mp h]
  exact startsWith_append pre rest

/-- At some place the texts have different characters. -/
def differ : List Char → List Char → Bool
  | c :: cs, d :: ds => c != d || differ cs ds
  | _, _ => false

def clash (s t : String) : Bool := differ s.toList t.toList

theorem not_prefix_of_differ {cs ds : List Char} (h : differ cs ds = true) (rest : List Char) : ¬ ds <+: cs ++ rest := by
  induction cs generalizing ds with
  | nil => cases h
  | cons c cs ih =>
    cases ds with
    | nil => cases h
    | cons d ds =>
      rw [List.cons_append, List.cons_prefix_cons]
      rintro ⟨rfl, hds⟩
      rw [differ, bne_self_eq_false, Bool.false_or] at h
      exact ih h hds

theorem clash_ofList {cs ds : List Char} (h : differ cs ds = true) : clash (String.ofList cs) (String.ofList ds) = true := by
  rw [clash, String.toList_ofList, String.toList_ofList, h]

theorem startsWith_ofList {cs ds : List Char} {b : Bool} (h : ds.isPrefixOf cs = b) :
    startsWith (String.ofList cs) (String.ofList ds) = b := by
  rw [startsWith, String.toList_ofList, String.toList_ofList, h]

theorem startsWith_of_clash (h : startsWith s pre = true) (hclash : clash pre other = true) :
    startsWith s other = false := by
  obtain ⟨rest, rfl⟩ := exists_append_of_startsWith h
  rw [Bool.eq_false_iff, ne_eq, startsWith_iff, String.toList_append]
  exact not_prefix_of_differ hclash rest.toList

theorem stripPrefix_of_clash (h : startsWith s pre = true) (hclash : clash pre other = true) :
    stripPrefix s other = none := by
  cases hstrip : stripPrefix s other with
  | none => rfl
  | some rest => exact absurd (startsWith_of_stripPrefix hstrip) (by rw [startsWith_of_clash h hclash]; decide)

theorem ne_of_startsWith (h : startsWith s pre = true) (hother : startsWith other pre = false) : s ≠ other := by
  rintro rfl
  rw [hother] at h
  cases h

end Prefixes

/-! ### Words -/

section Words

variable {cs : List Char} {c : Char}

theorem words_append_cons (before after : List Char) (h : isWhitespace c = true) :
    words (before ++ c :: after) = words before ++ words after := by
  rw [words, List.splitOnP_append_cons before after h, List.filter_append, words, words]

theorem words_dropWhile (cs : List Char) : words (cs.dropWhile isWhitespace) = words cs := by
  induction cs with
  | nil => rfl
  | cons c cs ih =>
    rw [List.dropWhile_cons]
    split
    · rename_i h
      rw [ih, ← List.nil_append (c :: cs), words_append_cons [] cs h]
      rfl
    · rfl

theorem words_reverse_dropWhile (cs : List Char) : words (cs.dropWhile isWhitespace).reverse = words cs.reverse := by
  induction cs with
  | nil => rfl
  | cons c cs ih =>
    rw [List.dropWhile_cons]
    split
    · rename_i h
      rw [ih, List.reverse_cons, words_append_cons cs.reverse [] h]
      exact (List.append_nil _).symm
    · rfl

theorem splitWhitespace_trim (s : String) : splitWhitespace (trim s) = splitWhitespace s := by
  have hwords : words (trim s).toList = words s.toList := by
    rw [trim, String.toList_ofList, words_reverse_dropWhile, List.reverse_reverse, words_dropWhile]
  exact congrArg (List.map String.ofList) hwords

/-- A text begins, behind its white space, as its first word does. -/
theorem head_trim {s w : String} {ws : List String} (h : splitWhitespace s = w :: ws) :
    (trim s).toList.head? = w.toList.head? := by
  have hwords : (words (s.toList.dropWhile isWhitespace)).map String.ofList = w :: ws := by
    rw [words_dropWhile]
    exact h
  rw [trim, String.toList_ofList]
  cases hd : s.toList.dropWhile isWhitespace with
  | nil =>
    rw [hd] at hwords
    cases hwords
  | cons c cs =>
    have hc : isWhitespace c = false := by
      have hhead := List.head?_dropWhile_not isWhitespace s.toList
      rw [hd] at hhead
      exact hhead
    have hlast : [c].dropWhile isWhitespace = [c] := by rw [List.dropWhile_cons, hc, if_neg (by decide)]
    obtain ⟨xs, hxs⟩ : ∃ xs, (cs.reverse ++ [c]).dropWhile isWhitespace = xs ++ [c] := by
      rw [List.dropWhile_append, hlast]
      split
      · exact ⟨[], rfl⟩
      · exact ⟨_, rfl⟩
    have hfirst : w.toList.head? = some c := by
      rw [hd, words, List.splitOnP_cons_eq_if_modifyHead, hc, if_neg (by decide)] at hwords
      obtain ⟨x, rest, hsplit⟩ := List.exists_cons_of_ne_nil (List.splitOnP_ne_nil isWhitespace cs)
      rw [hsplit, List.modifyHead_cons, List.filter_cons_of_pos (by simp), List.map_cons] at hwords
      rw [← (List.cons.inj hwords).1, String.toList_ofList, List.head?_cons]
    rw [List.reverse_cons, hxs, List.reverse_append, hfirst]
    rfl

end Words

end OpenMines.Lib.Text
