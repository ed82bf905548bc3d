import OpenMines.Lib.Text

namespace OpenMines.Lib.JsonText

/-- What a text of the interchange format says; its numbers are integers. -/
inductive Document
  | bool (b : Bool)
  | int (n : Int)
  | str (s : String)
  | arr (items : List Document)
  | obj (members : List (String × Document))

/-! ### Reading -/

def isSpace (c : Char) : Bool := c = ' ' || c = '\n' || c = '\r' || c = '\t'

def skip (cs : List Char) : List Char := cs.dropWhile isSpace

/-- The character that stands behind a backslash. -/
def unescape (c : Char) : Option Char :=
  match c with
  | '"' => some '"'
  | '\\' => some '\\'
  | '/' => some '/'
  | 'b' => some '\x08'
  | 'f' => some '\x0c'
  | 'n' => some '\n'
  | 'r' => some '\r'
  | 't' => some '\t'
  | _ => none

def hexValue (c : Char) : Option Nat :=
  if '0' ≤ c ∧ c ≤ '9' then some (c.toNat - '0'.toNat)
  else if 'a' ≤ c ∧ c ≤ 'f' then some (c.toNat - 'a'.toNat + 10)
  else if 'A' ≤ c ∧ c ≤ 'F' then some (c.toNat - 'A'.toNat + 10)
  else none

/-- Four digits; a half of a pair is no character. -/
def readUnicode : List Char → Option (Char × List Char)
  | a :: b :: c :: d :: cs =>
    match [a, b, c, d].mapM hexValue with
    | some [a, b, c, d] =>
      let n := ((a * 16 + b) * 16 + c) * 16 + d
      if n.isValidChar then some (Char.ofNat n, cs) else none
    | _ => none
  | _ => none

def readChar : List Char → Option (Char × List Char)
  | '\\' :: 'u' :: cs => readUnicode cs
  | '\\' :: c :: cs => (unescape c).map fun u => (u, cs)
  | c :: cs => if c = '\\' ∨ c.toNat < 32 then none else some (c, cs)
  | [] => none

/-- The characters up to the quote. -/
def readChars : Nat → List Char → Option (List Char × List Char)
  | 0, _ => none
  | n + 1, cs =>
    if cs.head? = some '"' then some ([], cs.tail)
    else (readChar cs).bind fun r => (readChars n r.2).map fun s => (r.1 :: s.1, s.2)

def readText (cs : List Char) : Option (List Char × List Char) := readChars (cs.length + 1) cs

def readNat (cs : List Char) : Option (Nat × List Char) :=
  (Text.digits (cs.takeWhile Char.isDigit)).map fun n => (n, cs.dropWhile Char.isDigit)

def readInt : List Char → Option (Int × List Char)
  | '-' :: cs => (readNat cs).map fun r => (-(r.1 : Int), r.2)
  | cs => (readNat cs).map fun r => ((r.1 : Int), r.2)

def readWord (word : List Char) (cs : List Char) : Option (List Char) :=
  if word <+: cs then some (cs.drop word.length) else none

mutual

def readValue : Nat → List Char → Option (Document × List Char)
  | 0, _ => none
  | n + 1, cs =>
    match skip cs with
    | '"' :: cs => (readText cs).map fun r => (.str (String.ofList r.1), r.2)
    | '[' :: cs => if (skip cs).head? = some ']' then some (.arr [], (skip cs).tail)
      else (readItems n cs).map fun r => (.arr r.1, r.2)
    | '{' :: cs => if (skip cs).head? = some '}' then some (.obj [], (skip cs).tail)
      else (readMembers n cs).map fun r => (.obj r.1, r.2)
    | 't' :: cs => (readWord ['r', 'u', 'e'] cs).map fun cs => (.bool true, cs)
    | 'f' :: cs => (readWord ['a', 'l', 's', 'e'] cs).map fun cs => (.bool false, cs)
    | cs => (readInt cs).map fun r => (.int r.1, r.2)

def readItems : Nat → List Char → Option (List Document × List Char)
  | 0, _ => none
  | n + 1, cs =>
    (readValue n cs).bind fun r =>
      match skip r.2 with
      | ']' :: cs => some ([r.1], cs)
      | ',' :: cs => (readItems n cs).map fun s => (r.1 :: s.1, s.2)
      | _ => none

def readMembers : Nat → List Char → Option (List (String × Document) × List Char)
  | 0, _ => none
  | n + 1, cs =>
    match skip cs with
    | '"' :: cs =>
      (readText cs).bind fun k =>
        match skip k.2 with
        | ':' :: cs =>
          (readValue n cs).bind fun r =>
            match skip r.2 with
            | '}' :: cs => some ([(String.ofList k.1, r.1)], cs)
            | ',' :: cs => (readMembers n cs).map fun s => ((String.ofList k.1, r.1) :: s.1, s.2)
            | _ => none
        | _ => none
    | _ => none

end

def read (cs : List Char) : Option Document :=
  (readValue (cs.length + 1) cs).bind fun r => if skip r.2 = [] then some r.1 else none

/-! ### Writing -/

/-- The letters that a writer puts behind a backslash; the reader knows them. -/
structure Escapes where
  short : Char → Option Char
  sound : ∀ c e, short c = some e → unescape e = some c
  quote : (short '"').isSome
  backslash : (short '\\').isSome

def hexDigit (n : Nat) : Char := if n < 10 then Char.ofNat (n + 48) else Char.ofNat (n + 87)

def writeUnicode (c : Char) : List Char := ['\\', 'u', '0', '0', hexDigit (c.toNat / 16), hexDigit (c.toNat % 16)]

variable (e : Escapes)

def writeChar (c : Char) : List Char :=
  match e.short c with
  | some letter => ['\\', letter]
  | none => if c.toNat < 32 then writeUnicode c else [c]

def writeText (s : List Char) : List Char := '"' :: s.flatMap (writeChar e) ++ ['"']

mutual

def write : Document → List Char
  | .bool b => if b then ['t', 'r', 'u', 'e'] else ['f', 'a', 'l', 's', 'e']
  | .int n => Text.decimal n
  | .str s => writeText e s.toList
  | .arr items => '[' :: writeItems items
  | .obj members => '{' :: writeMembers members

def writeItems : List Document → List Char
  | [] => [']']
  | [v] => write v ++ [']']
  | v :: w :: vs => write v ++ ',' :: writeItems (w :: vs)

def writeMembers : List (String × Document) → List Char
  | [] => ['}']
  | [(k, v)] => writeText e k.toList ++ ':' :: write v ++ ['}']
  | (k, v) :: w :: vs => writeText e k.toList ++ ':' :: write v ++ ',' :: writeMembers (w :: vs)

end


/-! ### What is written is read -/

theorem readText_cons_of_ne {n : Nat} {c : Char} {cs : List Char} (hc : c ≠ '"') :
    readChars (n + 1) (c :: cs) =
      (readChar (c :: cs)).bind fun r => (readChars n r.2).map fun s => (r.1 :: s.1, s.2) := by
  rw [readChars, if_neg]
  rw [List.head?_cons, Option.some.injEq]
  exact hc

theorem unescape_letter {c letter : Char} (h : e.short c = some letter) : letter ≠ 'u' ∧ unescape letter = some c := by
  have hsound := e.sound c letter h
  refine ⟨?_, hsound⟩
  rintro rfl
  cases hsound

theorem hexValue_hexDigit : ∀ n < 16, hexValue (hexDigit n) = some n := by decide

theorem readUnicode_writeUnicode {c : Char} (hc : c.toNat < 32) (rest : List Char) :
    readChar (writeUnicode c ++ rest) = some (c, rest) := by
  have hdigits : ['0', '0', hexDigit (c.toNat / 16), hexDigit (c.toNat % 16)].mapM hexValue =
      some [0, 0, c.toNat / 16, c.toNat % 16] := by
    rw [List.mapM_cons, List.mapM_cons, List.mapM_cons, List.mapM_cons, hexValue_hexDigit _ (by omega),
      hexValue_hexDigit _ (by omega)]
    rfl
  have hvalue : ((0 * 16 + 0) * 16 + c.toNat / 16) * 16 + c.toNat % 16 = c.toNat := by omega
  rw [writeUnicode, List.cons_append, List.cons_append, readChar, List.cons_append, List.cons_append, List.cons_append,
    List.cons_append, List.nil_append, readUnicode, hdigits]
  dsimp only
  rw [hvalue, if_pos (show c.toNat.isValidChar from c.valid), Char.ofNat_toNat]

theorem readChar_writeChar (c : Char) (rest : List Char) : readChar (writeChar e c ++ rest) = some (c, rest) := by
  rw [writeChar]
  split
  · rename_i letter hletter
    obtain ⟨hu, hsound⟩ := unescape_letter e hletter
    rw [List.cons_append, List.cons_append, List.nil_append, readChar, hsound]
    · rfl
    · exact hu
  · rename_i hnone
    split
    · rename_i hcontrol
      exact readUnicode_writeUnicode hcontrol rest
    · rename_i hplain
      have hslash : c ≠ '\\' := by
        rintro rfl
        exact (Option.isSome_iff_ne_none.mp e.backslash) hnone
      rw [List.singleton_append, readChar, if_neg (not_or.mpr ⟨hslash, hplain⟩)]
      · exact fun cs h _ => hslash h
      · exact fun d cs h _ => hslash h

theorem head_writeChar (c : Char) : ∃ d cs, writeChar e c = d :: cs ∧ d ≠ '"' := by
  rw [writeChar]
  split
  · exact ⟨_, _, rfl, by decide⟩
  · rename_i hnone
    split
    · exact ⟨_, _, rfl, by decide⟩
    · refine ⟨c, [], rfl, ?_⟩
      rintro rfl
      exact (Option.isSome_iff_ne_none.mp e.quote) hnone

theorem readChars_writeText (s rest : List Char) {n : Nat} (hn : s.length < n) :
    readChars n (s.flatMap (writeChar e) ++ '"' :: rest) = some (s, rest) := by
  induction s generalizing n with
  | nil =>
      obtain ⟨n, rfl⟩ := Nat.exists_eq_succ_of_ne_zero (Nat.ne_of_gt hn)
      rfl
  | cons c s ih =>
      obtain ⟨n, rfl⟩ := Nat.exists_eq_succ_of_ne_zero (Nat.ne_zero_of_lt hn)
      obtain ⟨d, cs, hd, hne⟩ := head_writeChar e c
      have hchar := readChar_writeChar e c (s.flatMap (writeChar e) ++ '"' :: rest)
      rw [List.flatMap_cons, List.append_assoc]
      rw [hd, List.cons_append] at hchar ⊢
      rw [Nat.succ_eq_add_one, readText_cons_of_ne hne, hchar, Option.bind_some, ih (Nat.lt_of_succ_lt_succ hn)]
      rfl

theorem length_le_flatMap (s : List Char) : s.length ≤ (s.flatMap (writeChar e)).length := by
  induction s with
  | nil => exact Nat.le_refl _
  | cons c s ih =>
      obtain ⟨d, cs, hd, -⟩ := head_writeChar e c
      rw [List.flatMap_cons, hd, List.length_append, List.length_cons, List.length_cons]
      omega

theorem readText_writeText (s rest : List Char) :
    readText (s.flatMap (writeChar e) ++ '"' :: rest) = some (s, rest) := by
  have hlength := length_le_flatMap e s
  refine readChars_writeText e s rest ?_
  rw [List.length_append, List.length_cons]
  omega

/-- A number ends where no digit follows. -/
def Ends (rest : List Char) : Prop := ∀ c, rest.head? = some c → c.isDigit = false

theorem readNat_toDigits (n : Nat) {rest : List Char} (hrest : Ends rest) :
    readNat (Nat.toDigits 10 n ++ rest) = some (n, rest) := by
  have hdigits : ∀ c ∈ Nat.toDigits 10 n, c.isDigit = true := fun c hc =>
    Nat.isDigit_of_mem_toDigits (by decide) (by decide) hc
  have htake : rest.takeWhile Char.isDigit = [] := by
    cases rest with
    | nil => rfl
    | cons c rest => exact List.takeWhile_cons_of_neg (by rw [hrest c rfl]; decide)
  have hdrop : rest.dropWhile Char.isDigit = rest := by
    cases rest with
    | nil => rfl
    | cons c rest => exact List.dropWhile_cons_of_neg (by rw [hrest c rfl]; decide)
  rw [readNat, List.takeWhile_append_of_pos hdigits, List.dropWhile_append_of_pos hdigits, htake, hdrop,
    List.append_nil, Text.digits_toDigits]
  rfl

theorem readInt_decimal (n : Int) {rest : List Char} (hrest : Ends rest) :
    readInt (Text.decimal n ++ rest) = some (n, rest) := by
  rw [Text.decimal]
  split
  · rename_i hn
    have hvalue : -(n.natAbs : Int) = n := by omega
    rw [List.cons_append, readInt, readNat_toDigits _ hrest, Option.map_some, hvalue]
  · rename_i hn
    have hvalue : (n.natAbs : Int) = n := by omega
    have hdigits : ∀ c ∈ Nat.toDigits 10 n.natAbs, c.isDigit = true := fun c hc =>
      Nat.isDigit_of_mem_toDigits (by decide) (by decide) hc
    rw [readInt, readNat_toDigits _ hrest, Option.map_some, hvalue]
    intro cs hcs
    obtain ⟨d, ds, hd⟩ := List.exists_cons_of_ne_nil (Nat.toDigits_ne_nil (n := n.natAbs) (b := 10))
    rw [hd, List.cons_append] at hcs
    obtain ⟨rfl, -⟩ := List.cons.inj hcs
    exact absurd (hdigits '-' (hd ▸ List.mem_cons_self)) (by decide)

mutual

/-- The rounds that a reader needs. -/
def size : Document → Nat
  | .bool _ => 1
  | .int _ => 1
  | .str _ => 1
  | .arr items => 1 + sizeItems items
  | .obj members => 1 + sizeMembers members

def sizeItems : List Document → Nat
  | [] => 0
  | v :: vs => 1 + size v + sizeItems vs

def sizeMembers : List (String × Document) → Nat
  | [] => 0
  | (_, v) :: vs => 1 + size v + sizeMembers vs

end

theorem length_pos_decimal (n : Int) : 0 < (Text.decimal n).length := List.length_pos_of_ne_nil (Text.decimal_ne_nil n)

mutual

theorem size_le_length : ∀ v : Document, size v ≤ (write e v).length
  | .bool b => by cases b <;> simp [size, write]
  | .int n => by
      rw [size, write]
      exact length_pos_decimal n
  | .str s => by
      rw [size, write, writeText, List.cons_append, List.length_cons]
      omega
  | .arr items => by
      have h := sizeItems_le_length items
      rw [size, write, List.length_cons]
      omega
  | .obj members => by
      have h := sizeMembers_le_length members
      rw [size, write, List.length_cons]
      omega

theorem sizeItems_le_length : ∀ vs : List Document, sizeItems vs ≤ (writeItems e vs).length
  | [] => Nat.zero_le _
  | [v] => by
      have h := size_le_length v
      rw [sizeItems, sizeItems, writeItems, List.length_append, List.length_singleton]
      omega
  | v :: w :: vs => by
      have h := size_le_length v
      have hrest := sizeItems_le_length (w :: vs)
      rw [sizeItems, writeItems, List.length_append, List.length_cons]
      omega

theorem sizeMembers_le_length : ∀ vs : List (String × Document), sizeMembers vs ≤ (writeMembers e vs).length
  | [] => Nat.zero_le _
  | [(k, v)] => by
      have h := size_le_length v
      rw [sizeMembers, sizeMembers, writeMembers]
      simp only [List.length_append, List.length_cons]
      omega
  | (k, v) :: w :: vs => by
      have h := size_le_length v
      have hrest := sizeMembers_le_length (w :: vs)
      rw [sizeMembers, writeMembers]
      simp only [List.length_append, List.length_cons]
      omega

end

theorem skip_cons {c : Char} (hc : isSpace c = false) (cs : List Char) : skip (c :: cs) = c :: cs :=
  List.dropWhile_cons_of_neg (by rw [hc]; decide)

theorem ends_cons {c : Char} (hc : c.isDigit = false) (cs : List Char) : Ends (c :: cs) := by
  intro d hd
  rw [← Option.some.inj hd]
  exact hc

theorem writeItems_cons (v : Document) (vs : List Document) :
    writeItems e (v :: vs) = write e v ++ (if vs = [] then [']'] else ',' :: writeItems e vs) := by
  cases vs with
  | nil => rfl
  | cons w vs => rfl

theorem number_head (n : Int) : ∃ d ds, Text.decimal n = d :: ds ∧ (d = '-' ∨ d.isDigit = true) := by
  obtain ⟨d, ds, hd⟩ := List.exists_cons_of_ne_nil (Text.decimal_ne_nil n)
  exact ⟨d, ds, hd, Text.isDigit_of_decimal (hd ▸ List.mem_cons_self)⟩

/-- No number begins with one of the other signs. -/
theorem number_ne {d x : Char} (hd : d = '-' ∨ d.isDigit = true)
    (hx : x ∈ ['"', '[', '{', 't', 'f', ']', '}', ' ', '\n', '\r', '\t']) : d ≠ x := by
  have hsigns : ∀ x ∈ ['"', '[', '{', 't', 'f', ']', '}', ' ', '\n', '\r', '\t'], ¬ (x = '-' ∨ x.isDigit = true) := by
    intro x hx
    simp only [List.mem_cons, List.not_mem_nil, or_false] at hx
    rcases hx with rfl | rfl | rfl | rfl | rfl | rfl | rfl | rfl | rfl | rfl | rfl <;> decide
  rintro rfl
  exact hsigns d hx hd

theorem isSpace_number {d : Char} (hd : d = '-' ∨ d.isDigit = true) : isSpace d = false := by
  have hne (x : Char) (hx : x ∈ ['"', '[', '{', 't', 'f', ']', '}', ' ', '\n', '\r', '\t']) : d ≠ x := number_ne hd hx
  simp [isSpace, hne]

/-- The first character of a value. -/
theorem head_write (v : Document) (rest : List Char) :
    ∃ c cs, write e v ++ rest = c :: cs ∧ isSpace c = false ∧ c ≠ ']' := by
  cases v with
  | bool b => cases b <;> exact ⟨_, _, rfl, by decide⟩
  | int n =>
      obtain ⟨d, ds, hd, hnumber⟩ := number_head n
      exact ⟨d, ds ++ rest, by rw [write, hd, List.cons_append], isSpace_number hnumber, number_ne hnumber (by simp)⟩
  | str s => exact ⟨_, _, by rw [write, writeText]; rfl, by decide⟩
  | arr items => exact ⟨_, _, by rw [write]; rfl, by decide⟩
  | obj members => exact ⟨_, _, by rw [write]; rfl, by decide⟩

theorem readWord_append (word rest : List Char) : readWord word (word ++ rest) = some rest := by
  rw [readWord, if_pos (List.prefix_append word rest), List.drop_left]

theorem readValue_int (n : Nat) (i : Int) {rest : List Char} (hrest : Ends rest) :
    readValue (n + 1) (Text.decimal i ++ rest) = some (.int i, rest) := by
  obtain ⟨d, ds, hd, hnumber⟩ := number_head i
  have hint := readInt_decimal i hrest
  rw [hd, List.cons_append] at hint ⊢
  have hne (x : Char) (hx : x ∈ ['"', '[', '{', 't', 'f', ']', '}', ' ', '\n', '\r', '\t']) : d ≠ x :=
    number_ne hnumber hx
  rw [readValue, skip_cons (isSpace_number hnumber)]
  split
  all_goals first
    | rename_i heq
      exact absurd (List.cons.inj heq).1 (hne _ (by simp))
    | rw [hint]
      rfl

theorem readValue_bracket (n : Nat) (cs : List Char) : readValue (n + 1) ('[' :: cs) =
    if (skip cs).head? = some ']' then some (.arr [], (skip cs).tail)
    else (readItems n cs).map fun r => (.arr r.1, r.2) := rfl

theorem readValue_brace (n : Nat) (cs : List Char) : readValue (n + 1) ('{' :: cs) =
    if (skip cs).head? = some '}' then some (.obj [], (skip cs).tail)
    else (readMembers n cs).map fun r => (.obj r.1, r.2) := rfl

theorem readMembers_quote (n : Nat) (cs : List Char) : readMembers (n + 1) ('"' :: cs) =
    (readText cs).bind fun k =>
      match skip k.2 with
      | ':' :: cs =>
        (readValue n cs).bind fun r =>
          match skip r.2 with
          | '}' :: cs => some ([(String.ofList k.1, r.1)], cs)
          | ',' :: cs => (readMembers n cs).map fun s => ((String.ofList k.1, r.1) :: s.1, s.2)
          | _ => none
      | _ => none := rfl

theorem readValue_str (n : Nat) (s : String) (rest : List Char) :
    readValue (n + 1) (writeText e s.toList ++ rest) = some (.str s, rest) := by
  have htext := readText_writeText e s.toList rest
  have hcs : writeText e s.toList ++ rest = '"' :: (s.toList.flatMap (writeChar e) ++ '"' :: rest) := by
    rw [writeText, List.cons_append, List.cons_append, List.append_assoc]
    rfl
  rw [hcs]
  change (readText (s.toList.flatMap (writeChar e) ++ '"' :: rest)).map _ = _
  rw [htext, Option.map_some, String.ofList_toList]

mutual

theorem readValue_write : ∀ (v : Document) (n : Nat) (rest : List Char), size v ≤ n → Ends rest →
    readValue n (write e v ++ rest) = some (v, rest)
  | .bool b, 0, _, h, _ => absurd h (by rw [size]; decide)
  | .int i, 0, _, h, _ => absurd h (by rw [size]; decide)
  | .str s, 0, _, h, _ => absurd h (by rw [size]; decide)
  | .arr items, 0, _, h, _ => absurd h (by rw [size]; omega)
  | .obj members, 0, _, h, _ => absurd h (by rw [size]; omega)
  | .bool true, n + 1, rest, _, _ => by
      have hword := readWord_append ['r', 'u', 'e'] rest
      change (readWord ['r', 'u', 'e'] (['r', 'u', 'e'] ++ rest)).map _ = _
      rw [hword, Option.map_some]
  | .bool false, n + 1, rest, _, _ => by
      have hword := readWord_append ['a', 'l', 's', 'e'] rest
      change (readWord ['a', 'l', 's', 'e'] (['a', 'l', 's', 'e'] ++ rest)).map _ = _
      rw [hword, Option.map_some]
  | .int i, n + 1, rest, _, hrest => by
      rw [write]
      exact readValue_int n i hrest
  | .str s, n + 1, rest, _, _ => by
      rw [write]
      exact readValue_str e n s rest
  | .arr [], n + 1, rest, _, _ => rfl
  | .arr (v :: vs), n + 1, rest, h, _ => by
      rw [size] at h
      have hitems := readItems_write (v :: vs) n rest (List.cons_ne_nil v vs) (by omega)
      obtain ⟨c, cs, hc, hspace, hne⟩ := head_write e v ((if vs = [] then [']'] else ',' :: writeItems e vs) ++ rest)
      have hcs : writeItems e (v :: vs) ++ rest = c :: cs := by rw [writeItems_cons, List.append_assoc, hc]
      rw [hcs] at hitems
      rw [write, List.cons_append, hcs, readValue_bracket, skip_cons hspace, if_neg, hitems, Option.map_some]
      rw [List.head?_cons, Option.some.injEq]
      exact hne
  | .obj [], n + 1, rest, _, _ => rfl
  | .obj ((k, v) :: vs), n + 1, rest, h, _ => by
      rw [size] at h
      have hmembers := readMembers_write ((k, v) :: vs) n rest (List.cons_ne_nil _ vs) (by omega)
      have hhead : ∃ cs, writeMembers e ((k, v) :: vs) ++ rest = '"' :: cs := by
        cases vs <;> exact ⟨_, rfl⟩
      obtain ⟨cs, hcs⟩ := hhead
      rw [hcs] at hmembers
      rw [write, List.cons_append, hcs, readValue_brace, skip_cons (by decide), if_neg (by rw [List.head?_cons]; decide),
        hmembers, Option.map_some]

theorem readItems_write : ∀ (vs : List Document) (n : Nat) (rest : List Char), vs ≠ [] → sizeItems vs ≤ n →
    readItems n (writeItems e vs ++ rest) = some (vs, rest)
  | [], _, _, h, _ => absurd rfl h
  | v :: vs, 0, _, _, h => absurd h (by rw [sizeItems]; omega)
  | [v], n + 1, rest, _, h => by
      rw [sizeItems] at h
      have hv := readValue_write v n (']' :: rest) (by omega) (ends_cons (by decide) rest)
      rw [writeItems, List.append_assoc, List.singleton_append, readItems, hv, Option.bind_some]
      rfl
  | v :: w :: vs, n + 1, rest, _, h => by
      rw [sizeItems] at h
      have hv := readValue_write v n (',' :: (writeItems e (w :: vs) ++ rest)) (by omega) (ends_cons (by decide) _)
      have hvs := readItems_write (w :: vs) n rest (List.cons_ne_nil w vs) (by omega)
      rw [writeItems, List.append_assoc, List.cons_append, readItems, hv, Option.bind_some]
      change (readItems n (writeItems e (w :: vs) ++ rest)).map _ = _
      rw [hvs, Option.map_some]

theorem readMembers_write : ∀ (vs : List (String × Document)) (n : Nat) (rest : List Char), vs ≠ [] →
    sizeMembers vs ≤ n → readMembers n (writeMembers e vs ++ rest) = some (vs, rest)
  | [], _, _, h, _ => absurd rfl h
  | (k, v) :: vs, 0, _, _, h => absurd h (by rw [sizeMembers]; omega)
  | [(k, v)], n + 1, rest, _, h => by
      rw [sizeMembers] at h
      have hv := readValue_write v n ('}' :: rest) (by omega) (ends_cons (by decide) rest)
      have hk := readText_writeText e k.toList (':' :: (write e v ++ '}' :: rest))
      have hcs : writeMembers e [(k, v)] ++ rest =
          '"' :: (k.toList.flatMap (writeChar e) ++ '"' :: ':' :: (write e v ++ '}' :: rest)) := by
        rw [writeMembers, writeText]
        simp only [List.cons_append, List.append_assoc, List.nil_append]
      rw [hcs, readMembers_quote, hk, Option.bind_some]
      change (readValue n (write e v ++ '}' :: rest)).bind _ = _
      rw [hv, Option.bind_some]
      change some ([(String.ofList k.toList, v)], rest) = _
      rw [String.ofList_toList]
  | (k, v) :: w :: vs, n + 1, rest, _, h => by
      rw [sizeMembers] at h
      have hv := readValue_write v n (',' :: (writeMembers e (w :: vs) ++ rest)) (by omega) (ends_cons (by decide) _)
      have hvs := readMembers_write (w :: vs) n rest (List.cons_ne_nil w vs) (by omega)
      have hk := readText_writeText e k.toList (':' :: (write e v ++ ',' :: (writeMembers e (w :: vs) ++ rest)))
      have hcs : writeMembers e ((k, v) :: w :: vs) ++ rest =
          '"' :: (k.toList.flatMap (writeChar e) ++ '"' :: ':' :: (write e v ++ ',' :: (writeMembers e (w :: vs) ++ rest))) := by
        rw [writeMembers, writeText]
        simp only [List.cons_append, List.append_assoc, List.nil_append]
      rw [hcs, readMembers_quote, hk, Option.bind_some]
      change (readValue n (write e v ++ ',' :: (writeMembers e (w :: vs) ++ rest))).bind _ = _
      rw [hv, Option.bind_some]
      change (readMembers n (writeMembers e (w :: vs) ++ rest)).map _ = _
      rw [hvs, Option.map_some, String.ofList_toList]

end

/-- What a writer wrote, the reader reads, whichever letters the writer uses. -/
theorem read_write (v : Document) : read (write e v) = some v := by
  have hsize := size_le_length e v
  have hvalue := readValue_write e v ((write e v).length + 1) [] (by omega) fun c hc => by cases hc
  rw [List.append_nil] at hvalue
  rw [read, hvalue, Option.bind_some]
  rfl

/-! ### Maps -/

/-- The order of the characters, as of the bytes. -/
def before : List Char → List Char → Bool
  | _, [] => false
  | [], _ :: _ => true
  | c :: cs, d :: ds => c.toNat < d.toNat || (c = d && before cs ds)

/-- The keys stand in order; a key that is there has the new value. -/
def insertMember (k : String) (v : Document) : List (String × Document) → List (String × Document)
  | [] => [(k, v)]
  | m :: ms => if k = m.1 then (k, v) :: ms else if before k.toList m.1.toList then (k, v) :: m :: ms else m :: insertMember k v ms

theorem lookup_insertMember (k k' : String) (v : Document) (ms : List (String × Document)) :
    (insertMember k v ms).lookup k' = if k' = k then some v else ms.lookup k' := by
  induction ms with
  | nil =>
      rw [insertMember, List.lookup_cons]
      cases h : k' == k with
      | true => rw [if_pos (eq_of_beq h)]
      | false => rw [if_neg (ne_of_beq_false h)]
  | cons m ms ih =>
      rw [insertMember]
      split
      · rename_i hk
        rw [List.lookup_cons, List.lookup_cons]
        cases h : k' == k with
        | true => rw [if_pos (eq_of_beq h)]
        | false => rw [if_neg (ne_of_beq_false h), ← hk, h]
      · rename_i hk
        split
        · rw [List.lookup_cons]
          cases h : k' == k with
          | true => rw [if_pos (eq_of_beq h)]
          | false => rw [if_neg (ne_of_beq_false h)]
        · rw [List.lookup_cons, ih, List.lookup_cons]
          cases h : k' == m.1 with
          | true => exact (if_neg fun heq : k' = k => hk (heq.symm.trans (eq_of_beq h))).symm
          | false => rfl

end OpenMines.Lib.JsonText
