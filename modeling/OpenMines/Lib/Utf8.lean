import Mathlib.Data.Option.Basic
import Mathlib.Algebra.BigOperators.Fin

namespace OpenMines.Lib.Utf8

section Offsets

/-- The number of bytes of a text. -/
def byteLen (cs : List Char) : Nat := (cs.map Char.utf8Size).sum

@[simp] theorem byteLen_nil : byteLen [] = 0 := rfl

@[simp] theorem byteLen_cons (c : Char) (cs : List Char) : byteLen (c :: cs) = c.utf8Size + byteLen cs := rfl

@[simp] theorem byteLen_append (cs ds : List Char) : byteLen (cs ++ ds) = byteLen cs + byteLen ds := by
  simp [byteLen]

/-- The text from a byte offset on, where the offset is at the start of a character or at the end. -/
def dropBytes : List Char → Nat → Option (List Char)
  | cs, 0 => some cs
  | [], _ + 1 => none
  | c :: cs, n + 1 => if c.utf8Size ≤ n + 1 then dropBytes cs (n + 1 - c.utf8Size) else none

/-- The text before such an offset. -/
def takeBytes : List Char → Nat → Option (List Char)
  | _, 0 => some []
  | [], _ + 1 => none
  | c :: cs, n + 1 => if c.utf8Size ≤ n + 1 then (takeBytes cs (n + 1 - c.utf8Size)).map (c :: ·) else none

/-- The offset of the first occurrence of a character. -/
def findByte (d : Char) : List Char → Option Nat
  | [] => none
  | c :: cs => if c = d then some 0 else (findByte d cs).map (c.utf8Size + ·)

@[simp] theorem dropBytes_zero (cs : List Char) : dropBytes cs 0 = some cs := by
  cases cs <;> rfl

@[simp] theorem takeBytes_zero (cs : List Char) : takeBytes cs 0 = some [] := by
  cases cs <;> rfl

theorem byteLen_reverse (cs : List Char) : byteLen cs.reverse = byteLen cs := by
  rw [byteLen, List.map_reverse, List.sum_reverse, byteLen]

theorem byteLen_dropWhile_le (q : Char → Bool) (cs : List Char) : byteLen (cs.dropWhile q) ≤ byteLen cs := by
  induction cs with
  | nil => exact Nat.le_refl _
  | cons c cs ih =>
      rw [List.dropWhile_cons]
      split
      · exact ih.trans (Nat.le_add_left _ _)
      · exact Nat.le_refl _

theorem dropBytes_cons_add (c : Char) (cs : List Char) (n : Nat) :
    dropBytes (c :: cs) (c.utf8Size + n) = dropBytes cs n := by
  obtain ⟨k, hk⟩ := Nat.exists_eq_add_of_lt (Nat.add_pos_left c.utf8Size_pos n)
  rw [Nat.zero_add] at hk
  rw [hk, dropBytes, if_pos (by omega), show k + 1 - c.utf8Size = n by omega]

theorem takeBytes_cons_add (c : Char) (cs : List Char) (n : Nat) :
    takeBytes (c :: cs) (c.utf8Size + n) = (takeBytes cs n).map (c :: ·) := by
  obtain ⟨k, hk⟩ := Nat.exists_eq_add_of_lt (Nat.add_pos_left c.utf8Size_pos n)
  rw [Nat.zero_add] at hk
  rw [hk, takeBytes, if_pos (by omega), show k + 1 - c.utf8Size = n by omega]

theorem dropBytes_append (cs ds : List Char) (n : Nat) :
    dropBytes (cs ++ ds) (byteLen cs + n) = dropBytes ds n := by
  induction cs with
  | nil => rw [byteLen_nil, Nat.zero_add, List.nil_append]
  | cons c cs ih => rw [List.cons_append, byteLen_cons, Nat.add_assoc, dropBytes_cons_add, ih]

theorem takeBytes_append (cs ds : List Char) : takeBytes (cs ++ ds) (byteLen cs) = some cs := by
  induction cs with
  | nil => exact takeBytes_zero ds
  | cons c cs ih => rw [List.cons_append, byteLen_cons, takeBytes_cons_add, ih, Option.map_some]

theorem dropBytes_eq_some {cs ds : List Char} {n : Nat} :
    dropBytes cs n = some ds ↔ ∃ before, cs = before ++ ds ∧ n = byteLen before := by
  constructor
  · intro h
    induction cs, n using dropBytes.induct with
    | case1 cs => exact ⟨[], (Option.some_inj.mp ((dropBytes_zero cs).symm.trans h)), rfl⟩
    | case2 n => simp [dropBytes] at h
    | case3 c cs n hle ih =>
        rw [dropBytes, if_pos hle] at h
        obtain ⟨before, rfl, hn⟩ := ih h
        exact ⟨c :: before, rfl, by rw [byteLen_cons, ← hn]; omega⟩
    | case4 c cs n hle =>
        rw [dropBytes, if_neg hle] at h
        cases h
  · rintro ⟨before, rfl, rfl⟩
    exact (dropBytes_append before ds 0).trans (dropBytes_zero ds)

/-- From an offset on, past a text that stands there. -/
theorem dropBytes_add {cs ds es : List Char} {n : Nat} (h : dropBytes cs n = some (ds ++ es)) :
    dropBytes cs (n + byteLen ds) = some es := by
  obtain ⟨before, rfl, rfl⟩ := dropBytes_eq_some.mp h
  exact dropBytes_eq_some.mpr ⟨before ++ ds, by simp, by simp⟩

theorem byteLen_of_dropBytes {cs ds : List Char} {n : Nat} (h : dropBytes cs n = some ds) :
    n + byteLen ds = byteLen cs := by
  obtain ⟨before, rfl, rfl⟩ := dropBytes_eq_some.mp h
  exact (byteLen_append before ds).symm

theorem findByte_eq_some {d : Char} {cs : List Char} {n : Nat} (h : findByte d cs = some n) :
    ∃ before after, cs = before ++ d :: after ∧ n = byteLen before := by
  induction cs generalizing n with
  | nil => cases h
  | cons c cs ih =>
      rw [findByte] at h
      split at h
      · rename_i hc
        exact ⟨[], cs, by rw [hc, List.nil_append], (Option.some_inj.mp h).symm⟩
      · obtain ⟨m, hm, rfl⟩ := Option.map_eq_some_iff.mp h
        obtain ⟨before, after, rfl, rfl⟩ := ih hm
        exact ⟨c :: before, after, rfl, rfl⟩

end Offsets

section Lossy

/-- A character of which bytes are missing: its bits so far and the range of its next byte. -/
structure Pending where
  value : Nat
  missing : Nat
  low : Nat
  high : Nat

def replacement : Char := Char.ofNat 65533

def leadByte (b : UInt8) : Option Pending :=
  let n := b.toNat
  if 194 ≤ n ∧ n ≤ 223 then some ⟨n - 192, 1, 128, 191⟩
  else if n = 224 then some ⟨0, 2, 160, 191⟩
  else if n = 237 then some ⟨13, 2, 128, 159⟩
  else if 225 ≤ n ∧ n ≤ 239 then some ⟨n - 224, 2, 128, 191⟩
  else if n = 240 then some ⟨0, 3, 144, 191⟩
  else if 241 ≤ n ∧ n ≤ 243 then some ⟨n - 240, 3, 128, 191⟩
  else if n = 244 then some ⟨4, 3, 128, 143⟩
  else none

def fresh (b : UInt8) (rest : Option Pending → List Char) : List Char :=
  if b.toNat < 128 then Char.ofNat b.toNat :: rest none
  else
    match leadByte b with
    | some p => rest (some p)
    | none => replacement :: rest none

def decodeLossy : Option Pending → List UInt8 → List Char
  | none, [] => []
  | some _, [] => [replacement]
  | none, b :: bs => fresh b (fun p => decodeLossy p bs)
  | some p, b :: bs =>
      if p.low ≤ b.toNat ∧ b.toNat ≤ p.high then
        if p.missing = 1 then Char.ofNat (64 * p.value + (b.toNat - 128)) :: decodeLossy none bs
        else decodeLossy (some ⟨64 * p.value + (b.toNat - 128), p.missing - 1, 128, 191⟩) bs
      else replacement :: fresh b (fun p => decodeLossy p bs)

/-- The text of the bytes, each longest part that is not UTF-8 replaced. -/
def fromUtf8Lossy (bs : List UInt8) : List Char := decodeLossy none bs

example : fromUtf8Lossy [36, 0xD0, 0x96, 0xFF, 0xE2, 0x82, 122] = ['$', 'Ж', replacement, replacement, 'z'] := by
  decide

end Lossy

section Strict

/-- The text of the bytes, where they are UTF-8. -/
def fromUtf8 (bs : List UInt8) : Option (List Char) := bs.toByteArray.utf8Decode?.map Array.toList

def toUtf8 (cs : List Char) : List UInt8 := cs.flatMap String.utf8EncodeChar

@[simp] theorem fromUtf8_toUtf8 (cs : List Char) : fromUtf8 (toUtf8 cs) = some cs := by
  have hdecode : (toUtf8 cs).toByteArray.utf8Decode? = some cs.toArray := List.utf8Decode?_utf8Encode
  rw [fromUtf8, hdecode]
  rfl

theorem length_toUtf8 (cs : List Char) : (toUtf8 cs).length = byteLen cs := by
  induction cs with
  | nil => rfl
  | cons c cs ih =>
      rw [byteLen_cons, ← ih, ← String.length_utf8EncodeChar c]
      exact List.length_append

theorem byteLen_of_fromUtf8 {bs : List UInt8} {cs : List Char} (h : fromUtf8 bs = some cs) : byteLen cs = bs.length := by
  obtain ⟨chars, hchars, rfl⟩ := Option.map_eq_some_iff.mp h
  obtain ⟨hsome, hget⟩ := Option.eq_some_iff_get_eq.mp hchars
  have hbytes : (toUtf8 chars.toList).toByteArray = bs.toByteArray := by
    rw [← hget]
    exact ByteArray.utf8Encode_get_utf8Decode?
  have hsize := congrArg ByteArray.size hbytes
  rwa [List.size_toByteArray, List.size_toByteArray, length_toUtf8] at hsize

end Strict

end OpenMines.Lib.Utf8
