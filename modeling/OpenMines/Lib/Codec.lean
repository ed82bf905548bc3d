import Mathlib.Data.List.Flatten
import OpenMines.Lib.LittleEndian

namespace OpenMines.Lib

open LittleEndian

/-- A layout of the values of a type in bytes, whose reader needs nothing of what follows them. -/
structure Codec (α : Type) where
  accepts : α → Prop
  put : α → List UInt8
  get : List UInt8 → Option (α × List UInt8)
  get_put : ∀ a rest, accepts a → get (put a ++ rest) = some (a, rest)

namespace Codec

variable {α β : Type}

def u8 : Codec UInt8 where
  accepts _ := True
  put b := [b]
  get
    | [] => none
    | b :: bs => some (b, bs)
  get_put _ _ _ := rfl

/-- Values that all take `w` bytes. -/
def fixed (w : Nat) (write : α → List UInt8) (read : List UInt8 → α) (hlength : ∀ a, (write a).length = w)
    (hread : ∀ a, read (write a) = a) : Codec α where
  accepts _ := True
  put := write
  get bs := if bs.length < w then none else some (read (bs.take w), bs.drop w)
  get_put a rest _ := by
    have hlong : ¬ (write a ++ rest).length < w := by
      rw [List.length_append, hlength]
      exact Nat.not_lt.mpr (Nat.le_add_right _ _)
    rw [if_neg hlong, List.take_left' (hlength a), List.drop_left' (hlength a), hread]

def u16 : Codec UInt16 := fixed 2 u16ToBytes u16OfBytes length_u16ToBytes u16OfBytes_u16ToBytes

def i32 : Codec Int32 := fixed 4 i32ToBytes i32OfBytes length_i32ToBytes i32OfBytes_i32ToBytes

/-- One value after the other, the layout of the second chosen by the first. -/
def seq (c : Codec α) (f : α → Codec β) : Codec (α × β) where
  accepts a := c.accepts a.1 ∧ (f a.1).accepts a.2
  put a := c.put a.1 ++ (f a.1).put a.2
  get bs := (c.get bs).bind fun r => ((f r.1).get r.2).map fun q => ((r.1, q.1), q.2)
  get_put a rest h := by
    rw [List.append_assoc, c.get_put _ _ h.1, Option.bind_some, (f a.1).get_put _ _ h.2, Option.map_some]

def getTimes (get : List UInt8 → Option (α × List UInt8)) : Nat → List UInt8 → Option (List α × List UInt8)
  | 0, bs => some ([], bs)
  | n + 1, bs => (get bs).bind fun r => (getTimes get n r.2).map fun q => (r.1 :: q.1, q.2)

theorem getTimes_flatMap (c : Codec α) {as : List α} (has : ∀ a ∈ as, c.accepts a) (rest : List UInt8) :
    getTimes c.get as.length (as.flatMap c.put ++ rest) = some (as, rest) := by
  induction as with
  | nil => rfl
  | cons a as ih =>
      rw [List.flatMap_cons, List.append_assoc, List.length_cons, getTimes, c.get_put _ _ (has a List.mem_cons_self),
        Option.bind_some, ih fun b hb => has b (List.mem_cons_of_mem _ hb), Option.map_some]

/-- So many values. -/
def times (c : Codec α) (n : Nat) : Codec (List α) where
  accepts as := as.length = n ∧ ∀ a ∈ as, c.accepts a
  put as := as.flatMap c.put
  get := getTimes c.get n
  get_put _ rest h := h.1 ▸ getTimes_flatMap c h.2 rest

/-- The values of a type in the layout of another one. -/
def via (c : Codec α) (view : β → α) (build : α → Option β) (hbuild : ∀ b, build (view b) = some b) : Codec β where
  accepts b := c.accepts (view b)
  put b := c.put (view b)
  get bs := (c.get bs).bind fun r => (build r.1).map fun b => (b, r.2)
  get_put b rest h := by
    rw [c.get_put _ _ h, Option.bind_some, hbuild, Option.map_some]

/-- Read values until there are no more bytes; each is to take one byte at least. -/
def getAll (c : Codec α) : Nat → List UInt8 → Option (List α)
  | _, [] => some []
  | 0, _ :: _ => none
  | n + 1, b :: bs => (c.get (b :: bs)).bind fun r => (c.getAll n r.2).map (r.1 :: ·)

variable {c : Codec α}

theorem getAll_flatMap (hput : ∀ a, c.accepts a → c.put a ≠ []) {as : List α} (has : ∀ a ∈ as, c.accepts a) {n : Nat}
    (hn : (as.flatMap c.put).length ≤ n) : c.getAll n (as.flatMap c.put) = some as := by
  induction as generalizing n with
  | nil => cases n <;> rfl
  | cons a as ih =>
      have ha := has a List.mem_cons_self
      obtain ⟨b, bs, hbytes⟩ := List.exists_cons_of_ne_nil (hput a ha)
      have hget := c.get_put a (as.flatMap c.put) ha
      rw [List.flatMap_cons, hbytes, List.cons_append] at hn ⊢
      rw [hbytes, List.cons_append] at hget
      obtain ⟨n, rfl⟩ := Nat.exists_eq_succ_of_ne_zero (Nat.ne_of_gt (Nat.lt_of_lt_of_le (Nat.succ_pos _) hn))
      have hless : (as.flatMap c.put).length ≤ n := by
        rw [List.length_cons, List.length_append] at hn
        omega
      rw [getAll, hget, Option.bind_some, ih (fun b hb => has b (List.mem_cons_of_mem _ hb)) hless, Option.map_some]

end Codec

end OpenMines.Lib
