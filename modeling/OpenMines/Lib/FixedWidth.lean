import Mathlib.Tactic.Ring

namespace OpenMines.Lib.FixedWidth

variable {α β : Type}

/-- The length of a concatenation of records of one width. -/
theorem length_flatMap (f : α → List β) (w : Nat) (hf : ∀ a, (f a).length = w) (l : List α) :
    (l.flatMap f).length = l.length * w := by
  induction l with
  | nil => simp
  | cons a l ih =>
      rw [List.flatMap_cons, List.length_append, hf, ih, List.length_cons, Nat.succ_mul, Nat.add_comm]

/-- A position in a concatenation of records is a record and an offset in it. -/
theorem getElem?_flatMap (f : α → List β) (w : Nat) (hw : 0 < w) (hf : ∀ a, (f a).length = w)
    (l : List α) (p : Nat) :
    (l.flatMap f)[p]? = (l[p / w]?).bind (fun a => (f a)[p % w]?) := by
  induction l generalizing p with
  | nil => simp
  | cons a l ih =>
      rw [List.flatMap_cons]
      by_cases hp : p < w
      · rw [List.getElem?_append_left (by rw [hf]; exact hp), Nat.div_eq_of_lt hp, Nat.mod_eq_of_lt hp]
        rfl
      · have hdiv : p / w = (p - w) / w + 1 := by
          rw [Nat.div_eq p, if_pos ⟨hw, by omega⟩]
        rw [List.getElem?_append_right (by rw [hf]; omega), hf, ih, hdiv, List.getElem?_cons_succ,
          Nat.mod_eq p, if_pos ⟨hw, by omega⟩]

/-- The first `n` records of width `w`. -/
def chunks (w : Nat) : Nat → List β → List (List β)
  | 0, _ => []
  | n + 1, bs => bs.take w :: chunks w n (bs.drop w)

/-- All complete records; a shorter tail is left out. -/
def chunksExact (w : Nat) (bs : List β) : List (List β) := chunks w (bs.length / w) bs

theorem chunks_flatMap (f : α → List β) (w : Nat) (hf : ∀ a, (f a).length = w) (l : List α)
    (tail : List β) : chunks w l.length (l.flatMap f ++ tail) = l.map f := by
  induction l with
  | nil => rfl
  | cons a l ih =>
      rw [List.length_cons, List.flatMap_cons, List.append_assoc, chunks, List.take_left' (hf a),
        List.drop_left' (hf a), ih, List.map_cons]

theorem chunksExact_flatMap (f : α → List β) (w : Nat) (hf : ∀ a, (f a).length = w) (l : List α)
    (tail : List β) (htail : tail.length < w) : chunksExact w (l.flatMap f ++ tail) = l.map f := by
  have hlen : (l.flatMap f ++ tail).length / w = l.length := by
    rw [List.length_append, length_flatMap f w hf, Nat.mul_comm, Nat.mul_add_div (by omega),
      Nat.div_eq_of_lt htail, Nat.add_zero]
  rw [chunksExact, hlen, chunks_flatMap f w hf]

end OpenMines.Lib.FixedWidth
