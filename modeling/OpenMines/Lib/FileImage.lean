import Mathlib.Data.List.Basic

namespace OpenMines.Lib.FileImage

/-- Store one byte at an offset; the gap past the old end reads as zeros. -/
def poke (f : List UInt8) (p : Nat) (b : UInt8) : List UInt8 :=
  (f ++ List.replicate (p + 1 - f.length) 0).set p b

/-- A write is the stream of its byte stores in order, so a write that was cut
short is a prefix of the stream. -/
def pokes (f : List UInt8) (ws : List (Nat × UInt8)) : List UInt8 :=
  ws.foldl (fun f w => poke f w.1 w.2) f

/-- The byte stores of a block of data written at an offset. -/
def spread : Nat → List UInt8 → List (Nat × UInt8)
  | _, [] => []
  | p, b :: bs => (p, b) :: spread (p + 1) bs

@[simp] theorem length_poke (f : List UInt8) (p : Nat) (b : UInt8) :
    (poke f p b).length = max f.length (p + 1) := by
  simp only [poke, List.length_set, List.length_append, List.length_replicate]
  omega

theorem getElem?_poke_self (f : List UInt8) (p : Nat) (b : UInt8) : (poke f p b)[p]? = some b := by
  have h : p < (f ++ List.replicate (p + 1 - f.length) 0).length := by
    simp only [List.length_append, List.length_replicate]
    omega
  rw [poke, List.getElem?_set_self h]

theorem getElem?_poke_of_ne {f : List UInt8} {p i : Nat} (b : UInt8) (hne : i ≠ p)
    (hi : i < f.length) : (poke f p b)[i]? = f[i]? := by
  rw [poke, List.getElem?_set_ne (Ne.symm hne), List.getElem?_append_left hi]

theorem getElem?_poke_gap {f : List UInt8} {p i : Nat} (b : UInt8) (hne : i ≠ p)
    (hlow : f.length ≤ i) (hi : i < p) : (poke f p b)[i]? = some 0 := by
  rw [poke, List.getElem?_set_ne (Ne.symm hne), List.getElem?_append_right hlow,
    List.getElem?_replicate, if_pos (by omega)]

@[simp] theorem pokes_nil (f : List UInt8) : pokes f [] = f := rfl

@[simp] theorem pokes_cons (f : List UInt8) (w : Nat × UInt8) (ws : List (Nat × UInt8)) :
    pokes f (w :: ws) = pokes (poke f w.1 w.2) ws := rfl

theorem pokes_append (f : List UInt8) (ws us : List (Nat × UInt8)) :
    pokes f (ws ++ us) = pokes (pokes f ws) us := List.foldl_append

@[simp] theorem length_spread (p : Nat) (bs : List UInt8) : (spread p bs).length = bs.length := by
  induction bs generalizing p with
  | nil => rfl
  | cons b bs ih => simp [spread, ih]

theorem mem_spread {p q : Nat} {b : UInt8} {bs : List UInt8} :
    (q, b) ∈ spread p bs ↔ p ≤ q ∧ bs[q - p]? = some b := by
  induction bs generalizing p with
  | nil => simp [spread]
  | cons c cs ih =>
      simp only [spread, List.mem_cons, Prod.mk.injEq, ih]
      by_cases hq : q = p
      · subst hq
        simp only [Nat.sub_self, List.getElem?_cons_zero, Option.some.injEq, Nat.le_refl, true_and]
        constructor
        · rintro (h | ⟨h, -⟩)
          · exact h.symm
          · omega
        · exact fun h => Or.inl h.symm
      · by_cases hle : p + 1 ≤ q
        · have hsub : q - p = (q - (p + 1)) + 1 := by omega
          simp [hq, hle, hsub, show p ≤ q by omega]
        · simp [hq, hle, show ¬p ≤ q by omega]

theorem length_pokes_le {f : List UInt8} {ws : List (Nat × UInt8)} {n : Nat}
    (hf : f.length ≤ n) (hws : ∀ w ∈ ws, w.1 < n) : (pokes f ws).length ≤ n := by
  induction ws generalizing f with
  | nil => exact hf
  | cons w ws ih =>
      refine ih ?_ (fun u hu => hws u (List.mem_cons_of_mem _ hu))
      have hw := hws w (by simp)
      rw [length_poke]
      omega

theorem le_length_pokes (f : List UInt8) (ws : List (Nat × UInt8)) :
    f.length ≤ (pokes f ws).length := by
  induction ws generalizing f with
  | nil => exact Nat.le_refl _
  | cons w ws ih =>
      have h := ih (poke f w.1 w.2)
      rw [length_poke] at h
      rw [pokes_cons]
      omega

theorem getElem?_pokes_of_notMem {f : List UInt8} {ws : List (Nat × UInt8)} {i : Nat}
    (hi : i < f.length) (hws : i ∉ ws.map Prod.fst) : (pokes f ws)[i]? = f[i]? := by
  induction ws generalizing f with
  | nil => rfl
  | cons w ws ih =>
      simp only [List.map_cons, List.mem_cons, not_or] at hws
      have hlen : i < (poke f w.1 w.2).length := by
        rw [length_poke]
        omega
      rw [pokes_cons, ih hlen hws.2, getElem?_poke_of_ne _ hws.1 hi]

theorem poke_eq_self {f : List UInt8} {p : Nat} {b : UInt8} (h : f[p]? = some b) : poke f p b = f := by
  obtain ⟨hlt, rfl⟩ := List.getElem?_eq_some_iff.mp h
  rw [poke, show p + 1 - f.length = 0 by omega, List.replicate_zero, List.append_nil,
    List.set_getElem_self]

/-- Storing what is there changes nothing. -/
theorem pokes_eq_self {f : List UInt8} {ws : List (Nat × UInt8)} (h : ∀ w ∈ ws, f[w.1]? = some w.2) :
    pokes f ws = f := by
  induction ws with
  | nil => rfl
  | cons w ws ih =>
      rw [pokes_cons, poke_eq_self (h w (by simp)), ih (fun u hu => h u (List.mem_cons_of_mem _ hu))]

/-- A write inside a file that was cut after `n` bytes. -/
theorem pokes_spread_take {f : List UInt8} {p : Nat} {bs : List UInt8} (h : p + bs.length ≤ f.length)
    (n : Nat) : (pokes f ((spread p bs).take n)).length = f.length ∧
      ∀ i, (pokes f ((spread p bs).take n))[i]? =
        if p ≤ i ∧ i < p + n then (bs[i - p]?).or f[i]? else f[i]? := by
  induction bs generalizing f p n with
  | nil => simp [spread]
  | cons b bs ih =>
      cases n with
      | zero => simp [show ∀ i, ¬ (p ≤ i ∧ i < p) by omega]
      | succ n =>
          rw [List.length_cons] at h
          have hlen : (poke f p b).length = f.length := by
            rw [length_poke]
            omega
          obtain ⟨hlength, hget⟩ := ih (show p + 1 + bs.length ≤ (poke f p b).length by omega) n
          simp only [spread, List.take_succ_cons, pokes_cons]
          refine ⟨hlength.trans hlen, ?_⟩
          intro i
          rw [hget]
          by_cases hi : i = p
          · subst hi
            rw [if_neg (by omega), if_pos (by omega), getElem?_poke_self]
            simp
          · have hpoke : (poke f p b)[i]? = f[i]? := by
              by_cases hlt : i < f.length
              · exact getElem?_poke_of_ne b hi hlt
              · rw [List.getElem?_eq_none (by omega), List.getElem?_eq_none (by omega)]
            rw [hpoke]
            by_cases hin : p + 1 ≤ i ∧ i < p + 1 + n
            · rw [if_pos hin, if_pos (by omega), show i - p = i - (p + 1) + 1 by omega,
                List.getElem?_cons_succ]
            · rw [if_neg hin, if_neg (by omega)]

end OpenMines.Lib.FileImage
