import Mathlib.Data.List.Nodup

namespace OpenMines.Lib.NameCycle

variable {α : Type} [DecidableEq α] {order : List α} {a b : α} {i j : Nat}

/-- The entry behind the first occurrence of a name; behind the last entry comes the first. -/
def next (order : List α) (a : α) : Option α :=
  match order.findIdx? (fun b => b == a) with
  | some i => if i + 1 < order.length then order[i + 1]? else order[0]?
  | none => order.head?

/-- The names that come one after the other, from the first entry on. -/
def visits (order : List α) : Nat → Option α
  | 0 => order.head?
  | n + 1 => (visits order n).bind (next order)

/-- Entries of one name are followed by one name. -/
def RepeatsAgree (order : List α) : Prop :=
  ∀ i j, i < order.length → j < order.length → order[i]? = order[j]? →
    order[(i + 1) % order.length]? = order[(j + 1) % order.length]?

omit [DecidableEq α] in
theorem getElem?_succ_mod (hi : i < order.length) :
    (if i + 1 < order.length then order[i + 1]? else order[0]?) = order[(i + 1) % order.length]? := by
  split
  · rename_i hlt
    rw [Nat.mod_eq_of_lt hlt]
  · rename_i hge
    have hlast : i + 1 = order.length := by omega
    rw [hlast, Nat.mod_self]

theorem next_of_mem (ha : order[i]? = some a) :
    ∃ j, order[j]? = some a ∧ j < order.length ∧ next order a = order[(j + 1) % order.length]? := by
  obtain ⟨hi, ha⟩ := List.getElem?_eq_some_iff.mp ha
  have hsome : (order.findIdx? fun b => b == a).isSome := by
    rw [List.findIdx?_isSome]
    exact List.any_eq_true.mpr ⟨a, ha ▸ List.getElem_mem hi, beq_self_eq_true a⟩
  obtain ⟨j, hj⟩ := Option.isSome_iff_exists.mp hsome
  obtain ⟨hlt, hja, -⟩ := List.findIdx?_eq_some_iff_getElem.mp hj
  refine ⟨j, ?_, hlt, ?_⟩
  · rw [List.getElem?_eq_getElem hlt, eq_of_beq hja]
  · rw [next, hj]
    exact getElem?_succ_mod hlt

/-- The visits go round the entries in order just where repeated names do not part. -/
theorem visits_iff (hne : order ≠ []) :
    (∀ n, visits order n = order[n % order.length]?) ↔ RepeatsAgree order := by
  have hpos : 0 < order.length := List.length_pos_iff.mpr hne
  constructor
  · intro hvisits i j hi hj hsame
    have hstep : ∀ k, k < order.length → (order[k]?).bind (next order) = order[(k + 1) % order.length]? := by
      intro k hk
      have hnow := hvisits k
      rw [Nat.mod_eq_of_lt hk] at hnow
      rw [← hvisits (k + 1), visits, hnow]
    rw [← hstep i hi, ← hstep j hj, hsame]
  · intro hagree n
    induction n with
    | zero => rw [visits, Nat.zero_mod, List.head?_eq_getElem?]
    | succ n ih =>
        have hn := Nat.mod_lt n hpos
        have hnow : order[n % order.length]? = some order[n % order.length] := List.getElem?_eq_getElem hn
        obtain ⟨j, hj, hlt, hnext⟩ := next_of_mem hnow
        rw [visits, ih, hnow, Option.bind_some, hnext, hagree j (n % order.length) hlt hn (hj.trans hnow.symm),
          Nat.mod_add_mod]

omit [DecidableEq α] in
theorem repeatsAgree_of_nodup (h : order.Nodup) : RepeatsAgree order := by
  intro i j hi hj hsame
  rw [List.getElem?_eq_getElem hi, List.getElem?_eq_getElem hj, Option.some_inj] at hsame
  obtain rfl : i = j := (h.getElem_inj_iff).mp hsame
  rfl

end OpenMines.Lib.NameCycle
