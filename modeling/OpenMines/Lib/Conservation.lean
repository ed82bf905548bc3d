import Mathlib.Algebra.BigOperators.Group.Finset.Basic
import Mathlib.Algebra.BigOperators.Group.List.Basic
import Mathlib.Data.Finset.Basic
import Mathlib.Data.Multiset.Filter
import Mathlib.Data.Multiset.MapFold
import Mathlib.Tactic.Abel

namespace OpenMines.Lib.Conservation

variable {α β : Type} (P : β → Prop) [DecidablePred P]

/-- The values of a kind that the places of a set hold, each as often as it is held. -/
def contents (s : Finset α) (f : α → β) : Multiset β := (s.val.map f).filter P

variable {P} {s : Finset α} {f f' : α → β} {a b : α}

theorem contents_congr (h : ∀ x ∈ s, f' x = f x) : contents P s f' = contents P s f := by
  rw [contents, Multiset.map_congr rfl h, contents]

variable [DecidableEq α]

/-- A sum becomes less where the values of two places do together, and no other value changes. -/
theorem sum_lt_of_pair {v v' : α → Nat} (ha : a ∈ s) (hb : b ∈ s) (hab : a ≠ b) (hlt : v' a + v' b < v a + v b)
    (hrest : ∀ x ∈ s, x ≠ a → x ≠ b → v' x = v x) : ∑ x ∈ s, v' x < ∑ x ∈ s, v x := by
  have hbs : b ∈ s.erase a := Finset.mem_erase.mpr ⟨hab.symm, hb⟩
  have hsum : ∑ x ∈ (s.erase a).erase b, v' x = ∑ x ∈ (s.erase a).erase b, v x := by
    refine Finset.sum_congr rfl fun x hx => ?_
    obtain ⟨hxb, hxs⟩ := Finset.mem_erase.mp hx
    obtain ⟨hxa, hxs⟩ := Finset.mem_erase.mp hxs
    exact hrest x hxs hxa hxb
  rw [← Finset.add_sum_erase s v' ha, ← Finset.add_sum_erase s v ha, ← Finset.add_sum_erase _ v' hbs,
    ← Finset.add_sum_erase _ v hbs, hsum]
  omega

/-- Two places may exchange a value of the kind for a value of another kind. -/
theorem contents_move (ha : a ∈ s) (hb : b ∈ s) (hab : a ≠ b) (hmoved : f' b = f a) (hfree : ¬ P (f b))
    (hleft : ¬ P (f' a)) (hrest : ∀ x ∈ s, x ≠ a → x ≠ b → f' x = f x) :
    contents P s f' = contents P s f := by
  have hbs : b ∈ s.erase a := Finset.mem_erase.mpr ⟨hab.symm, hb⟩
  have hval : s.val = a ::ₘ b ::ₘ ((s.erase a).erase b).val := by
    rw [Finset.erase_val (s.erase a), Multiset.cons_erase hbs, Finset.erase_val, Multiset.cons_erase ha]
  have hmap : ((s.erase a).erase b).val.map f' = ((s.erase a).erase b).val.map f := by
    refine Multiset.map_congr rfl fun x hx => ?_
    obtain ⟨hxb, hxs⟩ := Finset.mem_erase.mp (Finset.mem_val.mp hx)
    obtain ⟨hxa, hxs⟩ := Finset.mem_erase.mp hxs
    exact hrest x hxs hxa hxb
  rw [contents, contents, hval]
  simp only [Multiset.map_cons, hmap, hmoved]
  rw [Multiset.filter_cons_of_neg _ hleft, Multiset.cons_swap, Multiset.filter_cons_of_neg _ hfree]

section Sums

variable {ι M : Type} [AddCommGroup M]

/-- What changes at one place changes the sum by as much. -/
theorem sum_eq_of_eq_off [DecidableEq ι] {s : Finset ι} {f g : ι → M} {i : ι} (hi : i ∈ s)
    (h : ∀ j ∈ s, j ≠ i → f j = g j) : ∑ j ∈ s, f j = ∑ j ∈ s, g j + (f i - g i) := by
  have hrest : ∑ j ∈ s.erase i, f j = ∑ j ∈ s.erase i, g j :=
    Finset.sum_congr rfl fun j hj => h j (Finset.mem_of_mem_erase hj) (Finset.ne_of_mem_erase hj)
  rw [← Finset.add_sum_erase s f hi, ← Finset.add_sum_erase s g hi, hrest]
  abel

/-- An update of the one entry of a list that a test picks out. -/
theorem sum_map_ite {l : List ι} {P : ι → Bool} {o : ι} (hnodup : l.Nodup) (ho : o ∈ l) (hP : P o = true)
    (huniq : ∀ x ∈ l, P x = true → x = o) (v : ι → M) (f : ι → ι) :
    ((l.map (fun x => if P x then f x else x)).map v).sum = (l.map v).sum + (v (f o) - v o) := by
  induction l with
  | nil => cases ho
  | cons x l ih =>
      obtain ⟨hx, hnodup⟩ := List.nodup_cons.mp hnodup
      simp only [List.map_cons, List.sum_cons]
      by_cases hxP : P x = true
      · have hxo := huniq x List.mem_cons_self hxP
        subst hxo
        have hrest : l.map (fun y => if P y then f y else y) = l := by
          refine (List.map_congr_left fun y hy => ?_).trans (List.map_id l)
          refine if_neg fun hy' => hx ?_
          rwa [← huniq y (List.mem_cons_of_mem _ hy) hy']
        rw [hrest, if_pos hxP]
        abel
      · have ho : o ∈ l := by
          rcases List.mem_cons.mp ho with rfl | ho
          · exact absurd hP hxP
          · exact ho
        rw [if_neg hxP, ih hnodup ho fun y hy => huniq y (List.mem_cons_of_mem _ hy)]
        abel

end Sums

end OpenMines.Lib.Conservation
