import Mathlib.Data.List.Pairwise
import Mathlib.Data.List.Nodup
import Mathlib.Data.List.TakeDrop

namespace OpenMines.Lib.DelayQueue

/-- Work for an instant, with the number that it got when it was admitted. -/
structure Entry (A : Type) where
  dueAt : Nat
  sequence : Nat
  action : A
  deriving DecidableEq

variable {A : Type} {a b c : Entry A} {as bs : List (Entry A)}

/-- Earlier work first, and of the same instant what was admitted first. -/
def Before (a b : Entry A) : Prop := a.dueAt < b.dueAt ∨ a.dueAt = b.dueAt ∧ a.sequence < b.sequence

instance : DecidableRel (Before (A := A)) := fun a b =>
  inferInstanceAs (Decidable (a.dueAt < b.dueAt ∨ a.dueAt = b.dueAt ∧ a.sequence < b.sequence))

theorem Before.trans (hab : Before a b) (hbc : Before b c) : Before a c := by
  rw [Before] at *
  omega

theorem Before.irrefl (a : Entry A) : ¬ Before a a := by
  rw [Before]
  omega

theorem Before.dueAt_le (h : Before a b) : a.dueAt ≤ b.dueAt := by
  rw [Before] at h
  omega

theorem before_of_not (hab : ¬ Before a b) (hne : a.sequence ≠ b.sequence) : Before b a := by
  rw [Before] at *
  omega

/-- The entries of an ordered map; an entry takes the place of the one with its key. -/
def insert (a : Entry A) : List (Entry A) → List (Entry A)
  | [] => [a]
  | b :: bs => if Before b a then b :: insert a bs else if Before a b then a :: b :: bs else a :: bs

/-- No entry has the number. -/
def Fresh (sequence : Nat) (as : List (Entry A)) : Prop := ∀ a ∈ as, a.sequence ≠ sequence

theorem perm_insert (h : Fresh a.sequence bs) : (insert a bs).Perm (a :: bs) := by
  induction bs with
  | nil => exact List.Perm.refl _
  | cons b bs ih =>
      have hrest : Fresh a.sequence bs := fun c hc => h c (List.mem_cons_of_mem _ hc)
      rw [insert]
      split
      · exact ((ih hrest).cons b).trans (List.Perm.swap a b bs)
      · rename_i hba
        rw [if_pos (before_of_not hba (h b List.mem_cons_self))]

theorem pairwise_insert (h : Fresh a.sequence bs) (hsorted : bs.Pairwise Before) : (insert a bs).Pairwise Before := by
  induction bs with
  | nil => exact List.pairwise_singleton _ _
  | cons b bs ih =>
      have hrest : Fresh a.sequence bs := fun c hc => h c (List.mem_cons_of_mem _ hc)
      obtain ⟨hfirst, htail⟩ := List.pairwise_cons.mp hsorted
      rw [insert]
      split
      · rename_i hba
        refine List.pairwise_cons.mpr ⟨fun c hc => ?_, ih hrest htail⟩
        cases List.mem_cons.mp ((perm_insert hrest).mem_iff.mp hc) with
        | inl heq => exact heq ▸ hba
        | inr hmem => exact hfirst c hmem
      · rename_i hba
        have hab := before_of_not hba (h b List.mem_cons_self)
        rw [if_pos hab]
        refine List.pairwise_cons.mpr ⟨fun c hc => ?_, hsorted⟩
        cases List.mem_cons.mp hc with
        | inl heq => exact heq ▸ hab
        | inr hmem => exact hab.trans (hfirst c hmem)

/-- The first entry, when it is due. -/
def popDue (now : Nat) : List (Entry A) → Option (Entry A × List (Entry A))
  | [] => none
  | a :: as => if now < a.dueAt then none else some (a, as)

theorem popDue_eq_some {now : Nat} : popDue now as = some (a, bs) ↔ as = a :: bs ∧ a.dueAt ≤ now := by
  cases as with
  | nil => exact iff_of_false (Option.some_ne_none _).symm fun h => List.cons_ne_nil _ _ h.1.symm
  | cons c cs =>
      rw [popDue]
      split
      · rename_i hlt
        refine iff_of_false (Option.some_ne_none _).symm fun ⟨heq, hle⟩ => ?_
        obtain ⟨rfl, rfl⟩ := List.cons.inj heq
        omega
      · rename_i hlt
        constructor
        · intro h
          obtain ⟨rfl, rfl⟩ := Prod.mk.inj (Option.some.inj h)
          exact ⟨rfl, Nat.not_lt.mp hlt⟩
        · rintro ⟨heq, -⟩
          obtain ⟨rfl, rfl⟩ := List.cons.inj heq
          rfl

/-- An entry that is due is not left while there is none that is. -/
theorem isSome_popDue {now : Nat} (hsorted : as.Pairwise Before) (ha : a ∈ as) (hdue : a.dueAt ≤ now) :
    (popDue now as).isSome := by
  cases as with
  | nil => exact absurd ha List.not_mem_nil
  | cons c cs =>
      have hle : c.dueAt ≤ a.dueAt := by
        cases List.mem_cons.mp ha with
        | inl heq => exact heq ▸ Nat.le_refl _
        | inr hmem => exact (List.rel_of_pairwise_cons hsorted hmem).dueAt_le
      rw [popDue, if_neg (by omega)]
      rfl

/-- How many entries stand before one. -/
def ahead (a : Entry A) (as : List (Entry A)) : Nat := as.countP fun b => decide (Before b a)

theorem ahead_lt_length (ha : a ∈ as) : ahead a as < as.length := by
  refine Nat.lt_of_le_of_ne List.countP_le_length fun heq => ?_
  exact Before.irrefl a (of_decide_eq_true (List.countP_eq_length.mp heq a ha))

theorem ahead_perm (h : as.Perm bs) : ahead a as = ahead a bs := h.countP_eq _

theorem ahead_append : ahead a (as ++ bs) = ahead a as + ahead a bs := List.countP_append

theorem ahead_pos (h : ∃ b ∈ as, Before b a) : 0 < ahead a as := by
  obtain ⟨b, hb, hbefore⟩ := h
  exact List.countP_pos_iff.mpr ⟨b, hb, decide_eq_true hbefore⟩

theorem ahead_cons_of_not_before (h : ¬ Before b a) : ahead a (b :: as) = ahead a as :=
  List.countP_cons_of_neg (by rwa [decide_eq_true_eq])

end OpenMines.Lib.DelayQueue
