import Mathlib.Data.Finset.Basic
import Mathlib.Logic.Function.Basic

namespace OpenMines.Lib

/-- Keys that wait, each once, in the order in which they came. `reasons` is for the proofs alone: it tells what each
of them waits for. -/
structure WaitQueue (K R : Type) where
  queue : List K
  keys : Finset K
  reasons : K → List R

namespace WaitQueue

variable {K R : Type} [DecidableEq K]

def empty : WaitQueue K R := ⟨[], ∅, fun _ => []⟩

def push (w : WaitQueue K R) (key : K) (why : List R) : WaitQueue K R :=
  let reasons := Function.update w.reasons key (w.reasons key ++ why)
  if key ∈ w.keys then { w with reasons } else ⟨w.queue ++ [key], insert key w.keys, reasons⟩

def extend (w : WaitQueue K R) (keys : List K) (why : K → List R) : WaitQueue K R :=
  keys.foldl (fun w key => w.push key (why key)) w

def popFront (w : WaitQueue K R) : Option ((K × List R) × WaitQueue K R) :=
  match w.queue with
  | [] => none
  | key :: queue => some ((key, w.reasons key), ⟨queue, w.keys.erase key, Function.update w.reasons key []⟩)

/-- At most so many keys from the front. -/
def take : Nat → WaitQueue K R → List (K × List R) × WaitQueue K R
  | 0, w => ([], w)
  | n + 1, w =>
      match w.popFront with
      | some (front, rest) => (front :: (take n rest).1, (take n rest).2)
      | none => ([], w)

/-- The set is that of the queue, and a key waits just where there is a reason. -/
structure Coherent (w : WaitQueue K R) : Prop where
  nodup : w.queue.Nodup
  keys : ∀ key, key ∈ w.keys ↔ key ∈ w.queue
  reasons : ∀ key, key ∈ w.queue ↔ w.reasons key ≠ []

variable {w : WaitQueue K R} {key : K} {why : List R}

omit [DecidableEq K] in
theorem coherent_empty : (empty : WaitQueue K R).Coherent where
  nodup := List.nodup_nil
  keys _ := by simp [empty]
  reasons _ := by simp [empty]

theorem push_reasons : (w.push key why).reasons = Function.update w.reasons key (w.reasons key ++ why) := by
  rw [push]
  split <;> rfl

theorem Coherent.push (h : w.Coherent) (hwhy : why ≠ []) : (w.push key why).Coherent := by
  have hreasons : ∀ other, Function.update w.reasons key (w.reasons key ++ why) other ≠ [] ↔
      other = key ∨ w.reasons other ≠ [] := by
    intro other
    by_cases hother : other = key
    · subst hother
      rw [Function.update_self]
      exact iff_of_true (fun hnil => hwhy (List.append_eq_nil_iff.mp hnil).2) (.inl rfl)
    · rw [Function.update_of_ne hother, or_iff_right hother]
  rw [WaitQueue.push]
  split
  · rename_i hmem
    refine ⟨h.nodup, h.keys, fun other => ?_⟩
    rw [hreasons, ← h.reasons]
    exact (or_iff_right_of_imp fun heq => heq ▸ (h.keys key).mp hmem).symm
  · rename_i hmem
    have hnot : key ∉ w.queue := fun hqueue => hmem ((h.keys key).mpr hqueue)
    refine ⟨?_, fun other => ?_, fun other => ?_⟩
    · exact List.nodup_append.mpr ⟨h.nodup, List.nodup_singleton key,
        fun a ha b hb heq => hnot (List.mem_singleton.mp hb ▸ heq ▸ ha)⟩
    · rw [Finset.mem_insert, h.keys, List.mem_append, List.mem_singleton, or_comm]
    · rw [hreasons, List.mem_append, List.mem_singleton, h.reasons, or_comm]

theorem Coherent.extend {keys : List K} {why : K → List R} (h : w.Coherent) (hwhy : ∀ key ∈ keys, why key ≠ []) :
    (w.extend keys why).Coherent := by
  induction keys generalizing w with
  | nil => exact h
  | cons first rest ih =>
      exact ih (h.push (hwhy first List.mem_cons_self)) fun key hkey => hwhy key (List.mem_cons_of_mem _ hkey)

theorem extend_reasons_of_notMem {keys : List K} {why : K → List R} (hkey : key ∉ keys) :
    (w.extend keys why).reasons key = w.reasons key := by
  induction keys generalizing w with
  | nil => rfl
  | cons first rest ih =>
      obtain ⟨hne, hrest⟩ := not_or.mp (mt List.mem_cons.mpr hkey)
      refine (ih hrest).trans ?_
      rw [push_reasons, Function.update_of_ne hne]

theorem extend_reasons_of_mem {keys : List K} {why : K → List R} (hnodup : keys.Nodup) (hkey : key ∈ keys) :
    (w.extend keys why).reasons key = w.reasons key ++ why key := by
  induction keys generalizing w with
  | nil => cases hkey
  | cons first rest ih =>
      obtain ⟨hfirst, hrest⟩ := List.nodup_cons.mp hnodup
      by_cases heq : key = first
      · subst heq
        refine (extend_reasons_of_notMem hfirst).trans ?_
        rw [push_reasons, Function.update_self]
      · refine (ih hrest ((List.mem_cons.mp hkey).resolve_left heq)).trans ?_
        rw [push_reasons, Function.update_of_ne heq]

/-- All the reasons of another queue come after those that were there. -/
theorem extend_reasons {other : WaitQueue K R} (hother : other.Coherent) (key : K) :
    (w.extend other.queue other.reasons).reasons key = w.reasons key ++ other.reasons key := by
  by_cases hkey : key ∈ other.queue
  · exact extend_reasons_of_mem hother.nodup hkey
  · have hnone : other.reasons key = [] := by
      by_contra hsome
      exact hkey ((hother.reasons key).mpr hsome)
    rw [extend_reasons_of_notMem hkey, hnone, List.append_nil]

theorem Coherent.popFront {front : K × List R} {rest : WaitQueue K R} (h : w.Coherent)
    (hpop : w.popFront = some (front, rest)) :
    rest.Coherent ∧ front.1 ∈ w.queue ∧ front.2 = w.reasons front.1 ∧
      rest.reasons = Function.update w.reasons front.1 [] := by
  rw [WaitQueue.popFront] at hpop
  split at hpop
  · cases hpop
  · rename_i key queue hqueue
    obtain ⟨rfl, rfl⟩ := Prod.mk.inj (Option.some.inj hpop)
    obtain ⟨hnot, hnodup⟩ := List.nodup_cons.mp (hqueue ▸ h.nodup)
    refine ⟨⟨hnodup, fun other => ?_, fun other => ?_⟩, hqueue ▸ List.mem_cons_self, rfl, rfl⟩
    · rw [Finset.mem_erase, h.keys, hqueue, List.mem_cons]
      constructor
      · rintro ⟨hne, hmem⟩
        exact hmem.resolve_left hne
      · intro hmem
        exact ⟨fun heq => hnot (heq ▸ hmem), .inr hmem⟩
    · by_cases hother : other = key
      · subst hother
        exact iff_of_false hnot fun hne => hne (Function.update_self ..)
      · dsimp only
        rw [Function.update_of_ne hother, ← h.reasons, hqueue, List.mem_cons, or_iff_right hother]

/-- What is taken waited, with all its reasons, and waits no more; the rest is as it was. -/
structure Taken (w : WaitQueue K R) (taken : List (K × List R)) (rest : WaitQueue K R) : Prop where
  coherent : rest.Coherent
  nodup : (taken.map Prod.fst).Nodup
  waited : ∀ entry ∈ taken, entry.2 = w.reasons entry.1 ∧ entry.2 ≠ [] ∧ rest.reasons entry.1 = []
  others : ∀ key, key ∉ taken.map Prod.fst → rest.reasons key = w.reasons key

theorem Coherent.take (h : w.Coherent) (n : Nat) : w.Taken (w.take n).1 (w.take n).2 := by
  induction n generalizing w with
  | zero => exact ⟨h, List.nodup_nil, fun _ hmem => absurd hmem List.not_mem_nil, fun _ _ => rfl⟩
  | succ n ih =>
      rw [WaitQueue.take]
      split
      · rename_i front rest hpop
        obtain ⟨hrest, hfront, hwhy, hreasons⟩ := h.popFront hpop
        have htaken := ih hrest
        have hgone : rest.reasons front.1 = [] := by rw [hreasons, Function.update_self]
        have hnot : front.1 ∉ (rest.take n).1.map Prod.fst := by
          intro hmem
          obtain ⟨entry, hentry, heq⟩ := List.mem_map.mp hmem
          obtain ⟨hentryWhy, hne, -⟩ := htaken.waited entry hentry
          exact hne (hentryWhy.trans (heq ▸ hgone))
        refine ⟨htaken.coherent, List.nodup_cons.mpr ⟨hnot, htaken.nodup⟩, fun entry hentry => ?_, fun key hkey => ?_⟩
        · rcases List.mem_cons.mp hentry with rfl | hlater
          · exact ⟨hwhy, hwhy ▸ (h.reasons _).mp hfront, (htaken.others _ hnot).trans hgone⟩
          · obtain ⟨hentryWhy, hne, hlast⟩ := htaken.waited entry hlater
            have hother : entry.1 ≠ front.1 := fun heq => hnot (heq ▸ List.mem_map.mpr ⟨entry, hlater, rfl⟩)
            exact ⟨by rw [hentryWhy, hreasons, Function.update_of_ne hother], hne, hlast⟩
        · obtain ⟨hne, hlater⟩ := not_or.mp (mt List.mem_cons.mpr hkey)
          rw [htaken.others key hlater, hreasons, Function.update_of_ne hne]
      · exact ⟨h, List.nodup_nil, fun _ hmem => absurd hmem List.not_mem_nil, fun _ _ => rfl⟩

end WaitQueue

end OpenMines.Lib
