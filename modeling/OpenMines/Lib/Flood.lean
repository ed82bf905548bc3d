import Mathlib.Data.Finset.Card
import Mathlib.Data.List.Nodup
import Mathlib.Logic.Relation

namespace OpenMines.Lib

/-- A breadth-first search: the vertices that were seen, those that wait, those that were visited, and
what was learned from these. -/
structure Flood (V A : Type) where
  seen : V → Bool
  queue : List V
  comp : List V
  data : A

namespace Flood

open Relation

variable {V A : Type} [DecidableEq V] (next : V → List V) (isOpen : V → Bool) (visit : A → V → A)

def push (s : Flood V A) (v : V) : Flood V A :=
  if s.seen v || !isOpen v then s else { s with seen := Function.update s.seen v true, queue := s.queue ++ [v] }

/-- The loop, with the rounds that are left. -/
def fill : Nat → Flood V A → Flood V A
  | 0, s => s
  | n + 1, s =>
    match s.queue with
    | [] => s
    | u :: queue =>
      fill n ((next u).foldl (push isOpen) { s with queue, comp := s.comp ++ [u], data := visit s.data u })

def start (seen : V → Bool) (u : V) (data : A) : Flood V A := ⟨Function.update seen u true, [u], [], data⟩

/-- A step to an open vertex. -/
def Adj (u v : V) : Prop := v ∈ next u ∧ isOpen v = true

/-- Everything next to what was seen was seen. -/
def Closed (seen : V → Bool) : Prop := ∀ u v, seen u = true → Adj next isOpen u v → seen v = true

/-- The search from `u` at some time; `seen` is what was seen before it. -/
structure Filling (seen : V → Bool) (u : V) (s : Flood V A) : Prop where
  nodup : (s.comp ++ s.queue).Nodup
  seen_iff : ∀ v, s.seen v = true ↔ seen v = true ∨ v ∈ s.comp ++ s.queue
  fresh : ∀ v ∈ s.comp ++ s.queue, seen v = false
  reached : ∀ v ∈ s.comp ++ s.queue, isOpen v = true ∧ ReflTransGen (Adj next isOpen) u v
  closed : ∀ v ∈ s.comp, ∀ w, Adj next isOpen v w → s.seen w = true
  started : u ∈ s.comp ++ s.queue

variable {next isOpen visit} {seen : V → Bool} {s : Flood V A} {u : V}

theorem filling_start (hopen : isOpen u = true) (hfresh : seen u = false) (data : A) :
    Filling next isOpen seen u (start seen u data) where
  nodup := List.nodup_singleton u
  seen_iff v := by
    dsimp only [start]
    rw [Function.update_apply, List.nil_append, List.mem_singleton]
    split
    · rename_i h
      exact iff_of_true rfl (Or.inr h)
    · rename_i h
      exact (or_iff_left h).symm
  fresh v hv := by rw [List.mem_singleton.mp hv, hfresh]
  reached v hv := by
    rw [List.mem_singleton.mp hv]
    exact ⟨hopen, .refl⟩
  closed v hv := absurd hv List.not_mem_nil
  started := List.mem_singleton_self u

/-- What a round adds to the queue. -/
theorem foldl_push (isOpen : V → Bool) (vs : List V) (s : Flood V A) :
    (vs.foldl (push isOpen) s).comp = s.comp ∧ (vs.foldl (push isOpen) s).data = s.data ∧
      ∃ added : List V, (vs.foldl (push isOpen) s).queue = s.queue ++ added ∧ added.Nodup ∧
        (∀ v, v ∈ added ↔ v ∈ vs ∧ isOpen v = true ∧ s.seen v = false) ∧
        ∀ v, (vs.foldl (push isOpen) s).seen v = true ↔ s.seen v = true ∨ v ∈ added := by
  induction vs generalizing s with
  | nil =>
      exact ⟨rfl, rfl, [], (List.append_nil _).symm, List.nodup_nil, fun v => by simp, fun v => by simp⟩
  | cons w vs ih =>
      rw [List.foldl_cons]
      obtain ⟨hcomp, hdata, added, hqueue, hnodup, hadded, hseen⟩ := ih (push isOpen s w)
      by_cases hw : s.seen w = true ∨ isOpen w = false
      · have hpush : push isOpen s w = s := if_pos (by simpa using hw)
        rw [hpush] at hcomp hdata hqueue hadded hseen ⊢
        refine ⟨hcomp, hdata, added, hqueue, hnodup, fun v => ?_, hseen⟩
        rw [hadded, List.mem_cons]
        refine and_congr_left fun hv => (or_iff_right ?_).symm
        rintro rfl
        rcases hw with h | h
        · exact Bool.false_ne_true (hv.2.symm.trans h)
        · exact Bool.false_ne_true (h.symm.trans hv.1)
      · obtain ⟨hfresh, hopen⟩ : s.seen w = false ∧ isOpen w = true := by simpa using hw
        have hpush : push isOpen s w =
            { s with seen := Function.update s.seen w true, queue := s.queue ++ [w] } := if_neg (by simpa using hw)
        rw [hpush] at hcomp hdata hqueue hadded hseen ⊢
        dsimp only at hadded hseen
        refine ⟨hcomp, hdata, w :: added, by rw [hqueue, List.append_assoc]; rfl, ?_, fun v => ?_, fun v => ?_⟩
        · refine List.nodup_cons.mpr ⟨fun h => ?_, hnodup⟩
          have hseen := ((hadded w).mp h).2.2
          rw [Function.update_self] at hseen
          cases hseen
        · rw [List.mem_cons, List.mem_cons, hadded]
          by_cases hv : v = w
          · subst hv
            exact iff_of_true (Or.inl rfl) ⟨Or.inl rfl, hopen, hfresh⟩
          · rw [or_iff_right hv, or_iff_right hv, Function.update_of_ne hv]
        · rw [hseen, List.mem_cons]
          by_cases hv : v = w
          · subst hv
            exact iff_of_true (Or.inl (Function.update_self ..)) (Or.inr (Or.inl rfl))
          · rw [Function.update_of_ne hv, or_iff_right (a := v = w) hv]

theorem Filling.round (visit : A → V → A) {v : V} {queue : List V} (h : Filling next isOpen seen u s) (hqueue : s.queue = v :: queue) :
    Filling next isOpen seen u
      ((next v).foldl (push isOpen) { s with queue, comp := s.comp ++ [v], data := visit s.data v }) := by
  have hmoved : s.comp ++ s.queue = (s.comp ++ [v]) ++ queue := by rw [hqueue, List.append_assoc]; rfl
  obtain ⟨hcomp, -, added, hadd, hnodup, hadded, hseen⟩ := foldl_push isOpen (next v)
    { s with queue, comp := s.comp ++ [v], data := visit s.data v }
  dsimp only at hcomp hadd hadded hseen
  have hall : ((next v).foldl (push isOpen) { s with queue, comp := s.comp ++ [v], data := visit s.data v }).comp ++
      ((next v).foldl (push isOpen) { s with queue, comp := s.comp ++ [v], data := visit s.data v }).queue =
        (s.comp ++ s.queue) ++ added := by
    rw [hcomp, hadd, hmoved, List.append_assoc, List.append_assoc, List.append_assoc]
  have hv : v ∈ s.comp ++ s.queue := by rw [hqueue]; exact List.mem_append_right _ List.mem_cons_self
  have hnew : ∀ w ∈ added, w ∉ s.comp ++ s.queue := fun w hw hmem => by
    have hunseen := ((hadded w).mp hw).2.2
    rw [(h.seen_iff w).mpr (Or.inr hmem)] at hunseen
    cases hunseen
  constructor
  · rw [hall]
    exact List.nodup_append.mpr ⟨h.nodup, hnodup, fun w hw w' hw' heq => hnew w' hw' (heq ▸ hw)⟩
  · intro w
    rw [hall, hseen, h.seen_iff, List.mem_append (s := s.comp ++ s.queue), or_assoc]
  · intro w hw
    rw [hall, List.mem_append] at hw
    rcases hw with hw | hw
    · exact h.fresh w hw
    · have hunseen := ((hadded w).mp hw).2.2
      rw [Bool.eq_false_iff] at hunseen ⊢
      exact fun hold => hunseen ((h.seen_iff w).mpr (Or.inl hold))
  · intro w hw
    rw [hall, List.mem_append] at hw
    rcases hw with hw | hw
    · exact h.reached w hw
    · obtain ⟨hnext, hopen, -⟩ := (hadded w).mp hw
      exact ⟨hopen, (h.reached v hv).2.tail ⟨hnext, hopen⟩⟩
  · intro w hw x hx
    rw [hcomp, List.mem_append, List.mem_singleton] at hw
    rw [hseen]
    rcases hw with hw | rfl
    · exact Or.inl (h.closed w hw x hx)
    · cases hold : s.seen x with
      | true => exact Or.inl rfl
      | false => exact Or.inr ((hadded x).mpr ⟨hx.1, hx.2, hold⟩)
  · rw [hall]
    exact List.mem_append_left _ h.started

/-- With as many rounds as there are open vertices the search ends. -/
theorem Filling.fill {region : Finset V} (hopen : ∀ v, isOpen v = true → v ∈ region) (n : Nat)
    (h : Filling next isOpen seen u s) (hn : region.card ≤ n + s.comp.length) :
    Filling next isOpen seen u (Flood.fill next isOpen visit n s) ∧
      (Flood.fill next isOpen visit n s).queue = [] := by
  have hcard : (s.comp ++ s.queue).length ≤ region.card := by
    rw [← List.toFinset_card_of_nodup h.nodup]
    exact Finset.card_le_card fun v hv => hopen v (h.reached v (List.mem_toFinset.mp hv)).1
  induction n generalizing s with
  | zero =>
      rw [List.length_append] at hcard
      have hqueue : s.queue.length = 0 := by omega
      exact ⟨h, List.length_eq_zero_iff.mp hqueue⟩
  | succ n ih =>
      rw [Flood.fill]
      split
      · rename_i hqueue
        exact ⟨h, hqueue⟩
      · rename_i v queue hqueue
        have hround := h.round visit hqueue
        refine ih hround ?_ ?_
        · rw [(foldl_push isOpen (next v) _).1, List.length_append, List.length_singleton]
          omega
        · rw [← List.toFinset_card_of_nodup hround.nodup]
          exact Finset.card_le_card fun w hw => hopen w (hround.reached w (List.mem_toFinset.mp hw)).1

omit [DecidableEq V] in
/-- Where steps can be taken back, the search finds what can be reached, and nothing that was seen before. -/
theorem Filling.mem_comp (h : Filling next isOpen seen u s) (hdone : s.queue = [])
    (hsymm : ∀ v w, w ∈ next v → v ∈ next w) (hclosed : Closed next isOpen seen) (v : V) :
    v ∈ s.comp ↔ ReflTransGen (Adj next isOpen) u v := by
  have hall : s.comp ++ s.queue = s.comp := by rw [hdone, List.append_nil]
  constructor
  · exact fun hv => (h.reached v (by rw [hall]; exact hv)).2
  · intro hreach
    induction hreach with
    | refl => exact hall ▸ h.started
    | tail hreach hadj ih =>
        rename_i w x
        have hx := (h.seen_iff x).mp (h.closed w ih x hadj)
        rw [hall] at hx
        refine hx.resolve_left fun hold => ?_
        have hw : w ∈ s.comp ++ s.queue := by rw [hall]; exact ih
        have hseen := hclosed x w hold ⟨hsymm w x hadj.1, (h.reached w hw).1⟩
        rw [h.fresh w hw] at hseen
        cases hseen

omit [DecidableEq V] in
theorem reachable_symm {v : V} (hsymm : ∀ v w, w ∈ next v → v ∈ next w) (hopen : isOpen u = true)
    (h : ReflTransGen (Adj next isOpen) u v) : isOpen v = true ∧ ReflTransGen (Adj next isOpen) v u := by
  induction h with
  | refl => exact ⟨hopen, .refl⟩
  | tail _ hadj ih => exact ⟨hadj.2, .head ⟨hsymm _ _ hadj.1, ih.1⟩ ih.2⟩

omit [DecidableEq V] in
/-- What was seen is closed again. -/
theorem Filling.closed_seen (h : Filling next isOpen seen u s) (hdone : s.queue = [])
    (hclosed : Closed next isOpen seen) : Closed next isOpen s.seen := by
  intro v w hv hadj
  rcases (h.seen_iff v).mp hv with hold | hnew
  · exact (h.seen_iff w).mpr (Or.inl (hclosed v w hold hadj))
  · rw [hdone, List.append_nil] at hnew
    exact h.closed v hnew w hadj

/-- The visited vertices are those from before, and more. -/
theorem comp_prefix_fill (n : Nat) (s : Flood V A) : s.comp <+: (fill next isOpen visit n s).comp := by
  induction n generalizing s with
  | zero => exact List.prefix_rfl
  | succ n ih =>
      rw [fill]
      split
      · exact List.prefix_rfl
      · rename_i u queue hqueue
        have h := ih ((next u).foldl (push isOpen) { s with queue, comp := s.comp ++ [u], data := visit s.data u })
        rw [(foldl_push isOpen (next u) _).1] at h
        exact (List.prefix_append _ _).trans h

/-- What was learned is learned from the visited vertices in their order. -/
theorem data_fill {a : A} (n : Nat) (s : Flood V A) (h : s.data = s.comp.foldl visit a) :
    (fill next isOpen visit n s).data = (fill next isOpen visit n s).comp.foldl visit a := by
  induction n generalizing s with
  | zero => exact h
  | succ n ih =>
      rw [fill]
      split
      · exact h
      · rename_i u queue hqueue
        obtain ⟨hcomp, hdata, -⟩ := foldl_push isOpen (next u)
          { s with queue, comp := s.comp ++ [u], data := visit s.data u }
        refine ih _ ?_
        rw [hcomp, hdata, List.foldl_append, ← h]
        rfl

section Congr

variable {isOpen' : V → Bool}

theorem foldl_push_congr (vs : List V) (s : Flood V A) (h : ∀ v, s.seen v = false → isOpen v = isOpen' v) :
    vs.foldl (push isOpen) s = vs.foldl (push isOpen') s := by
  induction vs generalizing s with
  | nil => rfl
  | cons w vs ih =>
      have hpush : push isOpen s w = push isOpen' s w := by
        rw [push, push]
        cases hw : s.seen w with
        | true => rfl
        | false => rw [h w hw]
      rw [List.foldl_cons, List.foldl_cons, ← hpush]
      refine ih _ fun v hv => h v ?_
      rw [push] at hv
      split at hv
      · exact hv
      · dsimp only at hv
        rw [Function.update_apply] at hv
        split at hv
        · cases hv
        · exact hv

/-- The search looks only at vertices that were not seen. -/
theorem fill_congr (n : Nat) (s : Flood V A) (h : ∀ v, s.seen v = false → isOpen v = isOpen' v) :
    fill next isOpen visit n s = fill next isOpen' visit n s := by
  induction n generalizing s with
  | zero => rfl
  | succ n ih =>
      rw [fill, fill]
      split
      · rfl
      · rename_i u queue hqueue
        have hround := foldl_push_congr (next u) { s with queue, comp := s.comp ++ [u], data := visit s.data u } h
        rw [← hround]
        refine ih _ fun v hv => h v ?_
        obtain ⟨-, -, added, -, -, -, hseen⟩ := foldl_push isOpen (next u)
          { s with queue, comp := s.comp ++ [u], data := visit s.data u }
        rw [Bool.eq_false_iff] at hv ⊢
        exact fun hold => hv ((hseen v).mpr (Or.inl hold))

end Congr

end Flood

end OpenMines.Lib
