import Mathlib.Data.List.Basic
import Mathlib.Order.Basic

namespace OpenMines.Lib.BoundedSearch

section Walks

variable {V : Type} (next : V → List V) (goal : V → Bool)

/-- A walk of so many steps, each out of a vertex inside. -/
inductive Walk (next : V → List V) (inside : V → Prop) (start : V) : Nat → V → Prop
  | refl : Walk next inside start 0 start
  | step {n : Nat} {u v : V} (h : Walk next inside start n u) (hu : inside u) (hv : v ∈ next u) :
      Walk next inside start (n + 1) v

/-- What holds between two steps of a search; the depth of a visited vertex is its distance. -/
structure Frontier (start : V) (done queue visited : List V) (depth : V → Nat) : Prop where
  started : start ∈ visited ∧ depth start = 0
  split : ∀ v, v ∈ visited ↔ v ∈ done ∨ v ∈ queue
  walk : ∀ v ∈ visited, Walk next (· ∈ done) start (depth v) v
  closed : ∀ u ∈ done, ∀ v ∈ next u, goal v = false ∧ v ∈ visited ∧ depth v ≤ depth u + 1
  sorted : queue.Pairwise (depth · ≤ depth ·)
  near : ∀ v ∈ visited, ∀ u ∈ queue, depth v ≤ depth u + 1

variable {next goal} {start u v : V} {n k : Nat} {done queue visited : List V} {depth : V → Nat}

theorem Walk.mono {inside inside' : V → Prop} (h : ∀ u, inside u → inside' u) (hwalk : Walk next inside start n v) :
    Walk next inside' start n v := by
  induction hwalk with
  | refl => exact .refl
  | step _ hu hv ih => exact .step ih (h _ hu) hv

theorem frontier_start : Frontier next goal start [] [start] [start] fun _ => 0 where
  started := ⟨List.mem_singleton_self start, rfl⟩
  split v := by simp
  walk v hv := by
    obtain rfl := List.mem_singleton.mp hv
    exact .refl
  closed u hu := absurd hu List.not_mem_nil
  sorted := List.pairwise_singleton ..
  near v _ u _ := Nat.zero_le _

/-- A walk through what is expanded, and through the next vertex: either the depth bounds it, or that vertex was
reached before. -/
theorem Frontier.depth_le (h : Frontier next goal start done (u :: queue) visited depth)
    (hwalk : Walk next (· ∈ done ++ [u]) start k v) : v ∈ visited ∧ depth v ≤ k ∨ depth u ≤ k := by
  induction hwalk with
  | refl => exact .inl ⟨h.started.1, Nat.le_of_eq h.started.2⟩
  | @step n w v _ hw hv ih =>
      rcases ih with ⟨-, hle⟩ | hle
      · rcases List.mem_append.mp hw with hdone | hlast
        · obtain ⟨-, hvisited, hdepth⟩ := h.closed w hdone v hv
          exact .inl ⟨hvisited, Nat.le_trans hdepth (Nat.succ_le_succ hle)⟩
        · obtain rfl := List.mem_singleton.mp hlast
          exact .inr (Nat.le_succ_of_le hle)
      · exact .inr (Nat.le_succ_of_le hle)

end Walks

section Search

variable {V : Type} [DecidableEq V] (next : V → List V) (goal : V → Bool)

/-- Breadth first: the vertices of the queue are expanded in turn, so many at most. -/
def search : Nat → List V → List V → Option V
  | 0, _, _ => none
  | _ + 1, [], _ => none
  | n + 1, u :: queue, visited =>
    match (next u).find? goal with
    | some v => some v
    | none => search n (queue ++ (next u).filter (· ∉ visited)) (visited ++ next u)

/-- The vertices that the search expands. -/
def explored : Nat → List V → List V → List V
  | 0, _, _ => []
  | _ + 1, [], _ => []
  | n + 1, u :: queue, visited =>
    u :: match (next u).find? goal with
      | some _ => []
      | none => explored n (queue ++ (next u).filter (· ∉ visited)) (visited ++ next u)

variable {next goal} {start u v : V} {n : Nat} {done queue visited : List V} {depth : V → Nat}

theorem length_explored (n : Nat) (queue visited : List V) : (explored next goal n queue visited).length ≤ n := by
  induction n generalizing queue visited with
  | zero => exact Nat.le_refl 0
  | succ n ih =>
      cases queue with
      | nil => exact Nat.zero_le _
      | cons u queue =>
          rw [explored, List.length_cons]
          apply Nat.succ_le_succ
          cases (next u).find? goal with
          | some v => exact Nat.zero_le n
          | none => exact ih _ _

namespace Frontier

/-- No goal is beside the vertex: what it shows for the first time goes to the end of the queue. -/
theorem step (h : Frontier next goal start done (u :: queue) visited depth) (hnone : (next u).find? goal = none) :
    Frontier next goal start (done ++ [u]) (queue ++ (next u).filter (· ∉ visited)) (visited ++ next u)
      (fun v => if v ∈ visited then depth v else depth u + 1) where
  started := by
    obtain ⟨hmem, hzero⟩ := h.started
    exact ⟨List.mem_append_left _ hmem, by rw [if_pos hmem, hzero]⟩
  split v := by
    have hsplit := h.split v
    simp only [List.mem_append, List.mem_cons, List.mem_filter, decide_eq_true_eq, List.not_mem_nil, or_false] at hsplit ⊢
    rw [hsplit]
    tauto
  walk v hv := by
    have hgrow (w : V) (hw : w ∈ done) : w ∈ done ++ [u] := List.mem_append_left _ hw
    have hu : u ∈ visited := (h.split u).mpr (.inr List.mem_cons_self)
    by_cases hold : v ∈ visited
    · rw [if_pos hold]
      exact (h.walk v hold).mono hgrow
    · rw [if_neg hold]
      refine .step ((h.walk u hu).mono hgrow) (List.mem_append_right _ (List.mem_singleton_self u)) ?_
      exact (List.mem_append.mp hv).resolve_left hold
  closed w hw v hv := by
    have hu : u ∈ visited := (h.split u).mpr (.inr List.mem_cons_self)
    rcases List.mem_append.mp hw with hdone | hlast
    · obtain ⟨hgoal, hvisited, hdepth⟩ := h.closed w hdone v hv
      have hwvisited : w ∈ visited := (h.split w).mpr (.inl hdone)
      refine ⟨hgoal, List.mem_append_left _ hvisited, ?_⟩
      rw [if_pos hvisited, if_pos hwvisited]
      exact hdepth
    · obtain rfl := List.mem_singleton.mp hlast
      refine ⟨by simpa using List.find?_eq_none.mp hnone v hv, List.mem_append_right _ hv, ?_⟩
      rw [if_pos hu]
      split
      · rename_i hold
        exact h.near v hold w List.mem_cons_self
      · exact Nat.le_refl _
  sorted := by
    have hqueue : ∀ w ∈ queue, w ∈ visited := fun w hw => (h.split w).mpr (.inr (List.mem_cons_of_mem _ hw))
    have hfresh : ∀ w ∈ (next u).filter (· ∉ visited), w ∉ visited := fun w hw => by
      simpa using (List.mem_filter.mp hw).2
    refine List.pairwise_append.mpr ⟨?_, ?_, fun w hw v hv => ?_⟩
    · refine h.sorted.of_cons.imp_of_mem fun hw hv hle => ?_
      rw [if_pos (hqueue _ hw), if_pos (hqueue _ hv)]
      exact hle
    · refine List.pairwise_of_forall_mem_list fun w hw v hv => ?_
      exact Nat.le_of_eq (by rw [if_neg (hfresh w hw), if_neg (hfresh v hv)])
    · rw [if_pos (hqueue w hw), if_neg (hfresh v hv)]
      exact h.near w (hqueue w hw) u List.mem_cons_self
  near v hv w hw := by
    have hu : u ∈ visited := (h.split u).mpr (.inr List.mem_cons_self)
    rcases List.mem_append.mp hw with hqueue | hfresh
    · have hwvisited : w ∈ visited := (h.split w).mpr (.inr (List.mem_cons_of_mem _ hqueue))
      rw [if_pos hwvisited]
      split
      · rename_i hold
        exact h.near v hold w (List.mem_cons_of_mem _ hqueue)
      · exact Nat.succ_le_succ (List.rel_of_pairwise_cons h.sorted hqueue)
    · have hnew : w ∉ visited := by simpa using (List.mem_filter.mp hfresh).2
      rw [if_neg hnew]
      split
      · rename_i hold
        exact Nat.le_succ_of_le (h.near v hold u List.mem_cons_self)
      · exact Nat.le_succ _

theorem search_eq_some (h : Frontier next goal start done queue visited depth)
    (hfound : search next goal n queue visited = some v) :
    goal v = true ∧ ∃ k, Walk next (· ∈ done ++ explored next goal n queue visited) start (k + 1) v ∧
      ∀ m r, Walk next (· ∈ done ++ explored next goal n queue visited) start (m + 1) r → goal r = true → k ≤ m := by
  induction n generalizing done queue visited depth with
  | zero => cases hfound
  | succ n ih =>
      cases queue with
      | nil => cases hfound
      | cons u queue =>
          rw [search] at hfound
          rw [explored]
          cases hfind : (next u).find? goal with
          | some w =>
              rw [hfind] at hfound
              obtain rfl := Option.some_inj.mp hfound
              have hu : u ∈ visited := (h.split u).mpr (.inr List.mem_cons_self)
              refine ⟨List.find?_some hfind, depth u, ?_, fun m r hwalk hgoal => ?_⟩
              · refine .step ((h.walk u hu).mono fun _ hw => List.mem_append_left _ hw) ?_
                  (List.mem_of_find?_eq_some hfind)
                exact List.mem_append_right _ (List.mem_singleton_self u)
              · cases hwalk with
                | step hbefore hlast hr =>
                    rename_i w'
                    rcases List.mem_append.mp hlast with hdone | hlast
                    · rw [(h.closed w' hdone r hr).1] at hgoal
                      cases hgoal
                    · obtain rfl := List.mem_singleton.mp hlast
                      rcases h.depth_le hbefore with ⟨-, hle⟩ | hle <;> exact hle
          | none =>
              rw [hfind] at hfound
              have hnext := ih (h.step hfind) hfound
              rw [List.append_assoc, List.singleton_append] at hnext
              exact hnext

theorem search_eq_none (h : Frontier next goal start done queue visited depth)
    (hnone : search next goal n queue visited = none) {u : V}
    (hu : u ∈ done ++ explored next goal n queue visited) (hv : v ∈ next u) : goal v = false := by
  induction n generalizing done queue visited depth with
  | zero => exact (h.closed u ((List.mem_append.mp hu).resolve_right List.not_mem_nil) v hv).1
  | succ n ih =>
      cases queue with
      | nil => exact (h.closed u ((List.mem_append.mp hu).resolve_right List.not_mem_nil) v hv).1
      | cons w queue =>
          rw [search] at hnone
          rw [explored] at hu
          cases hfind : (next w).find? goal with
          | some r =>
              rw [hfind] at hnone
              cases hnone
          | none =>
              rw [hfind] at hnone hu
              refine ih (h.step hfind) hnone ?_
              rw [List.append_assoc, List.singleton_append]
              exact hu

/-- Each vertex that is expanded is reached through others. -/
theorem reached (h : Frontier next goal start done queue visited depth)
    (hu : u ∈ explored next goal n queue visited) :
    ∃ k, Walk next (· ∈ done ++ explored next goal n queue visited) start k u := by
  induction n generalizing done queue visited depth with
  | zero => exact absurd hu List.not_mem_nil
  | succ n ih =>
      cases queue with
      | nil => exact absurd hu List.not_mem_nil
      | cons w queue =>
          rw [explored] at hu ⊢
          have hw : w ∈ visited := (h.split w).mpr (.inr List.mem_cons_self)
          rcases List.mem_cons.mp hu with rfl | hu
          · exact ⟨depth u, (h.walk u hw).mono fun _ hw => List.mem_append_left _ hw⟩
          · cases hfind : (next w).find? goal with
            | some r =>
                rw [hfind] at hu
                exact absurd hu List.not_mem_nil
            | none =>
                rw [hfind] at hu
                have hnext := ih (h.step hfind) hu
                rw [List.append_assoc, List.singleton_append] at hnext
                exact hnext

end Frontier

end Search

end OpenMines.Lib.BoundedSearch
