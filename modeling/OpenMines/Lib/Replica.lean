import Mathlib.Data.List.Dedup
import Mathlib.Data.Set.Basic

namespace OpenMines.Lib.Replica

variable {K V : Type} (key : V → Option K)

/-- A message replaces everything that the replica holds under its key. -/
def replace (held : Set V) (message : K × List V) : Set V :=
  {v | v ∈ message.2 ∨ v ∈ held ∧ key v ≠ some message.1}

def receive (held : Set V) (messages : List (K × List V)) : Set V := messages.foldl (replace key) held

variable {key} {held : Set V} {messages : List (K × List V)} {v : V}

theorem receive_append (before after : List (K × List V)) :
    receive key held (before ++ after) = receive key (receive key held before) after :=
  List.foldl_append

theorem mem_receive_clears (ks : List K) :
    v ∈ receive key held (ks.map fun k => (k, [])) ↔ v ∈ held ∧ ∀ k ∈ ks, key v ≠ some k := by
  induction ks generalizing held with
  | nil => simp [receive]
  | cons k ks ih =>
      refine (@ih (replace key held (k, []))).trans ?_
      simp only [replace, Set.mem_ofPred_eq, List.not_mem_nil, false_or, List.forall_mem_cons, and_assoc]

/-- Messages with different keys do not undo one another. -/
theorem mem_receive_of_nodup (hnodup : (messages.map Prod.fst).Nodup)
    (hkey : ∀ m ∈ messages, ∀ v ∈ m.2, key v = some m.1) :
    v ∈ receive key held messages ↔
      (∃ m ∈ messages, v ∈ m.2) ∨ v ∈ held ∧ ∀ m ∈ messages, key v ≠ some m.1 := by
  induction messages generalizing held with
  | nil => simp [receive]
  | cons m messages ih =>
      obtain ⟨hfirst, hrest⟩ := List.nodup_cons.mp hnodup
      obtain ⟨hkeyFirst, hkeyRest⟩ := List.forall_mem_cons.mp hkey
      refine (@ih (replace key held m) hrest hkeyRest).trans ?_
      have hlater : v ∈ m.2 → ∀ m' ∈ messages, key v ≠ some m'.1 := by
        intro hv m' hm' hsame
        have heq : m.1 = m'.1 := Option.some_inj.mp ((hkeyFirst v hv).symm.trans hsame)
        exact hfirst (heq ▸ List.mem_map_of_mem hm')
      simp only [replace, Set.mem_ofPred_eq, List.exists_mem_cons_iff, List.forall_mem_cons]
      constructor
      · rintro (hin | ⟨hv | ⟨hheld, hne⟩, hrest⟩)
        · exact .inl (.inr hin)
        · exact .inl (.inl hv)
        · exact .inr ⟨hheld, hne, hrest⟩
      · rintro ((hv | hin) | ⟨hheld, hne, hrest⟩)
        · exact .inr ⟨.inl hv, hlater hv⟩
        · exact .inl hin
        · exact .inr ⟨.inr ⟨hheld, hne⟩, hrest⟩

section Groups

variable [DecidableEq K]

/-- The values under each key that one of them has. -/
def groups (key : V → Option K) (vs : List V) : List (K × List V) :=
  (vs.filterMap key).dedup.map fun k => (k, vs.filter fun v => key v = some k)

theorem nodup_groups (vs : List V) : ((groups key vs).map Prod.fst).Nodup := by
  have hfst : (groups key vs).map Prod.fst = (vs.filterMap key).dedup := by
    rw [groups, List.map_map]
    exact List.map_id _
  exact hfst ▸ List.nodup_dedup _

theorem mem_groups {vs : List V} {m : K × List V} :
    m ∈ groups key vs ↔ (∃ v ∈ vs, key v = some m.1) ∧ m.2 = vs.filter fun v => key v = some m.1 := by
  simp only [groups, List.mem_map, List.mem_dedup, List.mem_filterMap]
  constructor
  · rintro ⟨k, hk, rfl⟩
    exact ⟨hk, rfl⟩
  · rintro ⟨hk, hvs⟩
    exact ⟨m.1, hk, Prod.ext rfl hvs.symm⟩

end Groups

end OpenMines.Lib.Replica
