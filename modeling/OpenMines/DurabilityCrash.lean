import OpenMines.DurabilityLayer
import OpenMines.Lib.Marks

namespace OpenMines.Layer

open Lib.Marks

/-- Every mark of the mask is listed. -/
def Marked (l : Layer) : Prop := ∀ c, l.dirtyMask[c]? = some true → c ∈ l.dirtyIndices

/-- The file of a mapped layer trails the map by the dirty chunks, and only where a
cell was `touched`. -/
structure Safe (touched : Nat → Prop) (l : Layer) (file : List UInt32) : Prop where
  length : file.length = l.mmap.length
  same : ∀ i, ¬ touched i → file[i]? = l.mmap[i]?
  dirty : ∀ i, file[i]? ≠ l.mmap[i]? → i / chunkCells ∈ l.dirtyIndices
  marked : l.Marked

variable {touched : Nat → Prop} {l : Layer} {file : List UInt32}

theorem Safe.mono {touched' : Nat → Prop} (h : Safe touched l file) (hle : ∀ i, touched i → touched' i) :
    Safe touched' l file :=
  { h with same := fun i hi => h.same i (fun ht => hi (hle i ht)) }

theorem length_dirtyMask_markDirty (l : Layer) (x y : UInt32) :
    (l.markDirty x y).dirtyMask.length = l.dirtyMask.length := by
  unfold markDirty
  simp only
  split
  · rw [List.length_set]
  · rfl

theorem dirtyIndices_markDirty (l : Layer) (x y : UInt32) {c : Nat} (h : c ∈ l.dirtyIndices) :
    c ∈ (l.markDirty x y).dirtyIndices := by
  unfold markDirty
  simp only
  split
  · exact List.mem_append_left _ h
  · exact h

theorem chunkIdx_mem_markDirty {l : Layer} {x y : UInt32}
    (hmarked : l.Marked) (hidx : l.chunkIdx x y < l.dirtyMask.length) :
    l.chunkIdx x y ∈ (l.markDirty x y).dirtyIndices := by
  unfold markDirty
  simp only
  split
  · simp
  · rename_i hflag
    rw [List.getElem?_eq_getElem hidx] at hflag
    refine hmarked _ ?_
    rw [List.getElem?_eq_getElem hidx]
    simpa using hflag

theorem marked_markDirty {l : Layer} (x y : UInt32) (hmarked : l.Marked) : (l.markDirty x y).Marked := by
  intro c hc
  unfold markDirty at hc ⊢
  simp only at hc ⊢
  split at hc
  · rename_i hflag
    rw [if_pos hflag]
    by_cases hne : c = l.chunkIdx x y
    · simp [hne]
    · rw [List.getElem?_set_ne (Ne.symm hne)] at hc
      exact List.mem_append_left _ (hmarked c hc)
  · rename_i hflag
    rw [if_neg hflag]
    exact hmarked c hc

/-- A cell is set in the map. -/
theorem Safe.write (h : Safe touched l file) {x y : UInt32} (d : UInt32)
    (hidx : l.chunkIdx x y < l.dirtyMask.length) (htouched : touched (l.cellOffset x y)) :
    Safe touched (l.write x y d) file where
  length := by rw [length_write, h.length]
  same := by
    intro i hi
    have hne : i ≠ l.cellOffset x y := by
      rintro rfl
      exact hi htouched
    rw [Layer.write, markDirty_mmap, List.getElem?_set_ne (Ne.symm hne), h.same i hi]
  dirty := by
    intro i hi
    by_cases hne : i = l.cellOffset x y
    · rw [hne, cellOffset_div]
      exact chunkIdx_mem_markDirty (l := { l with mmap := _ }) h.marked hidx
    · rw [Layer.write, markDirty_mmap, List.getElem?_set_ne (Ne.symm hne)] at hi
      exact dirtyIndices_markDirty _ x y (h.dirty i hi)
  marked := marked_markDirty (l := { l with mmap := _ }) x y h.marked

theorem Safe.getElem?_set (h : Safe touched l file) (i j : Nat) :
    (file.set i (l.word i))[j]? = if i = j then l.mmap[j]? else file[j]? := by
  by_cases hij : i = j
  · subst hij
    rw [if_pos rfl]
    by_cases hlt : i < l.mmap.length
    · rw [List.getElem?_set_self (by rw [h.length]; exact hlt), List.getElem?_eq_getElem hlt, word,
        List.getD_eq_getElem?_getD, List.getElem?_eq_getElem hlt, Option.getD_some]
    · rw [List.getElem?_eq_none (by rw [List.length_set, h.length]; omega),
        List.getElem?_eq_none (by omega)]
  · rw [if_neg hij, List.getElem?_set_ne hij]

/-- The system writes a mapped word back on its own. -/
theorem Safe.writeback (h : Safe touched l file) (i : Nat) :
    Safe touched l (file.set i (l.word i)) where
  length := by rw [List.length_set, h.length]
  same := by
    intro j hj
    rw [h.getElem?_set, h.same j hj, ite_self]
  dirty := by
    intro j hj
    rw [h.getElem?_set] at hj
    split at hj
    · exact absurd rfl hj
    · exact h.dirty j hj
  marked := h.marked

theorem Safe.flushRanges_eq (h : Safe touched l file) : l.flushRanges file = l.mmap := by
  apply List.ext_getElem?
  intro i
  rw [getElem?_flushRanges l h.length]
  split
  · rfl
  · rename_i hclean
    by_contra hne
    exact hclean (h.dirty i hne)

@[simp] theorem msyncDirtyAndClear_mmap (l : Layer) : l.msyncDirtyAndClear.1.mmap = l.mmap := by
  unfold msyncDirtyAndClear
  split <;> rfl

@[simp] theorem msyncDirtyAndClear_chunksH (l : Layer) :
    l.msyncDirtyAndClear.1.chunksH = l.chunksH := by
  unfold msyncDirtyAndClear
  split <;> rfl

theorem length_dirtyMask_msync (l : Layer) :
    l.msyncDirtyAndClear.1.dirtyMask.length = l.dirtyMask.length := by
  unfold msyncDirtyAndClear
  split
  · rfl
  · exact length_foldl_clear _ _

theorem marked_msync (h : l.Marked) : l.msyncDirtyAndClear.1.Marked := by
  intro c hc
  unfold msyncDirtyAndClear at hc ⊢
  split
  · rename_i hnil
    rw [if_pos hnil] at hc
    exact h c hc
  · rename_i hne
    rw [if_neg hne, getElem?_foldl_clear] at hc
    split at hc
    · cases hc
    · rename_i hfree
      have hlt := (List.getElem?_eq_some_iff.mp hc).1
      exact absurd ⟨h c hc, hlt⟩ hfree

theorem safe_of_eq (hfile : file = l.mmap) (hmarked : l.Marked) : Safe touched l file where
  length := by rw [hfile]
  same := fun i _ => by rw [hfile]
  dirty := fun i hi => absurd (by rw [hfile]) hi
  marked := hmarked

/-- Once the dirty chunks are synced the file is the map. -/
theorem Safe.msync (h : Safe touched l file) (touched' : Nat → Prop) :
    Safe touched' l.msyncDirtyAndClear.1 (l.flushRanges file) :=
  safe_of_eq (by rw [h.flushRanges_eq, msyncDirtyAndClear_mmap]) (marked_msync h.marked)

/-- A file of the size of the world is mapped as it is. -/
theorem open_mmap {chunksW chunksH : UInt32}
    (h : chunksW.toNat * chunksH.toNat * chunkCells ≤ file.length) :
    (Layer.open file chunksW chunksH).mmap = file := by
  rw [Layer.open, Nat.sub_eq_zero_of_le h]
  exact List.append_nil _

theorem marked_open (file : List UInt32) (chunksW chunksH : UInt32) :
    (Layer.open file chunksW chunksH).Marked := by
  intro c hc
  have hmem := List.mem_of_getElem? hc
  rw [Layer.open, List.mem_replicate] at hmem
  exact absurd hmem.2 (by decide)

theorem open_safe {chunksW chunksH : UInt32}
    (h : chunksW.toNat * chunksH.toNat * chunkCells ≤ file.length) (touched : Nat → Prop) :
    Safe touched (Layer.open file chunksW chunksH) file :=
  safe_of_eq (open_mmap h).symm (marked_open file chunksW chunksH)

end OpenMines.Layer
