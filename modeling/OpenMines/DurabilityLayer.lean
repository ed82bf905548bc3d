import Mathlib.Data.List.Sort
import Mathlib.Tactic.Ring

namespace OpenMines

def chunkSize : UInt32 := 32

def chunkCells : Nat := 1024

/-- A memory-mapped layer of one `f32` for each cell, given by its bits, chunk
after chunk. -/
structure Layer where
  mmap : List UInt32
  chunksH : UInt32
  dirtyMask : List Bool
  /-- the dirty chunks only, each once -/
  dirtyIndices : List Nat
  deriving DecidableEq

structure LayerFlushStats where
  dirtyChunks : Nat
  ranges : Nat
  bytes : Nat
  deriving DecidableEq

namespace Layer

/-- Map a file, grown with zeros to the size of the world. -/
def «open» (file : List UInt32) (chunksW chunksH : UInt32) : Layer :=
  let totalCells := chunksW.toNat * chunksH.toNat * chunkCells
  { mmap := file ++ List.replicate (totalCells - file.length) 0
    chunksH
    dirtyMask := List.replicate (chunksW * chunksH).toNat false
    dirtyIndices := [] }

def chunkIdx (l : Layer) (x y : UInt32) : Nat := (y / chunkSize + l.chunksH * (x / chunkSize)).toNat

/-- The offset of a cell, counted in `f32`s. -/
def cellOffset (l : Layer) (x y : UInt32) : Nat :=
  l.chunkIdx x y * chunkCells + (y % chunkSize + chunkSize * (x % chunkSize)).toNat

def markDirty (l : Layer) (x y : UInt32) : Layer :=
  let idx := l.chunkIdx x y
  if l.dirtyMask[idx]? = some false then
    { l with dirtyMask := l.dirtyMask.set idx true, dirtyIndices := l.dirtyIndices ++ [idx] }
  else l

def markAllDirty (l : Layer) : Layer :=
  { l with
    dirtyMask := List.replicate l.dirtyMask.length true
    dirtyIndices := List.range l.dirtyMask.length }

/-- The word of a cell; `0` past the end of the map. -/
def word (l : Layer) (i : Nat) : UInt32 := l.mmap.getD i 0

def write (l : Layer) (x y : UInt32) (d : UInt32) : Layer :=
  markDirty { l with mmap := l.mmap.set (l.cellOffset x y) d } x y

/-- The loop that joins neighbouring chunks, from an open range on. -/
def rangesFrom (start stop : Nat) : List Nat → List (Nat × Nat)
  | [] => [(start, stop)]
  | idx :: rest =>
    if idx = stop then rangesFrom start (stop + 1) rest
    else (start, stop) :: rangesFrom idx (idx + 1) rest

def dirtyRanges (l : Layer) : List (Nat × Nat) :=
  match l.dirtyIndices.mergeSort (· ≤ ·) with
  | [] => []
  | idx :: rest => rangesFrom idx (idx + 1) rest

/-- `msync` of the dirty chunk ranges: the mapped words reach the file. -/
def flushRanges (l : Layer) (file : List UInt32) : List UInt32 :=
  l.dirtyRanges.foldl (fun file r => file.mapIdx (fun i v =>
    if r.1 * chunkCells ≤ i ∧ i < r.2 * chunkCells then l.mmap.getD i v else v)) file

def msyncDirtyAndClear (l : Layer) : Layer × LayerFlushStats :=
  if l.dirtyIndices = [] then (l, ⟨0, 0, 0⟩)
  else
    ({ l with
       dirtyMask := l.dirtyIndices.foldl (fun mask idx => mask.set idx false) l.dirtyMask
       dirtyIndices := [] },
     { dirtyChunks := l.dirtyIndices.length
       ranges := l.dirtyRanges.length
       bytes := l.dirtyIndices.length * (chunkCells * 4) })

@[simp] theorem markDirty_mmap (l : Layer) (x y : UInt32) : (l.markDirty x y).mmap = l.mmap := by
  unfold markDirty
  simp only
  split <;> rfl

@[simp] theorem markDirty_chunksH (l : Layer) (x y : UInt32) :
    (l.markDirty x y).chunksH = l.chunksH := by
  unfold markDirty
  simp only
  split <;> rfl

@[simp] theorem write_chunksH (l : Layer) (x y d : UInt32) : (l.write x y d).chunksH = l.chunksH := by
  simp [write]

@[simp] theorem length_write (l : Layer) (x y d : UInt32) :
    (l.write x y d).mmap.length = l.mmap.length := by simp [write]

theorem inChunk_lt (x y : UInt32) : (y % chunkSize + chunkSize * (x % chunkSize)).toNat < chunkCells := by
  have hchunk : chunkSize.toNat = 32 := rfl
  simp only [UInt32.toNat_add, UInt32.toNat_mul, UInt32.toNat_mod, hchunk, chunkCells]
  omega

/-- The word of a cell lies in the chunk of the cell. -/
theorem cellOffset_div (l : Layer) (x y : UInt32) : l.cellOffset x y / chunkCells = l.chunkIdx x y := by
  have hin := inChunk_lt x y
  rw [cellOffset, Nat.mul_comm, Nat.mul_add_div (by decide), Nat.div_eq_of_lt hin, Nat.add_zero]

theorem word_write {l : Layer} {x y : UInt32} (d : UInt32) (h : l.cellOffset x y < l.mmap.length)
    (i : Nat) : (l.write x y d).word i = if i = l.cellOffset x y then d else l.word i := by
  by_cases hi : i = l.cellOffset x y
  · subst hi
    simp [word, write, List.getD_eq_getElem?_getD, h]
  · simp [word, write, List.getD_eq_getElem?_getD, hi, Ne.symm hi]

theorem mem_rangesFrom (indices : List Nat) (i start stop : Nat) (h : start ≤ stop) :
    (∃ r ∈ rangesFrom start stop indices, r.1 ≤ i ∧ i < r.2) ↔
      (start ≤ i ∧ i < stop) ∨ i ∈ indices := by
  induction indices generalizing start stop with
  | nil => simp [rangesFrom]
  | cons idx rest ih =>
      rw [rangesFrom]
      split
      · rename_i he
        rw [ih start (stop + 1) (by omega), List.mem_cons, ← or_assoc]
        exact or_congr_left (by omega)
      · simp only [List.mem_cons, exists_eq_or_imp, ih idx (idx + 1) (by omega)]
        exact or_congr_right (or_congr_left (by omega))

/-- The ranges are made of the dirty chunks and no others. -/
theorem mem_dirtyRanges (l : Layer) (i : Nat) :
    (∃ r ∈ l.dirtyRanges, r.1 ≤ i ∧ i < r.2) ↔ i ∈ l.dirtyIndices := by
  have hsort : i ∈ l.dirtyIndices.mergeSort (· ≤ ·) ↔ i ∈ l.dirtyIndices := List.mem_mergeSort
  rw [← hsort, dirtyRanges]
  split
  · rename_i hnil
    simp [hnil]
  · rename_i idx rest hcons
    rw [hcons, mem_rangesFrom rest i idx (idx + 1) (by omega), List.mem_cons]
    exact or_congr_left (by omega)

theorem getElem?_foldl_flush (mmap : List UInt32) (ranges : List (Nat × Nat)) (file : List UInt32)
    (h : file.length = mmap.length) (i : Nat) :
    (ranges.foldl (fun file r => file.mapIdx (fun i v =>
      if r.1 * chunkCells ≤ i ∧ i < r.2 * chunkCells then mmap.getD i v else v)) file)[i]? =
      if ∃ r ∈ ranges, r.1 * chunkCells ≤ i ∧ i < r.2 * chunkCells then mmap[i]? else file[i]? := by
  induction ranges generalizing file with
  | nil => simp
  | cons r ranges ih =>
      rw [List.foldl_cons, ih _ (by rw [List.length_mapIdx, h])]
      by_cases hrest : ∃ q ∈ ranges, q.1 * chunkCells ≤ i ∧ i < q.2 * chunkCells
      · rw [if_pos hrest, if_pos]
        obtain ⟨q, hq, hin⟩ := hrest
        exact ⟨q, List.mem_cons_of_mem _ hq, hin⟩
      · rw [if_neg hrest, List.getElem?_mapIdx]
        simp only [List.mem_cons, exists_eq_or_imp, hrest, or_false]
        by_cases hlt : i < file.length
        · rw [List.getElem?_eq_getElem hlt, List.getElem?_eq_getElem (h ▸ hlt)]
          split <;> simp [List.getD_eq_getElem?_getD, List.getElem?_eq_getElem (h ▸ hlt)]
        · rw [List.getElem?_eq_none (by omega), List.getElem?_eq_none (by omega)]
          simp

/-- `msync` writes the words of the dirty chunks. -/
theorem getElem?_flushRanges (l : Layer) {file : List UInt32} (h : file.length = l.mmap.length)
    (i : Nat) : (l.flushRanges file)[i]? =
      if i / chunkCells ∈ l.dirtyIndices then l.mmap[i]? else file[i]? := by
  have hrange (r : Nat × Nat) : (r.1 * chunkCells ≤ i ∧ i < r.2 * chunkCells) ↔
      (r.1 ≤ i / chunkCells ∧ i / chunkCells < r.2) := by
    rw [Nat.le_div_iff_mul_le (by decide), Nat.div_lt_iff_lt_mul (by decide)]
  rw [flushRanges, getElem?_foldl_flush l.mmap l.dirtyRanges file h]
  simp only [hrange, mem_dirtyRanges]

end Layer

end OpenMines
