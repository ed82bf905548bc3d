import OpenMines.Lib.FileImage
import OpenMines.Lib.Marks
import OpenMines.MapRoundTrip

namespace OpenMines.MapFormat

open Lib.LittleEndian Lib.FileImage Lib.FixedWidth Lib.Marks

structure MapFlushSlot where
  slot : Nat
  data : Block
  deriving DecidableEq

/-- An immutable snapshot of one generation of changes. -/
structure MapFlushBatch where
  generation : Nat
  header : Option (Int32 × Int32)
  indexes : Option (List Int32)
  indexLen : Nat
  slots : List MapFlushSlot
  deriving DecidableEq

namespace MapFlushBatch

def headerWrites (b : MapFlushBatch) : List (Nat × UInt8) :=
  match b.header with
  | some (width, height) => spread 0 (i32ToBytes width ++ i32ToBytes height)
  | none => []

def indexWrites (b : MapFlushBatch) : List (Nat × UInt8) :=
  match b.indexes with
  | some table => spread headerBytes (table.flatMap i32ToBytes)
  | none => []

def slotWrites (b : MapFlushBatch) : List (Nat × UInt8) :=
  b.slots.flatMap (fun s =>
    spread (headerBytes + b.indexLen * 4 + s.slot * blockCells) s.data.toList)

/-- The byte stores of `write_to`, in the order of its seeks and writes. -/
def writes (b : MapFlushBatch) : List (Nat × UInt8) :=
  b.headerWrites ++ b.indexWrites ++ b.slotWrites

def writeTo (b : MapFlushBatch) (file : List UInt8) : List UInt8 := pokes file b.writes

end MapFlushBatch

namespace MapStore

def takeFlushBatch (m : MapStore) : Option (MapFlushBatch × MapStore) :=
  if m.isDirty then
    some
      ({ generation := m.nextFlushGeneration
         header := if m.needsHeader then some (m.width, m.height) else none
         indexes := if m.indexDirty then some m.indexes else none
         indexLen := m.indexes.length
         slots := m.dirtySlots.map (fun slot =>
           { slot, data := (m.blocks[slot]?).getD emptyBlock }) },
       { m with
         nextFlushGeneration := m.nextFlushGeneration + 1
         needsHeader := false
         indexDirty := false
         dirty := m.dirtySlots.foldl (fun dirty slot => dirty.set slot false) m.dirty
         dirtySlots := [] })
  else none

def restoreFlushBatch (m : MapStore) (b : MapFlushBatch) : MapStore :=
  b.slots.foldl (fun m flushed => m.markSlotDirty flushed.slot)
    { m with
      needsHeader := m.needsHeader || b.header.isSome
      indexDirty := m.indexDirty || b.indexes.isSome }

theorem takeFlushBatch_wellFormed {m m' : MapStore} {b : MapFlushBatch} (hm : m.WellFormed)
    (h : m.takeFlushBatch = some (b, m')) : m'.WellFormed := by
  unfold takeFlushBatch at h
  split at h
  · obtain ⟨-, rfl⟩ := Prod.mk.inj (Option.some.inj h)
    exact { hm with
      length_dirty := by simpa [length_foldl_clear] using hm.length_dirty
      nodup_dirtySlots := List.nodup_nil
      mem_dirtySlots := by
        intro s
        simp only [List.not_mem_nil, false_iff, getElem?_foldl_clear]
        split
        · simp
        · rename_i hs
          intro hd
          have hlt := (List.getElem?_eq_some_iff.mp hd).1
          exact hs ⟨(hm.mem_dirtySlots s).mpr hd, hlt⟩ }
  · cases h

theorem restoreFlushBatch_wellFormed {m : MapStore} (hm : m.WellFormed) (b : MapFlushBatch) :
    (m.restoreFlushBatch b).WellFormed := by
  unfold restoreFlushBatch
  have hstart : WellFormed
      { m with
        needsHeader := m.needsHeader || b.header.isSome
        indexDirty := m.indexDirty || b.indexes.isSome } := { hm with }
  generalize { m with
    needsHeader := m.needsHeader || b.header.isSome
    indexDirty := m.indexDirty || b.indexes.isSome } = n at hstart
  induction b.slots generalizing n with
  | nil => exact hstart
  | cons s slots ih => exact ih _ (markSlotDirty_wellFormed hstart s.slot)

/-- Stores that differ in their dirty marks at most. -/
structure SameCells (m n : MapStore) : Prop where
  width : n.width = m.width
  height : n.height = m.height
  blocksW : n.blocksW = m.blocksW
  blocksH : n.blocksH = m.blocksH
  indexes : n.indexes = m.indexes
  blocks : n.blocks = m.blocks

theorem SameCells.refl (m : MapStore) : SameCells m m := ⟨rfl, rfl, rfl, rfl, rfl, rfl⟩

theorem SameCells.slotOf {m n : MapStore} (h : SameCells m n) : n.slotOf = m.slotOf := by
  funext id
  unfold MapStore.slotOf
  rw [h.indexes]

theorem SameCells.cellAt {m n : MapStore} (h : SameCells m n) : n.cellAt = m.cellAt := by
  funext id c
  unfold MapStore.cellAt
  rw [h.slotOf, h.blocks]

theorem SameCells.serialize {m n : MapStore} (h : SameCells m n) : n.serialize = m.serialize := by
  unfold MapStore.serialize
  rw [h.width, h.height, h.indexes, h.blocks]

theorem takeFlushBatch_sameCells {m m' : MapStore} {b : MapFlushBatch}
    (h : m.takeFlushBatch = some (b, m')) : SameCells m m' := by
  unfold takeFlushBatch at h
  split at h
  · obtain ⟨-, rfl⟩ := Prod.mk.inj (Option.some.inj h)
    exact ⟨rfl, rfl, rfl, rfl, rfl, rfl⟩
  · cases h

theorem restoreFlushBatch_sameCells (m : MapStore) (b : MapFlushBatch) :
    SameCells m (m.restoreFlushBatch b) := by
  unfold restoreFlushBatch
  have hstart : SameCells m
      { m with
        needsHeader := m.needsHeader || b.header.isSome
        indexDirty := m.indexDirty || b.indexes.isSome } := ⟨rfl, rfl, rfl, rfl, rfl, rfl⟩
  generalize { m with
    needsHeader := m.needsHeader || b.header.isSome
    indexDirty := m.indexDirty || b.indexes.isSome } = n at hstart
  induction b.slots generalizing n with
  | nil => exact hstart
  | cons s slots ih =>
      refine ih _ ⟨?_, ?_, ?_, ?_, ?_, ?_⟩
      · rw [markSlotDirty_width, hstart.width]
      · rw [markSlotDirty_height, hstart.height]
      · rw [markSlotDirty_blocksW, hstart.blocksW]
      · rw [markSlotDirty_blocksH, hstart.blocksH]
      · rw [markSlotDirty_indexes, hstart.indexes]
      · rw [markSlotDirty_blocks, hstart.blocks]

/-- The bytes that the next flush rewrites. -/
def DirtyAt (m : MapStore) (p : Nat) : Prop :=
  if p < headerBytes then m.needsHeader = true
  else if p < m.idxEnd then m.indexDirty = true
  else (p - m.idxEnd) / blockCells ∈ m.dirtySlots

theorem takeFlushBatch_eq_some {m m' : MapStore} {b : MapFlushBatch}
    (h : m.takeFlushBatch = some (b, m')) :
    b.header = (if m.needsHeader then some (m.width, m.height) else none) ∧
      b.indexes = (if m.indexDirty then some m.indexes else none) ∧
      b.indexLen = m.indexes.length ∧
      b.slots = m.dirtySlots.map (fun slot => ⟨slot, (m.blocks[slot]?).getD emptyBlock⟩) ∧
      m'.serialize = m.serialize ∧ m'.idxEnd = m.idxEnd ∧ m'.blocks = m.blocks ∧
      m'.indexes = m.indexes ∧ m'.isDirty = false := by
  unfold takeFlushBatch at h
  split at h
  · obtain ⟨rfl, rfl⟩ := Prod.mk.inj (Option.some.inj h)
    exact ⟨rfl, rfl, rfl, rfl, rfl, rfl, rfl, rfl, rfl⟩
  · cases h

theorem isDirty_of_takeFlushBatch_eq_none {m : MapStore} (h : m.takeFlushBatch = none) :
    m.isDirty = false := by
  unfold takeFlushBatch at h
  split at h
  · cases h
  · rename_i hclean
    simpa using hclean

theorem not_dirtyAt_of_clean {m : MapStore} (h : m.isDirty = false) (p : Nat) : ¬ m.DirtyAt p := by
  simp only [isDirty, Bool.or_eq_false_iff, Bool.not_eq_false', List.isEmpty_iff] at h
  obtain ⟨⟨hheader, hindex⟩, hslots⟩ := h
  simp [DirtyAt, hheader, hindex, hslots]

theorem mem_headerWrites {m m' : MapStore} {b : MapFlushBatch} {p : Nat} {v : UInt8}
    (h : m.takeFlushBatch = some (b, m')) :
    (p, v) ∈ b.headerWrites ↔
      p < headerBytes ∧ m.needsHeader = true ∧ m.serialize[p]? = some v := by
  have hlen : (i32ToBytes m.width ++ i32ToBytes m.height).length = headerBytes := by simp [headerBytes]
  rw [MapFlushBatch.headerWrites, (takeFlushBatch_eq_some h).1]
  by_cases hn : m.needsHeader = true
  · simp only [hn, if_true, mem_spread, Nat.zero_le, Nat.sub_zero, true_and]
    rw [getElem?_serialize]
    by_cases hp : p < headerBytes
    · simp [hp]
    · simp only [hp, false_and, iff_false]
      rw [List.getElem?_eq_none (by omega)]
      simp
  · simp [hn]

theorem mem_indexWrites {m m' : MapStore} {b : MapFlushBatch} {p : Nat} {v : UInt8}
    (h : m.takeFlushBatch = some (b, m')) :
    (p, v) ∈ b.indexWrites ↔ headerBytes ≤ p ∧ p < m.idxEnd ∧ m.indexDirty = true ∧
      m.serialize[p]? = some v := by
  rw [MapFlushBatch.indexWrites, (takeFlushBatch_eq_some h).2.1]
  by_cases hn : m.indexDirty = true
  · simp only [hn, if_true, mem_spread, true_and]
    rw [getElem?_serialize, getElem?_flatMap i32ToBytes 4 (by decide) length_i32ToBytes]
    by_cases hp : headerBytes ≤ p
    · simp only [hp, Nat.not_lt.mpr hp, if_false, true_and]
      by_cases hq : p < m.idxEnd
      · simp [hq]
      · simp only [hq, if_false, false_and, iff_false]
        rw [List.getElem?_eq_none (by rw [idxEnd] at hq; omega)]
        simp
    · simp [hp]
  · simp [hn]

theorem mem_slotWrites {m m' : MapStore} {b : MapFlushBatch} {p : Nat} {v : UInt8}
    (hm : m.WellFormed) (h : m.takeFlushBatch = some (b, m')) :
    (p, v) ∈ b.slotWrites ↔ m.idxEnd ≤ p ∧ (p - m.idxEnd) / blockCells ∈ m.dirtySlots ∧
      m.serialize[p]? = some v := by
  obtain ⟨-, -, hlen, hslots, -⟩ := takeFlushBatch_eq_some h
  have hblock (slot : Nat) (hs : slot ∈ m.dirtySlots) : slot < m.blocks.length := by
    rw [← hm.length_dirty]
    exact (List.getElem?_eq_some_iff.mp ((hm.mem_dirtySlots slot).mp hs)).1
  have hser (hp : m.idxEnd ≤ p) : m.serialize[p]? =
      (m.blocks[(p - m.idxEnd) / blockCells]?).bind (fun b => b[(p - m.idxEnd) % blockCells]?) := by
    rw [getElem?_serialize, if_neg (by rw [idxEnd] at hp; omega), if_neg (by omega)]
  simp only [MapFlushBatch.slotWrites, hlen, hslots, List.flatMap_map, List.mem_flatMap, mem_spread]
  change (∃ slot ∈ m.dirtySlots, m.idxEnd + slot * blockCells ≤ p ∧ _) ↔ _
  constructor
  · rintro ⟨slot, hs, hp, hv⟩
    have hlt := (List.getElem?_eq_some_iff.mp hv).1
    rw [Vector.length_toList] at hlt
    have hdiv : (p - m.idxEnd) / blockCells = slot := by
      rw [Nat.div_eq_iff (by decide)]
      simp only [blockCells, idxEnd] at hlt hp ⊢
      omega
    have hmod : (p - m.idxEnd) % blockCells = p - (m.idxEnd + slot * blockCells) := by
      have := Nat.div_add_mod (p - m.idxEnd) blockCells
      rw [hdiv, Nat.mul_comm] at this
      omega
    refine ⟨by omega, hdiv ▸ hs, ?_⟩
    rw [hser (by omega), hdiv, hmod]
    rw [Vector.getElem?_toList, List.getElem?_eq_getElem (hblock slot hs), Option.getD_some] at hv
    rw [List.getElem?_eq_getElem (hblock slot hs)]
    exact hv
  · rintro ⟨hp, hs, hv⟩
    refine ⟨_, hs, ?_, ?_⟩
    · have := Nat.div_mul_le_self (p - m.idxEnd) blockCells
      omega
    · have hsub : p - (m.idxEnd + (p - m.idxEnd) / blockCells * blockCells) =
          (p - m.idxEnd) % blockCells := by
        have := Nat.div_add_mod (p - m.idxEnd) blockCells
        rw [Nat.mul_comm] at this
        omega
      rw [hser hp] at hv
      change ((m.blocks[(p - m.idxEnd) / blockCells]?).getD emptyBlock).toList[
        p - (m.idxEnd + (p - m.idxEnd) / blockCells * blockCells)]? = some v
      rw [Vector.getElem?_toList, hsub]
      rw [List.getElem?_eq_getElem (hblock _ hs)] at hv ⊢
      exact hv

/-- A batch stores, over the dirty bytes, exactly the serialized store. -/
theorem mem_writes {m m' : MapStore} {b : MapFlushBatch} {p : Nat} {v : UInt8}
    (hm : m.WellFormed) (h : m.takeFlushBatch = some (b, m')) :
    (p, v) ∈ b.writes ↔ m.DirtyAt p ∧ m.serialize[p]? = some v := by
  have hend : headerBytes ≤ m.idxEnd := Nat.le_add_right _ _
  simp only [MapFlushBatch.writes, List.mem_append, mem_headerWrites h, mem_indexWrites h,
    mem_slotWrites hm h, DirtyAt]
  by_cases hp : p < headerBytes
  · simp [hp, show ¬ headerBytes ≤ p by omega, show ¬ m.idxEnd ≤ p by omega]
  · by_cases hq : p < m.idxEnd
    · simp [hp, hq, show headerBytes ≤ p by omega, show ¬ m.idxEnd ≤ p by omega]
    · simp [hp, hq, show m.idxEnd ≤ p by omega]

end MapStore

end OpenMines.MapFormat
