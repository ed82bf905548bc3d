import OpenMines.Lib.FixedWidth
import OpenMines.MapCells

namespace OpenMines.MapFormat.MapStore

open Lib.LittleEndian Lib.FixedWidth

/-- Header, index table, then the blocks in slot order. -/
def serialize (m : MapStore) : List UInt8 :=
  i32ToBytes m.width ++ i32ToBytes m.height ++ m.indexes.flatMap i32ToBytes ++
    m.blocks.flatMap Vector.toList

/-- The table names a slot for a block. -/
def Names (table : List Int32) (id slot : Nat) : Prop :=
  ∃ v, table[id]? = some v ∧ v ≠ noSlot ∧ toUsize v = some slot

def readTable : Nat → List UInt8 → List Int32
  | 0, _ => []
  | n + 1, bs => i32OfBytes (bs.take 4) :: readTable n (bs.drop 4)

def blockOfBytes (bs : List UInt8) : Block := Vector.ofFn (fun i => bs.getD i 0)

def readBlocks : Nat → List UInt8 → List Block
  | 0, _ => []
  | n + 1, bs => blockOfBytes (bs.take blockCells) :: readBlocks n (bs.drop blockCells)

/-- One more than the largest entry; `v + 1` wraps like the `i32` of the source. -/
def indexSize (table : List Int32) : Int32 :=
  table.foldl (fun size v => if v + 1 > size then v + 1 else size) 0

/-- The loop that fills `backIndex` and rejects entries out of range. -/
def fillBackIndex (slots : Nat) : Nat → List Int32 → List Nat → Except String (List Nat)
  | _, [], back => .ok back
  | blockId, slot :: rest, back =>
    if slot = noSlot then fillBackIndex slots (blockId + 1) rest back
    else
      match toUsize slot with
      | none => .error "negative slot in index table"
      | some s =>
        if s ≥ slots then .error s!"index table references slot {s} >= {slots}"
        else fillBackIndex slots (blockId + 1) rest (back.set s blockId)

def deserialize (bytes : List UInt8) : Except String MapStore :=
  if bytes.length < headerBytes then
    .error s!"map file shorter than header ({bytes.length} bytes)"
  else
    match new (i32OfBytes (bytes.take 4)) (i32OfBytes ((bytes.drop 4).take 4)) with
    | .error e => .error e
    | .ok store =>
      let idxEnd := headerBytes + store.indexes.length * 4
      if bytes.length < idxEnd then
        .error s!"map file truncated in index table: have {bytes.length}, need {idxEnd}"
      else
        let table := readTable store.indexes.length (bytes.drop headerBytes)
        let slots := (toUsize (indexSize table)).getD 0
        let need := idxEnd + slots * blockCells
        if bytes.length < need then
          .error s!"map file truncated in blocks: have {bytes.length}, need {need} ({slots} slots)"
        else
          match fillBackIndex slots 0 table (List.replicate slots 0) with
          | .error e => .error e
          | .ok backIndex =>
            .ok
              { store with
                indexes := table
                backIndex
                blocks := readBlocks slots (bytes.drop idxEnd)
                dirty := List.replicate slots false
                dirtySlots := []
                indexDirty := false
                needsHeader := false }

/-- The store of a file at a path, or a fresh one when there is no file of
these dimensions. -/
def «open» (file : Option (List UInt8)) (width height : Int32) : Except String MapStore :=
  match file with
  | some bytes =>
    if headerBytes ≤ bytes.length ∧ i32OfBytes (bytes.take 4) = width ∧
        i32OfBytes ((bytes.drop 4).take 4) = height then deserialize bytes
    else new width height
  | none => new width height

theorem readTable_flatMap (table : List Int32) (rest : List UInt8) :
    readTable table.length (table.flatMap i32ToBytes ++ rest) = table := by
  induction table with
  | nil => rfl
  | cons v table ih =>
      rw [List.flatMap_cons, List.append_assoc, List.length_cons, readTable,
        List.take_left' (length_i32ToBytes v), List.drop_left' (length_i32ToBytes v),
        i32OfBytes_i32ToBytes, ih]

theorem blockOfBytes_toList (b : Block) : blockOfBytes b.toList = b := by
  apply Vector.ext
  intro i hi
  simp [blockOfBytes]

theorem readBlocks_flatMap (blocks : List Block) (rest : List UInt8) :
    readBlocks blocks.length (blocks.flatMap Vector.toList ++ rest) = blocks := by
  induction blocks with
  | nil => rfl
  | cons b blocks ih =>
      have hlen : b.toList.length = blockCells := by simp
      rw [List.flatMap_cons, List.append_assoc, List.length_cons, readBlocks,
        List.take_left' hlen, List.drop_left' hlen, blockOfBytes_toList, ih]

@[simp] theorem length_table (table : List Int32) :
    (table.flatMap i32ToBytes).length = table.length * 4 :=
  length_flatMap i32ToBytes 4 length_i32ToBytes table

@[simp] theorem length_blocks (blocks : List Block) :
    (blocks.flatMap Vector.toList).length = blocks.length * blockCells :=
  length_flatMap Vector.toList blockCells (fun _ => Vector.length_toList) blocks

theorem length_serialize (m : MapStore) : m.serialize.length =
    headerBytes + m.indexes.length * 4 + m.blocks.length * blockCells := by
  simp only [serialize, List.length_append, length_i32ToBytes, length_table, length_blocks,
    headerBytes]

/-- Where the index table ends and the blocks begin. -/
def idxEnd (m : MapStore) : Nat := headerBytes + m.indexes.length * 4

theorem getElem?_serialize (m : MapStore) (p : Nat) : m.serialize[p]? =
    if p < headerBytes then (i32ToBytes m.width ++ i32ToBytes m.height)[p]?
    else if p < m.idxEnd then
      (m.indexes[(p - headerBytes) / 4]?).bind (fun v => (i32ToBytes v)[(p - headerBytes) % 4]?)
    else
      (m.blocks[(p - m.idxEnd) / blockCells]?).bind (fun b => b[(p - m.idxEnd) % blockCells]?) := by
  have hhead : (i32ToBytes m.width ++ i32ToBytes m.height).length = headerBytes := by
    simp [headerBytes]
  unfold serialize idxEnd
  by_cases hp : p < headerBytes
  · rw [if_pos hp, List.append_assoc, List.getElem?_append_left (by rw [hhead]; exact hp)]
  · rw [if_neg hp]
    by_cases hq : p < headerBytes + m.indexes.length * 4
    · rw [if_pos hq, List.getElem?_append_left (by rw [List.length_append, hhead, length_table]; exact hq),
        List.getElem?_append_right (by rw [hhead]; omega), hhead,
        getElem?_flatMap i32ToBytes 4 (by decide) length_i32ToBytes]
    · rw [if_neg hq, List.getElem?_append_right (by rw [List.length_append, hhead, length_table]; omega),
        List.length_append, hhead, length_table,
        getElem?_flatMap Vector.toList blockCells (by decide) (fun _ => Vector.length_toList)]
      simp only [Vector.getElem?_toList]

theorem indexSize_foldl (table : List Int32) (size : Int32) :
    let r := table.foldl (fun size v => if v + 1 > size then v + 1 else size) size
    size.toInt ≤ r.toInt ∧ (∀ v ∈ table, (v + 1).toInt ≤ r.toInt) ∧
      (r = size ∨ ∃ v ∈ table, r = v + 1) := by
  induction table generalizing size with
  | nil => simp
  | cons v table ih =>
      simp only [List.foldl_cons]
      obtain ⟨hle, hall, hwit⟩ := ih (if v + 1 > size then v + 1 else size)
      simp only [gt_iff_lt, Int32.lt_iff_toInt_lt] at hle hall hwit ⊢
      split at hle
      · rename_i hlt
        simp only [hlt, if_true] at hall hwit ⊢
        refine ⟨by omega, ?_, ?_⟩
        · intro w hw
          rcases List.mem_cons.mp hw with rfl | hw
          · exact hle
          · exact hall w hw
        · rcases hwit with hwit | ⟨w, hw, hwit⟩
          · exact Or.inr ⟨v, by simp, hwit⟩
          · exact Or.inr ⟨w, List.mem_cons_of_mem _ hw, hwit⟩
      · rename_i hnlt
        simp only [hnlt, if_false] at hall hwit ⊢
        refine ⟨hle, ?_, ?_⟩
        · intro w hw
          rcases List.mem_cons.mp hw with rfl | hw
          · omega
          · exact hall w hw
        · rcases hwit with hwit | ⟨w, hw, hwit⟩
          · exact Or.inl hwit
          · exact Or.inr ⟨w, List.mem_cons_of_mem _ hw, hwit⟩

theorem toInt_add_one {v : Int32} (h : v.toInt < 2 ^ 31 - 1) : (v + 1).toInt = v.toInt + 1 := by
  have hlow := v.le_toInt
  have hone : (1 : Int32).toInt = 1 := by decide
  rw [Int32.toInt_add, hone, Int.bmod_eq_of_le] <;> omega

/-- Without the wrapping entry, the size is the least bound of the named slots. -/
theorem toUsize_indexSize {table : List Int32} {n : Nat} (hn : n < 2 ^ 31)
    (hentry : ∀ v ∈ table, v ≠ noSlot → ∃ s, toUsize v = some s ∧ s < n)
    (hlast : 0 < n → ∃ id, Names table id (n - 1)) : toUsize (indexSize table) = some n := by
  obtain ⟨hle, hall, hwit⟩ := indexSize_foldl table 0
  change _ ≤ (indexSize table).toInt at hle
  change ∀ v ∈ table, _ ≤ (indexSize table).toInt at hall
  change indexSize table = 0 ∨ ∃ v ∈ table, indexSize table = v + 1 at hwit
  have hz : (0 : Int32).toInt = 0 := by decide
  rw [hz] at hle
  have hbound (v : Int32) (hv : v ∈ table) : v.toInt < n ∧ (v + 1).toInt = v.toInt + 1 := by
    by_cases hno : v = noSlot
    · subst hno
      exact ⟨by have : noSlot.toInt = -1 := by decide
                omega, by decide⟩
    · obtain ⟨s, hs, hlt⟩ := hentry v hv hno
      have := toUsize_eq_some.mp hs
      exact ⟨by omega, toInt_add_one (by omega)⟩
  apply toUsize_eq_some.mpr
  apply le_antisymm
  · rcases hwit with h | ⟨v, hv, h⟩
    · rw [h, hz]
      omega
    · rw [h, (hbound v hv).2]
      have := (hbound v hv).1
      omega
  · rcases Nat.eq_zero_or_pos n with rfl | hpos
    · exact_mod_cast hle
    · obtain ⟨id, v, hv, -, hs⟩ := hlast hpos
      have hmem := List.mem_of_getElem? hv
      have h := hall v hmem
      rw [(hbound v hmem).2, toUsize_eq_some.mp hs] at h
      omega

theorem indexSize_slots_lt (table : List Int32) : (toUsize (indexSize table)).getD 0 < 2 ^ 31 := by
  cases h : toUsize (indexSize table) with
  | none => simp
  | some n => simpa using toUsize_lt h

theorem names_cons {v : Int32} {table : List Int32} {i slot : Nat} :
    Names (v :: table) (i + 1) slot ↔ Names table i slot := by simp [Names]

/-- A run of the loop that is not rejected keeps the last block naming a slot. -/
theorem fillBackIndex_spec {slots : Nat} (table : List Int32) (k : Nat) (back : List Nat)
    (hentry : ∀ v ∈ table, v ≠ noSlot → ∃ s, toUsize v = some s ∧ s < slots) :
    ∃ filled, fillBackIndex slots k table back = .ok filled ∧ filled.length = back.length ∧
      (∀ s, (∀ i, ¬ Names table i s) → filled[s]? = back[s]?) ∧
      (∀ s id, s < back.length → (∃ i, Names table i s) → (∀ i, Names table i s → k + i = id) →
        filled[s]? = some id) := by
  induction table generalizing k back with
  | nil => exact ⟨back, rfl, rfl, fun _ _ => rfl, by simp [Names]⟩
  | cons v table ih =>
      have hrest := fun w hw => hentry w (List.mem_cons_of_mem _ hw)
      by_cases hno : v = noSlot
      · obtain ⟨filled, hrun, hlen, hkeep, hset⟩ := ih (k + 1) back hrest
        have hnot (s : Nat) : ¬ Names (v :: table) 0 s := by simp [Names, hno]
        refine ⟨filled, by rw [fillBackIndex, if_pos hno, hrun], hlen, ?_, ?_⟩
        · exact fun s h => hkeep s (fun i hi => h (i + 1) (names_cons.mpr hi))
        · rintro s id hs ⟨i, hi⟩ hid
          cases i with
          | zero => exact absurd hi (hnot s)
          | succ i =>
              refine hset s id hs ⟨i, names_cons.mp hi⟩ ?_
              intro j hj
              have := hid (j + 1) (names_cons.mpr hj)
              omega
      · obtain ⟨t, ht, htlt⟩ := hentry v (by simp) hno
        obtain ⟨filled, hrun, hlen, hkeep, hset⟩ := ih (k + 1) (back.set t k) hrest
        rw [List.length_set] at hlen hset
        have hhead (s : Nat) : Names (v :: table) 0 s ↔ s = t := by
          simp [Names, hno, ht, eq_comm]
        refine ⟨filled, ?_, hlen, ?_, ?_⟩
        · rw [fillBackIndex, if_neg hno, ht]
          simp only [ge_iff_le, Nat.not_le.mpr htlt, if_false, hrun]
        · intro s h
          have hne : t ≠ s := fun he => h 0 ((hhead s).mpr he.symm)
          rw [hkeep s (fun i hi => h (i + 1) (names_cons.mpr hi)), List.getElem?_set_ne hne]
        · intro s id hs hex hid
          by_cases htail : ∃ i, Names table i s
          · refine hset s id hs htail ?_
            intro j hj
            have := hid (j + 1) (names_cons.mpr hj)
            omega
          · have hst : s = t := by
              obtain ⟨i, hi⟩ := hex
              cases i with
              | zero => exact (hhead s).mp hi
              | succ i => exact absurd ⟨i, names_cons.mp hi⟩ htail
            subst hst
            rw [hkeep s (fun i hi => htail ⟨i, hi⟩), List.getElem?_set_self hs]
            have := hid 0 ((hhead s).mpr rfl)
            simp only [Nat.add_zero] at this
            rw [this]

theorem fillBackIndex_entries {slots : Nat} {table : List Int32} {k : Nat} {back filled : List Nat}
    (h : fillBackIndex slots k table back = .ok filled) :
    ∀ v ∈ table, v ≠ noSlot → ∃ s, toUsize v = some s ∧ s < slots := by
  induction table generalizing k back with
  | nil => simp
  | cons v table ih =>
      intro w hw hne
      by_cases hno : v = noSlot
      · rw [fillBackIndex, if_pos hno] at h
        rcases List.mem_cons.mp hw with rfl | hw
        · exact absurd hno hne
        · exact ih h w hw hne
      · rw [fillBackIndex, if_neg hno] at h
        split at h
        · cases h
        · rename_i s hs
          split at h
          · cases h
          · rename_i hlt
            rcases List.mem_cons.mp hw with rfl | hw
            · exact ⟨s, hs, Nat.lt_of_not_le hlt⟩
            · exact ih h w hw hne

end OpenMines.MapFormat.MapStore
