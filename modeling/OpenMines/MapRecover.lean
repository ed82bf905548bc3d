import OpenMines.MapAccepted
import OpenMines.MapFlushRun

namespace OpenMines.MapFormat.MapStore

open Lib.LittleEndian Lib.FileImage

theorem readTable_flatMap_take (n : Nat) (bs : List UInt8) (h : 4 * n ≤ bs.length) :
    (readTable n bs).flatMap i32ToBytes = bs.take (4 * n) := by
  induction n generalizing bs with
  | zero => rfl
  | succ n ih =>
      rw [readTable, List.flatMap_cons, ih _ (by rw [List.length_drop]; omega),
        i32ToBytes_i32OfBytes (by rw [List.length_take]; omega), Nat.mul_succ, Nat.add_comm,
        List.take_add]

theorem blockOfBytes_toList_take (bs : List UInt8) (h : bs.length = blockCells) :
    (blockOfBytes bs).toList = bs := by
  apply List.ext_getElem?
  intro i
  rw [Vector.getElem?_toList]
  by_cases hi : i < blockCells
  · simp [blockOfBytes, hi, h]
  · rw [List.getElem?_eq_none (by omega), Vector.getElem?_eq_none (by omega)]

theorem readBlocks_flatMap_take (n : Nat) (bs : List UInt8) (h : blockCells * n ≤ bs.length) :
    (readBlocks n bs).flatMap Vector.toList = bs.take (blockCells * n) := by
  induction n generalizing bs with
  | zero => rfl
  | succ n ih =>
      rw [Nat.mul_succ] at h ⊢
      rw [readBlocks, List.flatMap_cons, ih _ (by rw [List.length_drop]; omega),
        blockOfBytes_toList_take _ (by rw [List.length_take]; omega), Nat.add_comm, List.take_add]

/-- The entries of the table of a file that is long enough, byte by byte. -/
theorem getElem?_readTable (n : Nat) (bs : List UInt8) (id : Nat) (h : id < n) :
    (readTable n bs)[id]? = some (i32OfBytes ((bs.drop (4 * id)).take 4)) := by
  induction n generalizing bs id with
  | zero => omega
  | succ n ih =>
      cases id with
      | zero => rfl
      | succ id =>
          rw [readTable, List.getElem?_cons_succ, ih _ _ (by omega), List.drop_drop]
          congr 4
          omega

/-- Every entry of the table is `noSlot` or names a block that lies in the file. -/
def Covered (file : List UInt8) : Prop :=
  ∀ v ∈ tableOf file, v ≠ noSlot → 0 ≤ v.toInt ∧ v.toInt + 1 < 2 ^ 31 ∧
    headerBytes + (tableOf file).length * 4 + (v.toInt.toNat + 1) * blockCells ≤ file.length

theorem entries_of_covered {file : List UInt8} (h : Covered file) :
    ∀ v ∈ tableOf file, v ≠ noSlot →
      ∃ s, toUsize v = some s ∧ s < (toUsize (indexSize (tableOf file))).getD 0 := by
  intro v hv hne
  obtain ⟨hnn, hfits, -⟩ := h v hv hne
  obtain ⟨-, hall, -⟩ := indexSize_foldl (tableOf file) 0
  have hle := hall v hv
  change (v + 1).toInt ≤ (indexSize (tableOf file)).toInt at hle
  rw [toInt_add_one (by omega)] at hle
  have hsize : toUsize (indexSize (tableOf file)) = some (indexSize (tableOf file)).toInt.toNat :=
    toUsize_eq_some.mpr (by omega)
  refine ⟨v.toInt.toNat, toUsize_eq_some.mpr (by omega), ?_⟩
  rw [hsize, Option.getD_some]
  omega

/-- The reader takes a file of the right size just when its table is covered. -/
theorem deserialize_ok_iff {file : List UInt8} {store : MapStore}
    (hnew : new (i32OfBytes (file.take 4)) (i32OfBytes ((file.drop 4).take 4)) = .ok store)
    (hlen : store.idxEnd ≤ file.length) : (∃ m, deserialize file = .ok m) ↔ Covered file := by
  constructor
  · rintro ⟨m, h⟩ v hv hne
    obtain ⟨hindexes, hblocks, hfill⟩ := deserialize_fields h
    rw [hindexes] at hfill
    obtain ⟨s, hs, hlt⟩ := fillBackIndex_entries hfill v hv hne
    have hvs := toUsize_eq_some.mp hs
    obtain ⟨store', slots, -, -, hlen', hslots, hneed, -, -⟩ := deserialize_eq_ok h
    refine ⟨by omega, accepted_entry_lt h v hv, ?_⟩
    rw [← hlen', show v.toInt.toNat = s by omega]
    have := Nat.mul_le_mul_right blockCells (show s + 1 ≤ slots by omega)
    omega
  · intro hcov
    have htable := readTable_eq_tableOf hnew
    have hstore : store.indexes.length = (tableOf file).length := by rw [← htable, length_readTable]
    obtain ⟨filled, hrun, -⟩ := fillBackIndex_spec (tableOf file) 0
      (List.replicate ((toUsize (indexSize (tableOf file))).getD 0) 0) (entries_of_covered hcov)
    have hneed : headerBytes + store.indexes.length * 4 +
        (toUsize (indexSize (tableOf file))).getD 0 * blockCells ≤ file.length := by
      rw [idxEnd] at hlen
      rcases Nat.eq_zero_or_pos ((toUsize (indexSize (tableOf file))).getD 0) with hzero | hpos
      · rw [hzero]
        omega
      · obtain ⟨v, hv, hsucc⟩ := slots_eq hpos
        have hne : v ≠ noSlot := by
          rintro rfl
          rw [show (noSlot + 1).toInt = 0 by decide] at hsucc
          omega
        obtain ⟨-, hfits, hin⟩ := hcov v hv hne
        rw [toInt_add_one (by omega)] at hsucc
        rw [hstore, show (toUsize (indexSize (tableOf file))).getD 0 = v.toInt.toNat + 1 by omega]
        exact hin
    unfold deserialize
    rw [idxEnd] at hlen
    rw [if_neg (by simp only [headerBytes] at hlen ⊢; omega), hnew]
    simp only [htable]
    rw [if_neg (by omega), if_neg (by omega), hrun]
    exact ⟨_, rfl⟩

/-- An accepted file is the serialization of the store it is read as, up to a tail. -/
theorem serialize_deserialize {file : List UInt8} {m : MapStore} (h : deserialize file = .ok m) :
    m.serialize = file.take (m.idxEnd + m.blocks.length * blockCells) ∧
      m.idxEnd + m.blocks.length * blockCells ≤ file.length := by
  obtain ⟨store, slots, back, hnew, hlen, -, hneed, -, rfl⟩ := deserialize_eq_ok h
  have hshape := (new_spec hnew).2.2.2.2
  have hwidth : store.width = i32OfBytes (file.take 4) := by rw [hshape]
  have hheight : store.height = i32OfBytes ((file.drop 4).take 4) := by rw [hshape]
  have htable := readTable_eq_tableOf hnew
  have h4 : 4 ≤ file.length := by
    simp only [headerBytes] at hneed
    omega
  simp only [idxEnd, length_readBlocks, ← hlen]
  refine ⟨?_, hneed⟩
  simp only [headerBytes] at hneed
  simp only [serialize, hwidth, hheight]
  rw [i32ToBytes_i32OfBytes (by rw [List.length_take]; omega),
    i32ToBytes_i32OfBytes (by rw [List.length_take, List.length_drop]; omega), ← htable,
    readTable_flatMap_take _ _ (by simp only [List.length_drop, headerBytes]; omega),
    readBlocks_flatMap_take _ _ (by
      rw [Nat.mul_comm]
      simp only [List.length_drop, headerBytes]
      omega)]
  have hsplit : file.take (4 + 4) = file.take 4 ++ (file.drop 4).take 4 := List.take_add
  rw [List.take_add, List.take_add, Nat.mul_comm 4, Nat.mul_comm blockCells, ← hsplit]
  rfl

/-- A file from which the cells of the live store `m` can be had back: it grew from
the checkpoint `ck`, the rows of its table are old, torn or new, blocks stand in it
only behind their complete row, and outside the `touched` cells it shows what `m`
shows. -/
structure Recoverable (ck m : MapStore) (touched : Nat → Nat → Prop) (f : List UInt8) : Prop where
  width_eq : ck.width = m.width
  height_eq : ck.height = m.height
  kept : ∀ id s, ck.slotOf id = some s → m.slotOf id = some s
  same : ∀ id c, ¬ touched id c → m.cellAt id c = ck.cellAt id c
  length_le : f.length ≤ m.serialize.length
  le_length : m.idxEnd + ck.blocks.length * blockCells ≤ f.length
  header : ∀ p < headerBytes, f[p]? = m.serialize[p]?
  row : ∀ id v, m.indexes[id]? = some v → ∃ k, ∀ t < 4,
    f[headerBytes + id * 4 + t]? = if t < k then (i32ToBytes v)[t]? else (i32ToBytes noSlot)[t]?
  named : ∀ id s v, m.slotOf id = some s → m.idxEnd + s * blockCells < f.length →
    m.indexes[id]? = some v → ∀ t < 4, f[headerBytes + id * 4 + t]? = (i32ToBytes v)[t]?
  bytes : ∀ id s c v, m.slotOf id = some s → c < blockCells → ¬ touched id c →
    f[m.idxEnd + s * blockCells + c]? = some v → v = m.cellAt id c

theorem row_serialize {m : MapStore} {id : Nat} {v : Int32} (h : m.indexes[id]? = some v) {t : Nat}
    (ht : t < 4) : m.serialize[headerBytes + id * 4 + t]? = (i32ToBytes v)[t]? := by
  obtain ⟨hid, -⟩ := List.getElem?_eq_some_iff.mp h
  rw [getElem?_serialize, if_neg (by omega), if_pos (by rw [idxEnd]; omega),
    show (headerBytes + id * 4 + t - headerBytes) / 4 = id by omega,
    show (headerBytes + id * 4 + t - headerBytes) % 4 = t by omega, h]
  rfl

theorem block_serialize {m : MapStore} {id s c : Nat} (hs : m.slotOf id = some s) (hc : c < blockCells)
    {v : UInt8} (h : m.serialize[m.idxEnd + s * blockCells + c]? = some v) : v = m.cellAt id c := by
  have hhead : headerBytes ≤ m.idxEnd := Nat.le_add_right _ _
  simp only [blockCells] at hc
  rw [getElem?_serialize, if_neg (by omega), if_neg (by omega),
    show (m.idxEnd + s * blockCells + c - m.idxEnd) / blockCells = s by simp only [blockCells]; omega,
    show (m.idxEnd + s * blockCells + c - m.idxEnd) % blockCells = c by simp only [blockCells]; omega] at h
  simp only [cellAt, hs, h, Option.getD_some]

theorem cellAt_of_slotOf_none {m : MapStore} {id : Nat} (h : m.slotOf id = none) (c : Nat) :
    m.cellAt id c = 0 := by
  unfold cellAt
  rw [h]

/-- A file that holds just the store is recoverable. -/
theorem recoverable_serialize {ck m : MapStore} {touched : Nat → Nat → Prop}
    (hwidth : ck.width = m.width) (hheight : ck.height = m.height)
    (hkept : ∀ id s, ck.slotOf id = some s → m.slotOf id = some s)
    (hblocks : ck.blocks.length ≤ m.blocks.length)
    (hsame : ∀ id c, ¬ touched id c → m.cellAt id c = ck.cellAt id c) :
    Recoverable ck m touched m.serialize where
  width_eq := hwidth
  height_eq := hheight
  kept := hkept
  same := hsame
  length_le := Nat.le_refl _
  le_length := by
    rw [length_serialize, idxEnd]
    have := Nat.mul_le_mul_right blockCells hblocks
    omega
  header := fun _ _ => rfl
  row := fun id v hv => ⟨4, fun t ht => by rw [if_pos ht, row_serialize hv ht]⟩
  named := fun id s v _ _ hv t ht => row_serialize hv ht
  bytes := fun id s c v hs hc _ h => block_serialize hs hc h

theorem Recoverable.mono {ck m : MapStore} {touched touched' : Nat → Nat → Prop} {f : List UInt8}
    (h : Recoverable ck m touched f) (hle : ∀ id c, touched id c → touched' id c) :
    Recoverable ck m touched' f :=
  { h with
    same := fun id c hc => h.same id c (fun ht => hc (hle id c ht))
    bytes := fun id s c v hs hlt hc => h.bytes id s c v hs hlt (fun ht => hc (hle id c ht)) }

/-- Only the cells of the live store matter, not its dirty marks. -/
theorem Recoverable.congr {ck m n : MapStore} {touched : Nat → Nat → Prop} {f : List UInt8}
    (h : Recoverable ck m touched f) (hsame : SameCells m n) : Recoverable ck n touched f := by
  have hslot := hsame.slotOf
  have hcell := hsame.cellAt
  have hser := hsame.serialize
  have hend : n.idxEnd = m.idxEnd := by rw [idxEnd, hsame.indexes, idxEnd]
  exact {
    width_eq := h.width_eq.trans hsame.width.symm
    height_eq := h.height_eq.trans hsame.height.symm
    kept := by
      rw [hslot]
      exact h.kept
    same := by
      rw [hcell]
      exact h.same
    length_le := hser ▸ h.length_le
    le_length := hend ▸ h.le_length
    header := hser ▸ h.header
    row := hsame.indexes ▸ h.row
    named := by
      rw [hslot, hend, hsame.indexes]
      exact h.named
    bytes := by
      rw [hslot, hend, hcell]
      exact h.bytes }

theorem header_serialize (m : MapStore) {p : Nat} (hp : p < headerBytes) :
    m.serialize[p]? = (i32ToBytes m.width ++ i32ToBytes m.height)[p]? := by
  rw [getElem?_serialize, if_pos hp]

theorem Recoverable.writeSlot {ck m : MapStore} {touched : Nat → Nat → Prop} {f : List UInt8}
    (hm : m.WellFormed) (h : Recoverable ck m touched f) {id slot c : Nat} (cell : UInt8)
    (hslot : m.slotOf id = some slot) (hc : c < blockCells) (htouched : touched id c) :
    Recoverable ck (m.writeSlot slot c cell) touched f := by
  have hcell (j k : Nat) (hk : ¬ touched j k) : (m.writeSlot slot c cell).cellAt j k = m.cellAt j k := by
    rw [cellAt_writeSlot hm.toIndexed cell hslot hc, if_neg]
    rintro ⟨rfl, rfl⟩
    exact hk htouched
  have hend : (m.writeSlot slot c cell).idxEnd = m.idxEnd := by simp [MapStore.writeSlot, idxEnd]
  have hindexes : (m.writeSlot slot c cell).indexes = m.indexes := by simp [MapStore.writeSlot]
  have hwidth : (m.writeSlot slot c cell).width = m.width := by simp [MapStore.writeSlot]
  have hheight : (m.writeSlot slot c cell).height = m.height := by simp [MapStore.writeSlot]
  exact {
    width_eq := by rw [hwidth, h.width_eq]
    height_eq := by rw [hheight, h.height_eq]
    kept := by
      simp only [slotOf_writeSlot]
      exact h.kept
    same := fun j k hk => by rw [hcell j k hk, h.same j k hk]
    length_le := by
      rw [length_serialize_writeSlot]
      exact h.length_le
    le_length := by
      rw [hend]
      exact h.le_length
    header := by
      intro p hp
      rw [h.header p hp, header_serialize _ hp, header_serialize _ hp, hwidth, hheight]
    row := by
      rw [hindexes]
      exact h.row
    named := by
      simp only [slotOf_writeSlot, hend, hindexes]
      exact h.named
    bytes := by
      intro j s k v hj hk hfree hv
      rw [slotOf_writeSlot] at hj
      rw [hend] at hv
      rw [hcell j k hfree]
      exact h.bytes j s k v hj hk hfree hv }

theorem Recoverable.allocate {ck m : MapStore} {touched : Nat → Nat → Prop} {f : List UInt8}
    (hm : m.WellFormed) (h : Recoverable ck m touched f) {id : Nat} (hgrid : id < m.grid)
    (hid : id < 2 ^ 31) (hfresh : m.slotOf id = none) : Recoverable ck (m.allocate id) touched f := by
  have hn := newSlot_fits hm hid hfresh
  have hlen : id < m.indexes.length := hm.length_indexes ▸ hgrid
  have hslot := slotOf_allocate hlen hn
  have hcell := cellAt_allocate hm.toIndexed hgrid hn hfresh
  have hend : (m.allocate id).idxEnd = m.idxEnd := by simp [MapStore.allocate, idxEnd]
  have hle := h.length_le
  rw [length_serialize] at hle
  have hentry : m.indexes[id]? = some noSlot := by
    rw [List.getElem?_eq_getElem hlen]
    congr 1
    by_contra hne
    have hnn := hm.index_nonneg _ (List.getElem_mem hlen) hne
    have hs := slotOf_eq_some.mpr ⟨_, List.getElem?_eq_getElem hlen, hne,
      toUsize_eq_some.mpr (Int.toNat_of_nonneg hnn).symm⟩
    rw [hfresh] at hs
    cases hs
  -- nothing of the new block is in the file yet
  have hpast : ¬ m.idxEnd + m.blocks.length * blockCells < f.length := by
    rw [idxEnd]
    omega
  exact {
    width_eq := h.width_eq
    height_eq := h.height_eq
    kept := by
      intro j s hj
      have hmj := h.kept j s hj
      rw [hslot, if_neg, hmj]
      rintro rfl
      rw [hfresh] at hmj
      cases hmj
    same := fun j k hk => by rw [hcell, h.same j k hk]
    length_le := by
      rw [length_serialize]
      simp only [MapStore.allocate, List.length_set, List.length_append]
      rw [Nat.add_mul]
      omega
    le_length := hend ▸ h.le_length
    header := by
      intro p hp
      rw [h.header p hp, header_serialize _ hp, header_serialize _ hp]
      rfl
    row := by
      intro j v hv
      by_cases hj : j = id
      · subst hj
        obtain ⟨k, hk⟩ := h.row j noSlot hentry
        exact ⟨0, fun t ht => by rw [hk t ht, ite_self, if_neg (Nat.not_lt_zero t)]⟩
      · rw [MapStore.allocate, List.getElem?_set_ne (Ne.symm hj)] at hv
        exact h.row j v hv
    named := by
      intro j s v hj hin hv
      rw [hend] at hin
      rw [hslot] at hj
      split at hj
      · cases hj
        exact absurd hin hpast
      · rename_i hne
        rw [MapStore.allocate, List.getElem?_set_ne (Ne.symm hne)] at hv
        exact h.named j s v hj hin hv
    bytes := by
      intro j s k v hj hk hfree hv
      rw [hend] at hv
      rw [hslot] at hj
      split at hj
      · cases hj
        have := (List.getElem?_eq_some_iff.mp hv).1
        omega
      · rw [hcell]
        exact h.bytes j s k v hj hk hfree hv }

/-- The live store moves on under the file, touching the cell that it sets. -/
theorem Recoverable.setCell {ck m : MapStore} {touched : Nat → Nat → Prop} {f : List UInt8}
    (hm : m.WellFormed) (h : Recoverable ck m touched f) {x y : Int32} (cell : UInt8)
    (htouched : ∀ id c, m.locate x y = some (id, c) → touched id c) :
    Recoverable ck (m.setCell x y cell) touched f := by
  cases hloc : m.locate x y with
  | none => rwa [setCell_of_locate_none cell hloc]
  | some q =>
      obtain ⟨hgrid, hid, hc⟩ := locate_lt hm.toIndexed hloc
      have ht := htouched q.1 q.2 hloc
      cases hs : m.slotOf q.1 with
      | some slot =>
          rw [setCell_of_slot cell hloc hs]
          exact h.writeSlot hm cell hs hc ht
      | none =>
          rw [setCell_of_fresh cell hloc hs]
          have hnew : (m.allocate q.1).slotOf q.1 = some m.blocks.length := by
            rw [slotOf_allocate (hm.length_indexes ▸ hgrid) (newSlot_fits hm hid hs), if_pos rfl]
          exact (h.allocate hm hgrid hid hs).writeSlot (allocate_wellFormed hm hgrid hid hs) cell hnew hc ht

/-- All rows of the table are written. -/
def TableDone (m : MapStore) (f : List UInt8) : Prop :=
  ∀ id v, m.indexes[id]? = some v → ∀ t < 4, f[headerBytes + id * 4 + t]? = (i32ToBytes v)[t]?

theorem Recoverable.idxEnd_le {ck m : MapStore} {touched : Nat → Nat → Prop} {f : List UInt8}
    (h : Recoverable ck m touched f) : m.idxEnd ≤ f.length := (Nat.le_add_right _ _).trans h.le_length

theorem row_lt {m : MapStore} {id : Nat} {v : Int32} (h : m.indexes[id]? = some v) {t : Nat}
    (ht : t < 4) : headerBytes + id * 4 + t < m.idxEnd := by
  obtain ⟨hid, -⟩ := List.getElem?_eq_some_iff.mp h
  rw [idxEnd]
  omega

/-- Storing a byte of a block once the table is written. -/
theorem Recoverable.poke_block {ck m : MapStore} {touched : Nat → Nat → Prop} {f : List UInt8}
    (hck : ck.WellFormed) (h : Recoverable ck m touched f) (htable : TableDone m f) {p : Nat}
    {b : UInt8} (hp : m.idxEnd ≤ p) (hb : m.serialize[p]? = some b) :
    Recoverable ck m touched (poke f p b) ∧ TableDone m (poke f p b) := by
  have hend := h.idxEnd_le
  have hhead : headerBytes ≤ m.idxEnd := Nat.le_add_right _ _
  have hold {q : Nat} (hq : q < m.idxEnd) : (poke f p b)[q]? = f[q]? :=
    getElem?_poke_of_ne b (by omega) (by omega)
  have hrow : TableDone m (poke f p b) :=
    fun id v hv t ht => (hold (row_lt hv ht)).trans (htable id v hv t ht)
  refine ⟨?_, hrow⟩
  exact { h with
    length_le := by
      have := (List.getElem?_eq_some_iff.mp hb).1
      have := h.length_le
      rw [length_poke]
      omega
    le_length := by
      have := h.le_length
      rw [length_poke]
      omega
    header := fun q hq => (hold (by omega)).trans (h.header q hq)
    row := fun id v hv => ⟨4, fun t ht => by rw [if_pos ht, hrow id v hv t ht]⟩
    named := fun id s v _ _ hv => hrow id v hv
    bytes := by
      intro id s c v hs hc hfree hv
      generalize hq : m.idxEnd + s * blockCells + c = q at hv
      by_cases hqp : q = p
      · rw [hqp, getElem?_poke_self] at hv
        rw [← hqp, ← hq] at hb
        exact block_serialize hs hc (hb.trans hv)
      · by_cases hlt : q < f.length
        · rw [getElem?_poke_of_ne b hqp hlt] at hv
          exact h.bytes id s c v hs hc hfree (hq ▸ hv)
        · by_cases hgap : q < p
          · -- a hole in front of the block shows zeros, as a block the checkpoint did not have
            rw [getElem?_poke_gap b hqp (by omega) hgap] at hv
            have hnone : ck.slotOf id = none := by
              cases hck' : ck.slotOf id with
              | none => rfl
              | some s' =>
                  have hlast := (slotOf_lt hck.toIndexed hck').1
                  have hsame := Option.some.inj ((h.kept id s' hck').symm.trans hs)
                  have hle := h.le_length
                  have := Nat.mul_le_mul_right blockCells (show s + 1 ≤ ck.blocks.length by omega)
                  rw [Nat.succ_mul] at this
                  omega
            rw [h.same id c hfree, cellAt_of_slotOf_none hnone]
            exact (Option.some.inj hv).symm
          · have hin := (List.getElem?_eq_some_iff.mp hv).1
            rw [length_poke] at hin
            omega }

theorem Recoverable.pokes_blocks {ck m : MapStore} {touched : Nat → Nat → Prop} {f : List UInt8}
    (hck : ck.WellFormed) (h : Recoverable ck m touched f) (htable : TableDone m f)
    {ws : List (Nat × UInt8)} (hws : ∀ w ∈ ws, m.idxEnd ≤ w.1 ∧ m.serialize[w.1]? = some w.2) :
    Recoverable ck m touched (pokes f ws) := by
  induction ws generalizing f with
  | nil => exact h
  | cons w ws ih =>
      obtain ⟨hp, hb⟩ := hws w (by simp)
      obtain ⟨hnext, htable⟩ := h.poke_block hck htable hp hb
      exact ih hnext htable (fun u hu => hws u (List.mem_cons_of_mem _ hu))

/-- The table written up to some byte: each row is old, torn or new. -/
theorem Recoverable.pokes_table {ck m : MapStore} {touched : Nat → Nat → Prop} {f : List UInt8}
    (h : Recoverable ck m touched f) (n : Nat) :
    Recoverable ck m touched
      (pokes f ((spread headerBytes (m.indexes.flatMap i32ToBytes)).take n)) ∧
    (4 * m.indexes.length ≤ n → TableDone m
      (pokes f ((spread headerBytes (m.indexes.flatMap i32ToBytes)).take n))) := by
  have hend := h.idxEnd_le
  have hfits : headerBytes + (m.indexes.flatMap i32ToBytes).length ≤ f.length := by
    rw [length_table]
    exact hend
  obtain ⟨hlen, hget⟩ := pokes_spread_take hfits n
  generalize pokes f ((spread headerBytes (m.indexes.flatMap i32ToBytes)).take n) = g at hlen hget
  have hnew (id : Nat) (v : Int32) (hv : m.indexes[id]? = some v) (t : Nat) (ht : t < 4) :
      g[headerBytes + id * 4 + t]? =
        if id * 4 + t < n then (i32ToBytes v)[t]? else f[headerBytes + id * 4 + t]? := by
    have hbyte : (m.indexes.flatMap i32ToBytes)[headerBytes + id * 4 + t - headerBytes]? =
        some ((i32ToBytes v).get ⟨t, by rw [length_i32ToBytes]; exact ht⟩) := by
      rw [Lib.FixedWidth.getElem?_flatMap i32ToBytes 4 (by decide) length_i32ToBytes,
        show (headerBytes + id * 4 + t - headerBytes) / 4 = id by omega,
        show (headerBytes + id * 4 + t - headerBytes) % 4 = t by omega, hv]
      exact List.getElem?_eq_getElem _
    rw [hget, hbyte]
    by_cases hn : id * 4 + t < n
    · rw [if_pos (by omega), if_pos hn]
      exact (List.getElem?_eq_getElem _).symm
    · rw [if_neg (by omega), if_neg hn]
  have hblock (q : Nat) (hq : m.idxEnd ≤ q) : g[q]? = f[q]? := by
    rw [hget]
    split
    · rw [List.getElem?_eq_none (by rw [length_table]; rw [idxEnd] at hq; omega)]
      rfl
    · rfl
  refine ⟨?_, ?_⟩
  · exact { h with
      length_le := hlen ▸ h.length_le
      le_length := hlen ▸ h.le_length
      header := by
        intro q hq
        rw [hget, if_neg (by omega), h.header q hq]
      row := by
        intro id v hv
        obtain ⟨k, hk⟩ := h.row id v hv
        refine ⟨max k (n - id * 4), fun t ht => ?_⟩
        rw [hnew id v hv t ht, hk t ht]
        by_cases hn : id * 4 + t < n
        · rw [if_pos hn, if_pos (by omega)]
        · rw [if_neg hn]
          by_cases hkt : t < k
          · rw [if_pos hkt, if_pos (by omega)]
          · rw [if_neg hkt, if_neg (by omega)]
      named := by
        intro id s v hs hin hv t ht
        rw [hnew id v hv t ht, h.named id s v hs (hlen ▸ hin) hv t ht, ite_self]
      bytes := by
        intro id s c v hs hc hfree hv
        rw [hblock _ (by omega)] at hv
        exact h.bytes id s c v hs hc hfree hv }
  · intro hn id v hv t ht
    have hrow := row_lt hv ht
    rw [idxEnd] at hrow
    rw [hnew id v hv t ht, if_pos (by omega)]

/-- A flush cut after any number of byte stores leaves a recoverable file. -/
theorem Recoverable.pokes_writes {ck m m' : MapStore} {touched : Nat → Nat → Prop} {f : List UInt8}
    {b : MapFlushBatch} (hm : m.WellFormed) (hck : ck.WellFormed) (h : Recoverable ck m touched f)
    (hfile : m.FileAgrees f []) (htake : m.takeFlushBatch = some (b, m')) (n : Nat) :
    Recoverable ck m touched (pokes f (b.writes.take n)) := by
  have hheader : pokes f (b.headerWrites.take n) = f := by
    apply pokes_eq_self
    intro w hw
    obtain ⟨hlt, -, hv⟩ := (mem_headerWrites htake).mp (List.mem_of_mem_take hw)
    rw [h.header w.1 hlt, hv]
  have hindex : (b.indexWrites = [] ∧ TableDone m f) ∨
      b.indexWrites = spread headerBytes (m.indexes.flatMap i32ToBytes) := by
    rw [MapFlushBatch.indexWrites, (takeFlushBatch_eq_some htake).2.1]
    cases hdirty : m.indexDirty with
    | true => exact Or.inr rfl
    | false =>
        refine Or.inl ⟨rfl, ?_⟩
        intro id v hv t ht
        have hlt := row_lt hv ht
        have hin : headerBytes + id * 4 + t < m.serialize.length := by
          rw [length_serialize]
          rw [idxEnd] at hlt
          omega
        have hclean : ¬ m.DirtyAt (headerBytes + id * 4 + t) := by
          rw [DirtyAt, if_neg (by omega), if_pos hlt, hdirty]
          simp
        rw [hfile.clean_eq _ hin hclean (by simp), row_serialize hv ht]
  have htable (k : Nat) : Recoverable ck m touched (pokes f (b.indexWrites.take k)) ∧
      (b.indexWrites.length ≤ k → TableDone m (pokes f (b.indexWrites.take k))) := by
    rcases hindex with ⟨hnil, hdone⟩ | hspread
    · simpa [hnil] using ⟨h, hdone⟩
    · obtain ⟨hrec, hdone⟩ := h.pokes_table k
      rw [hspread, length_spread, length_table, Nat.mul_comm]
      exact ⟨hrec, hdone⟩
  have hslots : ∀ w ∈ b.slotWrites, m.idxEnd ≤ w.1 ∧ m.serialize[w.1]? = some w.2 := by
    intro w hw
    obtain ⟨hend, -, hv⟩ := (mem_slotWrites hm htake).mp hw
    exact ⟨hend, hv⟩
  rw [MapFlushBatch.writes, List.take_append, List.take_append, pokes_append, pokes_append, hheader]
  generalize hk : n - b.headerWrites.length = k
  obtain ⟨hrec, hdone⟩ := htable k
  by_cases hfull : b.indexWrites.length ≤ k
  · exact hrec.pokes_blocks hck (hdone hfull) (fun w hw => hslots w (List.mem_of_mem_take hw))
  · have hnone : n - (b.headerWrites ++ b.indexWrites).length = 0 := by
      rw [List.length_append]
      omega
    rw [hnone, List.take_zero]
    exact hrec

/-- The bytes of a table entry whose top byte is the one of `noSlot` are negative. -/
theorem i32OfBytes_top_neg {a b c : UInt8} : (i32OfBytes [a, b, c, 255]).toInt < 0 := by
  have ha := a.toNat_lt
  have hb := b.toNat_lt
  have hc := c.toNat_lt
  have hn : ofBytes [a, b, c, 255] = a.toNat + 256 * (b.toNat + 256 * (c.toNat + 256 * 255)) := rfl
  have hint : (i32OfBytes [a, b, c, 255]).toInt = ((ofBytes [a, b, c, 255] : Nat) : Int).bmod (2 ^ 32) := by
    rw [i32OfBytes, Int32.toInt_ofNat']
    rfl
  rw [hint, Int.bmod_def]
  split <;> omega

theorem i32ToBytes_noSlot : i32ToBytes noSlot = [255, 255, 255, 255] := by decide

theorem Recoverable.header_eq {ck m : MapStore} {touched : Nat → Nat → Prop} {f : List UInt8}
    (h : Recoverable ck m touched f) :
    f.take 4 = i32ToBytes m.width ∧ (f.drop 4).take 4 = i32ToBytes m.height := by
  have hw := length_i32ToBytes m.width
  have hh := length_i32ToBytes m.height
  have hget (p : Nat) (hp : p < 8) : f[p]? = (i32ToBytes m.width ++ i32ToBytes m.height)[p]? := by
    rw [h.header p hp, header_serialize m hp]
  refine ⟨?_, ?_⟩
  · apply List.ext_getElem?
    intro t
    by_cases ht : t < 4
    · rw [List.getElem?_take_of_lt ht, hget t (by omega), List.getElem?_append_left (by omega)]
    · rw [List.getElem?_eq_none (by rw [List.length_take]; omega), List.getElem?_eq_none (by omega)]
  · apply List.ext_getElem?
    intro t
    by_cases ht : t < 4
    · rw [List.getElem?_take_of_lt ht, List.getElem?_drop, hget (4 + t) (by omega),
        List.getElem?_append_right (by omega), hw, Nat.add_sub_cancel_left]
    · rw [List.getElem?_eq_none (by rw [List.length_take]; omega), List.getElem?_eq_none (by omega)]

section Reload

variable {ck m m' : MapStore} {touched : Nat → Nat → Prop} {f : List UInt8}

theorem Recoverable.reload_shape (hm : m.WellFormed) (h : Recoverable ck m touched f)
    (hok : deserialize f = .ok m') : m'.width = m.width ∧ m'.height = m.height ∧
      m'.indexes.length = m.indexes.length ∧ m'.isDirty = false := by
  obtain ⟨hw, hh⟩ := h.header_eq
  obtain ⟨store, slots, back, hnew, hlen, -, -, -, he⟩ := deserialize_eq_ok hok
  rw [hw, hh, i32OfBytes_i32ToBytes, i32OfBytes_i32ToBytes] at hnew
  have hshape := (new_spec hnew).2.2.2.2
  have hstore := (new_wellFormed hnew).length_indexes
  rw [he, hm.length_indexes]
  refine ⟨by rw [hshape], by rw [hshape], ?_, rfl⟩
  simp only [← hlen, hstore, grid, hm.blocksW_eq, hm.blocksH_eq]
  rw [hshape]

/-- The entry that the reader finds in a row. -/
theorem Recoverable.reload_entry (h : Recoverable ck m touched f) (hok : deserialize f = .ok m')
    {id : Nat} {v v' : Int32} (hv : m.indexes[id]? = some v) (hv' : m'.indexes[id]? = some v') :
    ∃ row : List UInt8, row.length = 4 ∧ v' = i32OfBytes row ∧
      ∀ t < 4, row[t]? = f[headerBytes + id * 4 + t]? := by
  obtain ⟨hindexes, -, -⟩ := deserialize_fields hok
  obtain ⟨store, -, -, hnew, -⟩ := deserialize_eq_ok hok
  obtain ⟨hid, -⟩ := List.getElem?_eq_some_iff.mp hv'
  rw [hindexes, ← readTable_eq_tableOf hnew] at hid hv'
  rw [length_readTable] at hid
  rw [getElem?_readTable _ _ _ hid, List.drop_drop] at hv'
  have hend := h.idxEnd_le
  have hrow := row_lt hv (show 3 < 4 by decide)
  refine ⟨_, ?_, (Option.some.inj hv').symm, ?_⟩
  · rw [List.length_take, List.length_drop]
    omega
  · intro t ht
    rw [List.getElem?_take_of_lt ht, List.getElem?_drop, Nat.mul_comm 4]

theorem Recoverable.reload_entry_of_done (h : Recoverable ck m touched f)
    (hok : deserialize f = .ok m') {id : Nat} {v v' : Int32} (hv : m.indexes[id]? = some v)
    (hv' : m'.indexes[id]? = some v')
    (hdone : ∀ t < 4, f[headerBytes + id * 4 + t]? = (i32ToBytes v)[t]?) : v' = v := by
  obtain ⟨row, hlen, rfl, hrow⟩ := h.reload_entry hok hv hv'
  have hsame : row = i32ToBytes v := by
    apply List.ext_getElem?
    intro t
    by_cases ht : t < 4
    · rw [hrow t ht, hdone t ht]
    · rw [List.getElem?_eq_none (by omega), List.getElem?_eq_none (by rw [length_i32ToBytes]; omega)]
  rw [hsame, i32OfBytes_i32ToBytes]

/-- An entry of an accepted table is `noSlot` or the live entry, whole. -/
theorem Recoverable.reload_entry_cases (h : Recoverable ck m touched f) (hok : deserialize f = .ok m')
    {id : Nat} {v v' : Int32} (hv : m.indexes[id]? = some v) (hv' : m'.indexes[id]? = some v') :
    v' = noSlot ∨ v' = v := by
  obtain ⟨k, hk⟩ := h.row id v hv
  by_cases hdone : 4 ≤ k
  · exact Or.inr (h.reload_entry_of_done hok hv hv' (fun t ht => by rw [hk t ht, if_pos (by omega)]))
  · left
    by_contra hne
    obtain ⟨s, hs, -⟩ := fillBackIndex_entries (deserialize_fields hok).2.2 v' (List.mem_of_getElem? hv') hne
    have hnn := toUsize_eq_some.mp hs
    obtain ⟨row, hlen, rfl, hrow⟩ := h.reload_entry hok hv hv'
    obtain ⟨b0, b1, b2, b3, rfl⟩ := exists_of_length_four hlen
    have htop := hrow 3 (by decide)
    rw [hk 3 (by decide), if_neg (by omega), i32ToBytes_noSlot] at htop
    have hb3 : b3 = 255 := by simpa using htop
    have hneg : (i32OfBytes [b0, b1, b2, 255]).toInt < 0 := i32OfBytes_top_neg
    rw [hb3] at hnn
    omega

/-- The reader finds the blocks that are all in the file, under their live slots. -/
theorem Recoverable.reload_slotOf (hm : m.WellFormed) (h : Recoverable ck m touched f)
    (hok : deserialize f = .ok m') (id s : Nat) :
    m'.slotOf id = some s ↔ m.slotOf id = some s ∧ s < m'.blocks.length := by
  obtain ⟨-, -, hlen, -⟩ := h.reload_shape hm hok
  obtain ⟨-, -, hfill⟩ := deserialize_fields hok
  have hfits := (serialize_deserialize hok).2
  have hend : m'.idxEnd = m.idxEnd := by rw [idxEnd, hlen, idxEnd]
  constructor
  · intro hs
    obtain ⟨v', hv', hne, hvs⟩ := slotOf_eq_some.mp hs
    obtain ⟨hid, -⟩ := List.getElem?_eq_some_iff.mp hv'
    have hv := List.getElem?_eq_getElem (hlen ▸ hid)
    obtain ⟨t, ht, hlt⟩ := fillBackIndex_entries hfill v' (List.mem_of_getElem? hv') hne
    rw [hvs] at ht
    rcases h.reload_entry_cases hok hv hv' with hno | he
    · exact absurd hno hne
    · exact ⟨slotOf_eq_some.mpr ⟨v', he ▸ hv, hne, hvs⟩, Option.some.inj ht ▸ hlt⟩
  · rintro ⟨hs, hlt⟩
    obtain ⟨v, hv, hne, hvs⟩ := slotOf_eq_some.mp hs
    obtain ⟨hid, -⟩ := List.getElem?_eq_some_iff.mp hv
    have hv' := List.getElem?_eq_getElem (hlen ▸ hid)
    have hin : m.idxEnd + s * blockCells < f.length := by
      have := Nat.mul_le_mul_right blockCells (show s + 1 ≤ m'.blocks.length from hlt)
      rw [Nat.succ_mul] at this
      simp only [blockCells] at this hfits ⊢
      omega
    rw [h.reload_entry_of_done hok hv hv' (h.named id s v hs hin hv)] at hv'
    exact slotOf_eq_some.mpr ⟨v, hv', hne, hvs⟩

theorem Recoverable.reload_length (hm : m.WellFormed) (h : Recoverable ck m touched f)
    (hok : deserialize f = .ok m') : f.length = m'.idxEnd + m'.blocks.length * blockCells := by
  obtain ⟨-, -, hlen, -⟩ := h.reload_shape hm hok
  have hfits := (serialize_deserialize hok).2
  have hend : m'.idxEnd = m.idxEnd := by rw [idxEnd, hlen, idxEnd]
  by_contra hne
  have hlt : m.idxEnd + m'.blocks.length * blockCells < f.length := by omega
  have hle := h.length_le
  rw [length_serialize] at hle
  have hmore : m'.blocks.length < m.blocks.length := by
    by_contra hge
    have := Nat.mul_le_mul_right blockCells (show m.blocks.length ≤ m'.blocks.length by omega)
    rw [idxEnd] at hlt
    omega
  -- the owner of the first slot that is not all there has its row in the file
  have hback := List.getElem?_eq_getElem (show m'.blocks.length < m.backIndex.length by
    rw [hm.length_backIndex]
    exact hmore)
  have hs := hm.slot_of_back _ _ hback
  obtain ⟨v, hv, hvne, hvs⟩ := slotOf_eq_some.mp hs
  obtain ⟨hid, -⟩ := List.getElem?_eq_some_iff.mp hv
  have hv' := List.getElem?_eq_getElem (hlen ▸ hid)
  rw [h.reload_entry_of_done hok hv hv' (h.named _ _ v hs hlt hv)] at hv'
  have hs' := slotOf_eq_some.mpr ⟨v, hv', hvne, hvs⟩
  have := ((h.reload_slotOf hm hok _ _).mp hs').2
  omega

theorem Recoverable.reload_wellFormed (hm : m.WellFormed) (h : Recoverable ck m touched f)
    (hok : deserialize f = .ok m') : m'.WellFormed := by
  have hslot := h.reload_slotOf hm hok
  have hlength := h.reload_length hm hok
  obtain ⟨-, -, hlen, -⟩ := h.reload_shape hm hok
  have hend : m'.idxEnd = m.idxEnd := by rw [idxEnd, hlen, idxEnd]
  have hle := h.length_le
  rw [length_serialize] at hle
  have hblocks : m'.blocks.length ≤ m.blocks.length := by
    by_contra hgt
    have := Nat.mul_le_mul_right blockCells (show m.blocks.length + 1 ≤ m'.blocks.length by omega)
    rw [Nat.succ_mul] at this
    simp only [blockCells, idxEnd] at this hle hlength hend
    omega
  have hindexed : m'.Indexed := by
    refine accepted_indexed hok ?_ ?_
    · intro i j s hi hj
      have hbi := hm.back_of_slot i s ((hslot i s).mp hi).1
      have hbj := hm.back_of_slot j s ((hslot j s).mp hj).1
      exact Option.some.inj (hbi.symm.trans hbj)
    · intro s hs
      have hback := List.getElem?_eq_getElem (show s < m.backIndex.length by
        rw [hm.length_backIndex]
        omega)
      exact ⟨_, (hslot _ s).mpr ⟨hm.slot_of_back s _ hback, hs⟩⟩
  refine ⟨hindexed, ?_⟩
  intro id hid
  obtain ⟨s, hs⟩ := List.mem_iff_getElem?.mp hid
  have hms := ((hslot id s).mp (hindexed.slot_of_back s id hs)).1
  exact hm.back_lt id (List.mem_of_getElem? (hm.back_of_slot id s hms))

theorem Recoverable.reload_grid (hm : m.WellFormed) (h : Recoverable ck m touched f)
    (hok : deserialize f = .ok m') : m'.blocksW = m.blocksW ∧ m'.blocksH = m.blocksH := by
  obtain ⟨hw, hh, -, -⟩ := h.reload_shape hm hok
  have hwf := h.reload_wellFormed hm hok
  exact ⟨by rw [hwf.blocksW_eq, hm.blocksW_eq, hw], by rw [hwf.blocksH_eq, hm.blocksH_eq, hh]⟩

theorem Recoverable.reload_serialize (hm : m.WellFormed) (h : Recoverable ck m touched f)
    (hok : deserialize f = .ok m') : m'.serialize = f := by
  rw [(serialize_deserialize hok).1, ← h.reload_length hm hok, List.take_length]

theorem Recoverable.le_length_reload (hm : m.WellFormed) (h : Recoverable ck m touched f)
    (hok : deserialize f = .ok m') : ck.blocks.length ≤ m'.blocks.length := by
  obtain ⟨-, -, hlen, -⟩ := h.reload_shape hm hok
  have hle := h.le_length
  rw [h.reload_length hm hok, idxEnd, idxEnd, hlen] at hle
  exact Nat.le_of_mul_le_mul_right (by omega) (show 0 < blockCells by decide)

/-- Outside the touched cells the reader finds the live cells. -/
theorem Recoverable.reload_cellAt (hm : m.WellFormed) (hck : ck.WellFormed)
    (h : Recoverable ck m touched f) (hok : deserialize f = .ok m') (id c : Nat)
    (hfree : ¬ touched id c) : m'.cellAt id c = m.cellAt id c := by
  have hslot := h.reload_slotOf hm hok
  have hwf := h.reload_wellFormed hm hok
  have hser := h.reload_serialize hm hok
  obtain ⟨-, -, hlen, -⟩ := h.reload_shape hm hok
  have hend : m'.idxEnd = m.idxEnd := by rw [idxEnd, hlen, idxEnd]
  cases hs : m'.slotOf id with
  | some s =>
      have hms := ((hslot id s).mp hs).1
      by_cases hc : c < blockCells
      · have hlt := (slotOf_lt hwf.toIndexed hs).1
        have hin : m'.idxEnd + s * blockCells + c < f.length := by
          rw [h.reload_length hm hok]
          have := Nat.mul_le_mul_right blockCells (show s + 1 ≤ m'.blocks.length from hlt)
          rw [Nat.succ_mul] at this
          omega
        have hbyte := List.getElem?_eq_getElem hin
        generalize f[m'.idxEnd + s * blockCells + c] = byte at hbyte
        have hlive : byte = m.cellAt id c := h.bytes id s c byte hms hc hfree (by rw [← hend, hbyte])
        rw [← hser] at hbyte
        rw [← block_serialize hs hc hbyte, hlive]
      · have hpast (n : MapStore) (k : Nat) : n.slotOf id = some k → n.cellAt id c = 0 := by
          intro hk
          simp only [cellAt, hk]
          cases n.blocks[k]? with
          | none => rfl
          | some b => simp [Vector.getElem?_eq_none (show blockCells ≤ c by omega)]
        rw [hpast m' s hs, hpast m s hms]
  | none =>
      rw [cellAt_of_slotOf_none hs, h.same id c hfree, cellAt_of_slotOf_none]
      cases hcks : ck.slotOf id with
      | none => rfl
      | some s =>
          have hlt := (slotOf_lt hck.toIndexed hcks).1
          have hle := h.le_length_reload hm hok
          have hs' := (hslot id s).mpr ⟨h.kept id s hcks, by omega⟩
          rw [hs] at hs'
          cases hs'

/-- What the reader returns can take the place of the live store. -/
theorem Recoverable.reload (hm : m.WellFormed) (hck : ck.WellFormed)
    (h : Recoverable ck m touched f) (hok : deserialize f = .ok m') :
    Recoverable ck m' touched f := by
  obtain ⟨hwidth, hheight, -, -⟩ := h.reload_shape hm hok
  have hle := h.le_length_reload hm hok
  have hser := h.reload_serialize hm hok
  rw [← hser]
  refine recoverable_serialize (h.width_eq.trans hwidth.symm) (h.height_eq.trans hheight.symm) ?_ hle ?_
  · intro id s hs
    have hlt := (slotOf_lt hck.toIndexed hs).1
    exact (h.reload_slotOf hm hok id s).mpr ⟨h.kept id s hs, by omega⟩
  · intro id c hfree
    rw [h.reload_cellAt hm hck hok id c hfree, h.same id c hfree]

/-- A recoverable file is accepted just when its table is covered. -/
theorem Recoverable.deserialize_ok_iff (hm : m.WellFormed) (h : Recoverable ck m touched f) :
    (∃ m', deserialize f = .ok m') ↔ Covered f := by
  obtain ⟨hw, hh⟩ := h.header_eq
  obtain ⟨store, hnew, -, -, -, -, hlen, -⟩ := new_eq_ok hm.toIndexed
  rw [← i32OfBytes_i32ToBytes m.width, ← i32OfBytes_i32ToBytes m.height, ← hw, ← hh] at hnew
  refine MapStore.deserialize_ok_iff hnew ?_
  rw [idxEnd, hlen]
  exact h.idxEnd_le

end Reload

end OpenMines.MapFormat.MapStore
