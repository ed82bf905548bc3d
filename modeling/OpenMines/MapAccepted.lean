import OpenMines.MapRoundTrip

namespace OpenMines.MapFormat.MapStore

open Lib.LittleEndian

/-- The index table of a file, as many entries as its header says. -/
def tableOf (bytes : List UInt8) : List Int32 :=
  readTable ((i32OfBytes (bytes.take 4) / blockSize).toNatClampNeg *
    (i32OfBytes ((bytes.drop 4).take 4) / blockSize).toNatClampNeg) (bytes.drop headerBytes)

/-- The slots that a table names, in block order. -/
def slotsNamed (table : List Int32) : List Nat :=
  table.filterMap (fun v => if v = noSlot then none else toUsize v)

@[simp] theorem length_readTable (n : Nat) (bs : List UInt8) : (readTable n bs).length = n := by
  induction n generalizing bs with
  | zero => rfl
  | succ n ih => simp [readTable, ih]

@[simp] theorem length_readBlocks (n : Nat) (bs : List UInt8) : (readBlocks n bs).length = n := by
  induction n generalizing bs with
  | zero => rfl
  | succ n ih => simp [readBlocks, ih]

theorem mem_slotsNamed {table : List Int32} {s : Nat} :
    s ∈ slotsNamed table ↔ ∃ id, Names table id s := by
  simp only [slotsNamed, List.mem_filterMap, Names]
  constructor
  · rintro ⟨v, hv, hs⟩
    split at hs
    · cases hs
    · obtain ⟨id, hid⟩ := List.mem_iff_getElem?.mp hv
      exact ⟨id, v, hid, by assumption, hs⟩
  · rintro ⟨id, v, hid, hne, hs⟩
    exact ⟨v, List.mem_of_getElem? hid, by simp [hne, hs]⟩

theorem nodup_slotsNamed {table : List Int32} : (slotsNamed table).Nodup ↔
    ∀ i j s, Names table i s → Names table j s → i = j := by
  rw [slotsNamed, List.Nodup, List.pairwise_filterMap, List.pairwise_iff_getElem]
  constructor
  · intro h
    have hlt (i j s : Nat) (hij : i < j) (hi : Names table i s) (hj : Names table j s) : False := by
      obtain ⟨v, hv, hvne, hvs⟩ := hi
      obtain ⟨w, hw, hwne, hws⟩ := hj
      obtain ⟨hilt, rfl⟩ := List.getElem?_eq_some_iff.mp hv
      obtain ⟨hjlt, rfl⟩ := List.getElem?_eq_some_iff.mp hw
      exact h i j hilt hjlt hij s (by rw [if_neg hvne, hvs]) s (by rw [if_neg hwne, hws]) rfl
    intro i j s hi hj
    rcases Nat.lt_trichotomy i j with hij | hij | hij
    · exact (hlt i j s hij hi hj).elim
    · exact hij
    · exact (hlt j i s hij hj hi).elim
  · intro h i j hi hj hij s hs t ht he
    subst he
    have hname (k : Nat) (hk : k < table.length)
        (hs : (if table[k] = noSlot then none else toUsize table[k]) = some s) : Names table k s := by
      split at hs
      · cases hs
      · exact ⟨_, List.getElem?_eq_getElem hk, by assumption, hs⟩
    have := h i j s (hname i hi hs) (hname j hj ht)
    omega

theorem readTable_eq_tableOf {bytes : List UInt8} {store : MapStore}
    (hnew : new (i32OfBytes (bytes.take 4)) (i32OfBytes ((bytes.drop 4).take 4)) = .ok store) :
    readTable store.indexes.length (bytes.drop headerBytes) = tableOf bytes := by
  have hm := (new_wellFormed hnew).toIndexed
  have he := (new_spec hnew).2.2.2.2
  have hwidth : store.width = i32OfBytes (bytes.take 4) := by rw [he]
  have hheight : store.height = i32OfBytes ((bytes.drop 4).take 4) := by rw [he]
  rw [tableOf, hm.length_indexes, grid, hm.blocksW_eq, hm.blocksH_eq, hwidth, hheight]

/-- What the reader went through when it accepts. -/
theorem deserialize_eq_ok {bytes : List UInt8} {m : MapStore} (h : deserialize bytes = .ok m) :
    ∃ store slots back, new (i32OfBytes (bytes.take 4)) (i32OfBytes ((bytes.drop 4).take 4)) = .ok store ∧
      store.indexes.length = (tableOf bytes).length ∧
      slots = (toUsize (indexSize (tableOf bytes))).getD 0 ∧
      headerBytes + store.indexes.length * 4 + slots * blockCells ≤ bytes.length ∧
      fillBackIndex slots 0 (tableOf bytes) (List.replicate slots 0) = .ok back ∧
      m = { store with
        indexes := tableOf bytes
        backIndex := back
        blocks := readBlocks slots (bytes.drop (headerBytes + store.indexes.length * 4))
        dirty := List.replicate slots false
        dirtySlots := []
        indexDirty := false
        needsHeader := false } := by
  unfold deserialize at h
  split at h
  · cases h
  · split at h
    · cases h
    · rename_i store hnew
      have htable := readTable_eq_tableOf hnew
      simp only [htable] at h
      split at h
      · cases h
      · split at h
        · cases h
        · rename_i hneed
          split at h
          · cases h
          · rename_i back hfill
            cases h
            exact ⟨store, _, back, hnew, by rw [← htable, length_readTable], rfl, by omega, hfill, rfl⟩

theorem deserialize_fields {bytes : List UInt8} {m : MapStore} (h : deserialize bytes = .ok m) :
    m.indexes = tableOf bytes ∧ m.blocks.length = (toUsize (indexSize (tableOf bytes))).getD 0 ∧
      fillBackIndex m.blocks.length 0 m.indexes (List.replicate m.blocks.length 0) = .ok m.backIndex := by
  obtain ⟨store, slots, back, -, -, rfl, -, hfill, rfl⟩ := deserialize_eq_ok h
  exact ⟨rfl, length_readBlocks _ _, by simpa using hfill⟩

theorem accepted_blocks_lt {bytes : List UInt8} {m : MapStore} (h : deserialize bytes = .ok m) :
    m.blocks.length < 2 ^ 31 := by
  rw [(deserialize_fields h).2.1]
  exact indexSize_slots_lt _

/-- The number of slots comes from one of the entries. -/
theorem slots_eq {table : List Int32} (hpos : 0 < (toUsize (indexSize table)).getD 0) :
    ∃ v ∈ table, (v + 1).toInt = (toUsize (indexSize table)).getD 0 := by
  cases hu : toUsize (indexSize table) with
  | none =>
      rw [hu] at hpos
      exact absurd hpos (by simp)
  | some n =>
      have hz : (0 : Int32).toInt = 0 := by decide
      have hsize := toUsize_eq_some.mp hu
      obtain ⟨-, -, hwit⟩ := indexSize_foldl table 0
      change indexSize table = 0 ∨ ∃ v ∈ table, indexSize table = v + 1 at hwit
      rw [hu, Option.getD_some] at hpos
      rw [Option.getD_some]
      rcases hwit with hzero | ⟨v, hv, hsucc⟩
      · rw [hzero, hz] at hsize
        omega
      · exact ⟨v, hv, hsucc ▸ hsize⟩

/-- The last slot of an accepted file is named, so the named slots bound the
blocks from both sides. -/
theorem accepted_slotsNamed {bytes : List UInt8} {m : MapStore} (h : deserialize bytes = .ok m) :
    (∀ s ∈ slotsNamed (tableOf bytes), s < m.blocks.length) ∧
      (0 < m.blocks.length → m.blocks.length - 1 ∈ slotsNamed (tableOf bytes)) := by
  obtain ⟨hindexes, hlen, hfill⟩ := deserialize_fields h
  refine ⟨?_, ?_⟩
  · intro s hs
    obtain ⟨id, v, hv, hne, hvs⟩ := mem_slotsNamed.mp hs
    rw [hindexes] at hfill
    obtain ⟨t, ht, hlt⟩ := fillBackIndex_entries hfill v (List.mem_of_getElem? hv) hne
    rw [hvs] at ht
    exact Option.some.inj ht ▸ hlt
  · intro hpos
    rw [hlen] at hpos ⊢
    obtain ⟨v, hv, hsucc⟩ := slots_eq hpos
    have hmax := v.toInt_lt
    have hfits : v.toInt < 2 ^ 31 - 1 := by
      by_contra hge
      have hv : v = Int32.ofInt (2 ^ 31 - 1) := by
        apply Int32.toInt_inj.mp
        rw [show v.toInt = 2 ^ 31 - 1 by omega]
        decide
      rw [hv, show (Int32.ofInt (2 ^ 31 - 1) + 1).toInt = -2 ^ 31 by decide] at hsucc
      omega
    rw [toInt_add_one hfits] at hsucc
    obtain ⟨id, hid⟩ := List.mem_iff_getElem?.mp hv
    refine mem_slotsNamed.mpr ⟨id, v, hid, ?_, ?_⟩
    · rintro rfl
      have : noSlot.toInt = -1 := by decide
      omega
    · rw [toUsize_eq_some]
      omega

/-- The index arithmetic of the reader, `v + 1`, stays in range. -/
theorem accepted_entry_lt {bytes : List UInt8} {m : MapStore} (h : deserialize bytes = .ok m) :
    ∀ v ∈ tableOf bytes, v.toInt + 1 < 2 ^ 31 := by
  intro v hv
  by_cases hno : v = noSlot
  · subst hno
    decide
  · obtain ⟨hindexes, -, hfill⟩ := deserialize_fields h
    rw [hindexes] at hfill
    obtain ⟨s, hs, hlt⟩ := fillBackIndex_entries hfill v hv hno
    have := toUsize_eq_some.mp hs
    have := accepted_blocks_lt h
    omega

/-- The named slots are `0, …, n - 1`, each of them once. -/
def Packed (table : List Int32) : Prop :=
  (slotsNamed table).Perm (List.range (slotsNamed table).length)

instance (table : List Int32) : Decidable (Packed table) :=
  inferInstanceAs (Decidable ((slotsNamed table).Perm _))

theorem accepted_packed_iff {bytes : List UInt8} {m : MapStore} (h : deserialize bytes = .ok m) :
    Packed (tableOf bytes) ↔ (∀ i j s, m.slotOf i = some s → m.slotOf j = some s → i = j) ∧
      ∀ s < m.blocks.length, ∃ id, m.slotOf id = some s := by
  obtain ⟨hlt, hlast⟩ := accepted_slotsNamed h
  have hnames (i s : Nat) : Names (tableOf bytes) i s ↔ m.slotOf i = some s := by
    rw [← (deserialize_fields h).1, names_indexes]
  simp only [← hnames]
  rw [← nodup_slotsNamed]
  constructor
  · intro hperm
    have hmem (s : Nat) : s ∈ slotsNamed (tableOf bytes) ↔ s < (slotsNamed (tableOf bytes)).length := by
      rw [hperm.mem_iff, List.mem_range]
    refine ⟨hperm.nodup_iff.mpr List.nodup_range, ?_⟩
    intro s hs
    have hle := (hmem _).mp (hlast (by omega))
    exact mem_slotsNamed.mp ((hmem s).mpr (by omega))
  · rintro ⟨hnodup, hcover⟩
    have hrange : (slotsNamed (tableOf bytes)).Perm (List.range m.blocks.length) := by
      refine (List.perm_ext_iff_of_nodup hnodup List.nodup_range).mpr ?_
      intro s
      rw [List.mem_range]
      exact ⟨hlt s, fun hs => mem_slotsNamed.mpr (hcover s hs)⟩
    have hlen := hrange.length_eq
    rw [List.length_range] at hlen
    rw [Packed, hlen]
    exact hrange

/-- A packed table makes the accepted store as good as a grown one. -/
theorem accepted_indexed {bytes : List UInt8} {m : MapStore} (h : deserialize bytes = .ok m)
    (hinj : ∀ i j s, m.slotOf i = some s → m.slotOf j = some s → i = j)
    (hcover : ∀ s < m.blocks.length, ∃ id, m.slotOf id = some s) : m.Indexed := by
  obtain ⟨hindexes, -, hfill⟩ := deserialize_fields h
  have hentry := fillBackIndex_entries hfill
  obtain ⟨filled, hrun, hfilled, -, hset⟩ := fillBackIndex_spec m.indexes 0
    (List.replicate m.blocks.length 0) hentry
  rw [hfill] at hrun
  cases hrun
  rw [List.length_replicate] at hfilled hset
  have howner (s id : Nat) (hs : m.slotOf id = some s) : m.backIndex[s]? = some id := by
    obtain ⟨v, hv, hne, hvs⟩ := slotOf_eq_some.mp hs
    obtain ⟨t, ht, hlt⟩ := hentry v (List.mem_of_getElem? hv) hne
    rw [hvs] at ht
    refine hset s id (Option.some.inj ht ▸ hlt) ⟨id, names_indexes.mpr hs⟩ ?_
    intro i hi
    rw [Nat.zero_add, hinj i id s (names_indexes.mp hi) hs]
  obtain ⟨store, slots, back, hnew, hlen, rfl, -, -, he⟩ := deserialize_eq_ok h
  have hm := (new_wellFormed hnew).toIndexed
  exact {
    blocksW_eq := by rw [he]; exact hm.blocksW_eq
    blocksH_eq := by rw [he]; exact hm.blocksH_eq
    width_pos := by rw [he]; exact hm.width_pos
    height_pos := by rw [he]; exact hm.height_pos
    blocksW_pos := by rw [he]; exact hm.blocksW_pos
    blocksH_pos := by rw [he]; exact hm.blocksH_pos
    length_indexes := by
      rw [hindexes, ← hlen, hm.length_indexes, he]
      rfl
    length_backIndex := hfilled
    length_dirty := by
      rw [he]
      simp
    index_nonneg := by
      intro v hv hne
      obtain ⟨s, hs, -⟩ := hentry v hv hne
      have := toUsize_eq_some.mp hs
      omega
    back_of_slot := fun id s hs => howner s id hs
    slot_of_back := by
      intro s id hb
      obtain ⟨hlt, -⟩ := List.getElem?_eq_some_iff.mp hb
      obtain ⟨j, hj⟩ := hcover s (hfilled ▸ hlt)
      rw [howner s j hj] at hb
      rwa [Option.some.inj hb] at hj
    nodup_dirtySlots := by
      rw [he]
      exact List.nodup_nil
    mem_dirtySlots := by
      rw [he]
      simp [List.getElem?_replicate] }

theorem rowMajor_inj {w a b a' b' : Int} (ha : 0 ≤ a) (haw : a < w) (ha' : 0 ≤ a') (haw' : a' < w)
    (h : a + b * w = a' + b' * w) : a = a' ∧ b = b' := by
  have hmod := congrArg (· % w) h
  simp only [Int.add_mul_emod_self_right, Int.emod_eq_of_lt ha haw, Int.emod_eq_of_lt ha' haw'] at hmod
  subst hmod
  have hmul : b * w = b' * w := by omega
  exact ⟨rfl, Int.eq_of_mul_eq_mul_right (by omega) hmul⟩

/-- Up to `2 ^ 32` blocks the wrapped block id still tells the blocks apart. -/
theorem locate_inj {m : MapStore} (hm : m.Indexed) (hgrid : m.grid ≤ 2 ^ 32) {x y x' y' : Int32}
    {q : Nat × Nat} (h : m.locate x y = some q) (h' : m.locate x' y' = some q) : x = x' ∧ y = y' := by
  obtain ⟨id, c⟩ := q
  obtain ⟨hx, hy, hxw, hyh, hid, hc⟩ := (locate_eq_some hm).mp h
  obtain ⟨hx', hy', hxw', hyh', hid', hc'⟩ := (locate_eq_some hm).mp h'
  obtain ⟨hlow, hhigh⟩ := blockNumber_lt hm ⟨hx, hy, hxw, hyh⟩
  obtain ⟨hlow', hhigh'⟩ := blockNumber_lt hm ⟨hx', hy', hxw', hyh'⟩
  have hsame : x.toInt / 32 + y.toInt / 32 * m.blocksW.toInt =
      x'.toInt / 32 + y'.toInt / 32 * m.blocksW.toInt := by
    rw [← hid'] at hid
    generalize x.toInt / 32 + y.toInt / 32 * m.blocksW.toInt = e at *
    generalize x'.toInt / 32 + y'.toInt / 32 * m.blocksW.toInt = e' at *
    rw [Int.bmod_def, Int.bmod_def] at hid
    split at hid <;> split at hid <;> omega
  obtain ⟨hcol, hrow⟩ := rowMajor_inj (by omega) (by omega) (by omega) (by omega) hsame
  exact ⟨Int32.toInt_inj.mp (by omega), Int32.toInt_inj.mp (by omega)⟩

/-- Setting one cell of the grid never shows at another. -/
def Separate (m : MapStore) : Prop :=
  ∀ x y x' y' cell, m.InGrid x y → m.InGrid x' y' → (x, y) ≠ (x', y') →
    (m.setCell x y cell).getCell x' y' = m.getCell x' y'

theorem separate_of_grid_le {m : MapStore} (hm : m.Indexed) (hn : m.blocks.length < 2 ^ 31)
    (hgrid : m.grid ≤ 2 ^ 32) : m.Separate := by
  intro x y x' y' cell _ _ hne
  unfold getCell
  rw [locate_setCell]
  cases hloc' : m.locate x' y' with
  | none => rfl
  | some q' =>
      cases hloc : m.locate x y with
      | none => rw [setCell_of_locate_none cell hloc]
      | some q =>
          simp only
          rw [cellAt_setCell hm cell hloc (fun _ => hn), if_neg]
          rintro ⟨hid, hc⟩
          have hq : q = q' := Prod.ext hid.symm hc.symm
          obtain ⟨rfl, rfl⟩ := locate_inj hm hgrid hloc (hq ▸ hloc')
          exact hne rfl

/-- Past `2 ^ 32` blocks the block id wraps onto block 0. -/
theorem grid_le_of_separate {m : MapStore} (hm : m.Indexed) (hn : m.blocks.length < 2 ^ 31)
    (h : m.Separate) : m.grid ≤ 2 ^ 32 := by
  by_contra hbig
  obtain ⟨hw, hh, hgrid⟩ := grid_eq hm
  have hhigh : (2 ^ 32 : Int) < m.blocksW.toInt * m.blocksH.toInt := by
    rw [← hgrid]
    omega
  have hlimit (v w : Int32) (hv : w = v / blockSize) (hpos : 0 < v) : w.toInt * 32 < 2 ^ 31 := by
    have hz : (0 : Int32).toInt = 0 := by decide
    have hb : blockSize.toInt = 32 := by decide
    have hpos := Int32.lt_iff_toInt_lt.mp hpos
    rw [hz] at hpos
    rw [hv, Int32.toInt_div_of_ne_right _ _ (by decide), hb, Int.tdiv_eq_ediv_of_nonneg hpos.le]
    have := v.toInt_lt
    omega
  have hwmax := hlimit _ _ hm.blocksW_eq hm.width_pos
  have hhmax := hlimit _ _ hm.blocksH_eq hm.height_pos
  -- column and row of block number `2 ^ 32`
  have hcol := Int.emod_lt_of_pos (2 ^ 32) hw
  have hcol0 := Int.emod_nonneg (2 ^ 32) hw.ne'
  have hrow : 2 ^ 32 / m.blocksW.toInt < m.blocksH.toInt := Int.ediv_lt_of_lt_mul hw (by linarith)
  have hrow0 : 0 ≤ 2 ^ 32 / m.blocksW.toInt := Int.ediv_nonneg (by decide) hw.le
  have hsplit := Int.emod_add_mul_ediv (2 ^ 32) m.blocksW.toInt
  generalize (2 ^ 32 : Int) % m.blocksW.toInt = a at *
  generalize (2 ^ 32 : Int) / m.blocksW.toInt = b at *
  have hx : (Int32.ofInt (32 * a)).toInt = 32 * a :=
    Int32.toInt_ofInt_of_le (by omega) (by omega)
  have hy : (Int32.ofInt (32 * b)).toInt = 32 * b :=
    Int32.toInt_ofInt_of_le (by omega) (by omega)
  have hz : (0 : Int32).toInt = 0 := by decide
  have horigin : m.locate 0 0 = some (0, 0) := by
    rw [locate_eq_some hm, hz]
    simp
    omega
  have hwrapped : m.locate (Int32.ofInt (32 * a)) (Int32.ofInt (32 * b)) = some (0, 0) := by
    rw [locate_eq_some hm, hx, hy]
    refine ⟨by omega, by omega, by omega, by omega, ?_, by omega⟩
    rw [show 32 * a / 32 = a by omega, show 32 * b / 32 = b by omega, Int.mul_comm b, hsplit]
    decide
  have hne : ((0 : Int32), (0 : Int32)) ≠ (Int32.ofInt (32 * a), Int32.ofInt (32 * b)) := by
    intro he
    obtain ⟨he1, he2⟩ := Prod.mk.inj he
    rw [← he1, hz] at hx
    rw [← he2, hz] at hy
    rw [show a = 0 by omega, show b = 0 by omega] at hsplit
    simp at hsplit
  have hgrid0 : m.InGrid 0 0 := by
    simp only [InGrid, hz]
    omega
  have hgrid1 : m.InGrid (Int32.ofInt (32 * a)) (Int32.ofInt (32 * b)) := by
    simp only [InGrid, hx, hy]
    omega
  have hkeep := h 0 0 _ _ (m.cellAt 0 0 + 1) hgrid0 hgrid1 hne
  unfold getCell at hkeep
  rw [locate_setCell, hwrapped] at hkeep
  simp only [cellAt_setCell hm _ horigin (fun _ => hn), and_self, if_true] at hkeep
  simp at hkeep

/-- An accepted file never makes the index arithmetic overflow, but it is well
formed just when its table is packed and its grid has at most `2 ^ 32` blocks. -/
theorem accepted_wellFormed_iff {bytes : List UInt8} {m : MapStore} (h : deserialize bytes = .ok m) :
    ((∀ i j s, m.slotOf i = some s → m.slotOf j = some s → i = j) ∧ m.Separate ∧
      (∀ s < m.blocks.length, ∃! id, m.slotOf id = some s) ∧
      ∀ v ∈ tableOf bytes, v.toInt + 1 < 2 ^ 31) ↔
    Packed (tableOf bytes) ∧ (tableOf bytes).length ≤ 2 ^ 32 := by
  have hn := accepted_blocks_lt h
  have hlen (hm : m.Indexed) : (tableOf bytes).length = m.grid := by
    rw [← hm.length_indexes, (deserialize_fields h).1]
  rw [accepted_packed_iff h]
  constructor
  · rintro ⟨hinj, hsep, howner, -⟩
    have hcover := fun s hs => (howner s hs).exists
    have hm := accepted_indexed h hinj hcover
    exact ⟨⟨hinj, hcover⟩, hlen hm ▸ grid_le_of_separate hm hn hsep⟩
  · rintro ⟨⟨hinj, hcover⟩, hgrid⟩
    have hm := accepted_indexed h hinj hcover
    refine ⟨hinj, separate_of_grid_le hm hn (hlen hm ▸ hgrid), ?_, accepted_entry_lt h⟩
    intro s hs
    obtain ⟨id, hid⟩ := hcover s hs
    exact ⟨id, hid, fun j hj => hinj j id s hj hid⟩

/-- Two blocks over the slots of a table. -/
def twoBlocks (indexes : List Int32) (backIndex : List Nat) (blocks : List Block) : MapStore :=
  { width := 64, height := 32, blocksW := 2, blocksH := 1, indexes, backIndex, blocks
    dirty := List.replicate blocks.length false
    dirtySlots := []
    indexDirty := false
    needsHeader := false
    nextFlushGeneration := 0 }

theorem tableOf_twoBlocks (a b : Int32) (backIndex : List Nat) (blocks : List Block) :
    tableOf (twoBlocks [a, b] backIndex blocks).serialize = [a, b] := by
  obtain ⟨hwidth, hheight, htail⟩ := serialize_header (twoBlocks [a, b] backIndex blocks)
  have hcount : ((64 : Int32) / blockSize).toNatClampNeg * ((32 : Int32) / blockSize).toNatClampNeg =
      [a, b].length := rfl
  rw [tableOf, hwidth, hheight, htail, i32OfBytes_i32ToBytes, i32OfBytes_i32ToBytes]
  simp only [twoBlocks]
  rw [hcount, readTable_flatMap]

/-- The blocks of a file may be in any order. -/
theorem accepted_wellFormed_swapped :
    ∃ m, deserialize (twoBlocks [1, 0] [1, 0] [emptyBlock, emptyBlock]).serialize = .ok m ∧
      m.Separate := by
  have hnew : ∃ store, new 64 32 = .ok store ∧ store.indexes.length = 2 := ⟨_, rfl, rfl⟩
  obtain ⟨store, hnew, hlen⟩ := hnew
  have h : deserialize (twoBlocks [1, 0] [1, 0] [emptyBlock, emptyBlock]).serialize = _ :=
    deserialize_of_table hnew hlen rfl rfl
  refine ⟨_, h, ((accepted_wellFormed_iff h).mpr ?_).2.1⟩
  rw [tableOf_twoBlocks]
  decide

/-- A file whose two blocks name the same slot is accepted, and a cell set in
one block shows in the other. -/
theorem accepted_alias : ∃ m, deserialize (twoBlocks [0, 0] [1] [emptyBlock]).serialize = .ok m ∧
    m.slotOf 0 = some 0 ∧ m.slotOf 1 = some 0 ∧ m.getCell 32 0 = 0 ∧
    (m.setCell 0 0 7).getCell 32 0 = 7 := by
  have hnew : ∃ store, new 64 32 = .ok store ∧ store.indexes.length = 2 ∧
      { store with
        indexes := [0, 0]
        backIndex := [1]
        blocks := [emptyBlock]
        dirty := [false]
        dirtySlots := []
        indexDirty := false
        needsHeader := false } = twoBlocks [0, 0] [1] [emptyBlock] := ⟨_, rfl, rfl, rfl⟩
  obtain ⟨store, hnew, hlen, htwo⟩ := hnew
  have h : deserialize (twoBlocks [0, 0] [1] [emptyBlock]).serialize =
      .ok (twoBlocks [0, 0] [1] [emptyBlock]) :=
    (deserialize_of_table hnew hlen rfl rfl).trans (congrArg Except.ok htwo)
  refine ⟨_, h, rfl, rfl, rfl, ?_⟩
  have hcell : ((twoBlocks [0, 0] [1] [emptyBlock]).setCell 0 0 7).getCell 32 0 =
      ((twoBlocks [0, 0] [1] [emptyBlock]).setCell 0 0 7).cellAt 1 0 := by
    unfold getCell
    rw [locate_setCell]
    rfl
  have hslot : (twoBlocks [0, 0] [1] [emptyBlock]).slotOf 1 = some 0 := rfl
  have hset : (twoBlocks [0, 0] [1] [emptyBlock]).setCell 0 0 7 =
      (twoBlocks [0, 0] [1] [emptyBlock]).writeSlot 0 0 7 := setCell_of_slot 7 rfl rfl
  rw [hcell, hset, cellAt, slotOf_writeSlot, hslot]
  simp only [blockCell_writeSlot (twoBlocks [0, 0] [1] [emptyBlock]) 7 (show 0 < 1 by decide)
    (show 0 < blockCells by decide), and_self, if_true]

end OpenMines.MapFormat.MapStore
