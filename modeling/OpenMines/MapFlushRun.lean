import OpenMines.Lib.Run
import OpenMines.MapFlush

namespace OpenMines.MapFormat

open Lib.LittleEndian Lib.FileImage Lib.Run

/-- A store, its file, and the detached batch with the byte stores that have
not reached the file yet. A flush holds the journal lock from the moment it
takes a batch until the batch is written or restored, so there is one at most. -/
structure FlushState where
  store : MapStore
  file : List UInt8
  pending : Option (MapFlushBatch × List (Nat × UInt8))

inductive FlushEvent
  | setCell (x y : Int32) (cell : UInt8)
  | takeFlushBatch
  | write (bytes : Nat)
  | complete
  | fail

namespace FlushState

def step (s : FlushState) : FlushEvent → Option FlushState
  | .setCell x y cell => some { s with store := s.store.setCell x y cell }
  | .takeFlushBatch =>
    match s.pending with
    | some _ => none
    | none =>
      match s.store.takeFlushBatch with
      | none => some s
      | some (b, store) => some { s with store, pending := some (b, b.writes) }
  | .write bytes =>
    match s.pending with
    | none => none
    | some (b, rest) =>
      some { s with file := pokes s.file (rest.take bytes), pending := some (b, rest.drop bytes) }
  | .complete =>
    match s.pending with
    | some (_, []) => some { s with pending := none }
    | _ => none
  | .fail =>
    match s.pending with
    | none => none
    | some (b, _) => some { s with store := s.store.restoreFlushBatch b, pending := none }

def start (m : MapStore) : FlushState := { store := m, file := [], pending := none }

/-- The byte stores still on their way. -/
def rest (s : FlushState) : List (Nat × UInt8) :=
  match s.pending with
  | none => []
  | some (_, rest) => rest

end FlushState

/-- The bytes that restoring a batch marks dirty again. -/
def MapFlushBatch.CoversAt (b : MapFlushBatch) (m : MapStore) (p : Nat) : Prop :=
  if p < headerBytes then b.header.isSome = true
  else if p < m.idxEnd then b.indexes.isSome = true
  else (p - m.idxEnd) / blockCells ∈ b.slots.map MapFlushSlot.slot

namespace MapStore

/-- The file holds the serialized store, but for the dirty bytes and for those
that `rest` still has to store. -/
structure FileAgrees (m : MapStore) (file : List UInt8) (rest : List (Nat × UInt8)) : Prop where
  length_le : file.length ≤ m.serialize.length
  rest_lt : ∀ w ∈ rest, w.1 < m.serialize.length
  rest_eq : ∀ w ∈ rest, ¬ m.DirtyAt w.1 → m.serialize[w.1]? = some w.2
  clean_eq : ∀ p < m.serialize.length, ¬ m.DirtyAt p → p ∉ rest.map Prod.fst →
    file[p]? = m.serialize[p]?

theorem start_fileAgrees {m : MapStore} (hheader : m.needsHeader = true) (hindex : m.indexDirty = true)
    (hblocks : m.blocks = []) : m.FileAgrees [] [] where
  length_le := Nat.zero_le _
  rest_lt := by simp
  rest_eq := by simp
  clean_eq := by
    intro p hp hclean
    rw [length_serialize, hblocks] at hp
    exfalso
    unfold DirtyAt at hclean
    split_ifs at hclean
    · exact hclean hheader
    · exact hclean hindex
    · rw [idxEnd] at *
      simp at hp
      omega

theorem serialize_eq_of_fileAgrees {m : MapStore} {file : List UInt8} (h : m.FileAgrees file [])
    (hclean : m.isDirty = false) : file = m.serialize := by
  apply List.ext_getElem?
  intro p
  by_cases hp : p < m.serialize.length
  · exact h.clean_eq p hp (not_dirtyAt_of_clean hclean p) (by simp)
  · rw [List.getElem?_eq_none (by have := h.length_le; omega), List.getElem?_eq_none (by omega)]

/-- Storing the next byte of `rest`. -/
theorem poke_fileAgrees {m : MapStore} {file : List UInt8} {w : Nat × UInt8}
    {rest : List (Nat × UInt8)} (h : m.FileAgrees file (w :: rest)) :
    m.FileAgrees (poke file w.1 w.2) rest where
  length_le := by
    have := h.rest_lt w (by simp)
    have := h.length_le
    rw [length_poke]
    omega
  rest_lt := fun u hu => h.rest_lt u (List.mem_cons_of_mem _ hu)
  rest_eq := fun u hu => h.rest_eq u (List.mem_cons_of_mem _ hu)
  clean_eq := by
    intro p hp hclean hrest
    by_cases hpw : p = w.1
    · subst hpw
      rw [getElem?_poke_self, h.rest_eq w (by simp) hclean]
    · have hold := h.clean_eq p hp hclean (by simp [hpw, hrest])
      have hlt : p < file.length := by
        rw [List.getElem?_eq_getElem hp] at hold
        exact (List.getElem?_eq_some_iff.mp hold).1
      rw [getElem?_poke_of_ne _ hpw hlt, hold]

theorem pokes_fileAgrees {m : MapStore} {file : List UInt8} (n : Nat) {rest : List (Nat × UInt8)}
    (h : m.FileAgrees file rest) : m.FileAgrees (pokes file (rest.take n)) (rest.drop n) := by
  induction n generalizing file rest with
  | zero => simpa using h
  | succ n ih =>
      cases rest with
      | nil => simpa using h
      | cons w rest => simpa using ih (poke_fileAgrees h)

/-- A store that grew to `n` without touching the clean bytes of `m`. -/
structure Grew (m n : MapStore) : Prop where
  length_le : m.serialize.length ≤ n.serialize.length
  clean : ∀ p < n.serialize.length, ¬ n.DirtyAt p →
    p < m.serialize.length ∧ ¬ m.DirtyAt p ∧ n.serialize[p]? = m.serialize[p]?

theorem Grew.fileAgrees {m n : MapStore} {file : List UInt8} {rest : List (Nat × UInt8)}
    (hg : Grew m n) (h : m.FileAgrees file rest) : n.FileAgrees file rest where
  length_le := h.length_le.trans hg.length_le
  rest_lt := fun w hw => (h.rest_lt w hw).trans_le hg.length_le
  rest_eq := by
    intro w hw hclean
    obtain ⟨-, hold, he⟩ := hg.clean w.1 ((h.rest_lt w hw).trans_le hg.length_le) hclean
    rw [he, h.rest_eq w hw hold]
  clean_eq := by
    intro p hp hclean hrest
    obtain ⟨hlt, hold, he⟩ := hg.clean p hp hclean
    rw [he, h.clean_eq p hlt hold hrest]

theorem mem_dirtySlots_markSlotDirty {m : MapStore} (hm : m.Indexed) {slot : Nat}
    (hslot : slot < m.blocks.length) (s : Nat) :
    s ∈ (m.markSlotDirty slot).dirtySlots ↔ s ∈ m.dirtySlots ∨ s = slot := by
  rw [← hm.length_dirty] at hslot
  unfold markSlotDirty
  split
  · simp
  · rename_i hflag
    rw [List.getElem?_eq_getElem hslot] at hflag
    have hset : m.dirty[slot]? = some true := by
      rw [List.getElem?_eq_getElem hslot]
      simpa using hflag
    constructor
    · exact Or.inl
    · rintro (h | rfl)
      · exact h
      · exact (hm.mem_dirtySlots _).mpr hset

@[simp] theorem needsHeader_markSlotDirty (m : MapStore) (slot : Nat) :
    (m.markSlotDirty slot).needsHeader = m.needsHeader := by unfold markSlotDirty; split <;> rfl

@[simp] theorem indexDirty_markSlotDirty (m : MapStore) (slot : Nat) :
    (m.markSlotDirty slot).indexDirty = m.indexDirty := by unfold markSlotDirty; split <;> rfl

@[simp] theorem idxEnd_markSlotDirty (m : MapStore) (slot : Nat) :
    (m.markSlotDirty slot).idxEnd = m.idxEnd := by simp [idxEnd]

@[simp] theorem serialize_markSlotDirty (m : MapStore) (slot : Nat) :
    (m.markSlotDirty slot).serialize = m.serialize := by simp [serialize]

theorem length_serialize_writeSlot (m : MapStore) (slot cellIdx : Nat) (cell : UInt8) :
    (m.writeSlot slot cellIdx cell).serialize.length = m.serialize.length := by
  simp [length_serialize, writeSlot]

theorem clean_writeSlot {m : MapStore} (hm : m.Indexed) {slot cellIdx p : Nat} {cell : UInt8}
    (hslot : slot < m.blocks.length) (hclean : ¬ (m.writeSlot slot cellIdx cell).DirtyAt p) :
    ¬ m.DirtyAt p ∧ (m.writeSlot slot cellIdx cell).serialize[p]? = m.serialize[p]? ∧
      (m.idxEnd ≤ p → (p - m.idxEnd) / blockCells ≠ slot) := by
  have hend : (m.writeSlot slot cellIdx cell).idxEnd = m.idxEnd := by simp [writeSlot, idxEnd]
  have hslots (s : Nat) : s ∈ (m.writeSlot slot cellIdx cell).dirtySlots ↔
      s ∈ m.dirtySlots ∨ s = slot :=
    mem_dirtySlots_markSlotDirty (modify_indexed hm slot _) (by simpa using hslot) s
  have hhead : headerBytes ≤ m.idxEnd := Nat.le_add_right _ _
  simp only [DirtyAt, hend, hslots, getElem?_serialize, blocks_writeSlot] at hclean ⊢
  by_cases hp : p < headerBytes
  · have hlow : ¬ m.idxEnd ≤ p := by omega
    simpa [hp, hlow, writeSlot] using hclean
  · by_cases hq : p < m.idxEnd
    · have hlow : ¬ m.idxEnd ≤ p := by omega
      simpa [hp, hq, hlow, writeSlot] using hclean
    · simp only [hp, hq, if_false, not_or] at hclean ⊢
      refine ⟨hclean.1, ?_, fun _ => hclean.2⟩
      simp [Ne.symm hclean.2]

theorem writeSlot_grew {m : MapStore} (hm : m.Indexed) {slot : Nat} (cellIdx : Nat) (cell : UInt8)
    (hslot : slot < m.blocks.length) : Grew m (m.writeSlot slot cellIdx cell) where
  length_le := (length_serialize_writeSlot m slot cellIdx cell).ge
  clean := by
    intro p hp hclean
    obtain ⟨hold, he, -⟩ := clean_writeSlot hm hslot hclean
    exact ⟨length_serialize_writeSlot m slot cellIdx cell ▸ hp, hold, he⟩

/-- A new block shows in the index table and behind the old blocks only. -/
theorem clean_allocate {m : MapStore} {id p : Nat} (hp : p < (m.allocate id).serialize.length)
    (hclean : ¬ (m.allocate id).DirtyAt p)
    (hslot : m.idxEnd ≤ p → (p - m.idxEnd) / blockCells ≠ m.blocks.length) :
    p < m.serialize.length ∧ ¬ m.DirtyAt p ∧ (m.allocate id).serialize[p]? = m.serialize[p]? := by
  have hend : (m.allocate id).idxEnd = m.idxEnd := by simp [allocate, idxEnd]
  have hhead : headerBytes ≤ m.idxEnd := Nat.le_add_right _ _
  simp only [length_serialize, DirtyAt, hend, getElem?_serialize] at hp hclean ⊢
  by_cases hlow : p < headerBytes
  · simp only [hlow, if_true] at hclean ⊢
    exact ⟨by omega, hclean, rfl⟩
  · by_cases hq : p < m.idxEnd
    · simp [hlow, hq, allocate] at hclean
    · simp only [hlow, hq, if_false] at hclean ⊢
      have hne := hslot (by omega)
      simp only [allocate, List.length_set, List.length_append, List.length_singleton] at hp
      have hlt : (p - m.idxEnd) / blockCells < m.blocks.length := by
        have hdiv : (p - m.idxEnd) / blockCells < m.blocks.length + 1 := by
          rw [Nat.div_lt_iff_lt_mul (by decide)]
          simp only [idxEnd, headerBytes, blockCells] at hp hlow hq ⊢
          omega
        omega
      refine ⟨?_, hclean, ?_⟩
      · rw [Nat.div_lt_iff_lt_mul (by decide), idxEnd] at hlt
        omega
      · simp only [allocate]
        rw [List.getElem?_append_left hlt]

theorem allocate_writeSlot_grew {m : MapStore} (hm : m.Indexed) {id : Nat} (cellIdx : Nat)
    (cell : UInt8) (hgrid : id < m.grid) (hn : m.blocks.length < 2 ^ 31) (h : m.slotOf id = none) :
    Grew m ((m.allocate id).writeSlot m.blocks.length cellIdx cell) := by
  have hwf := allocate_indexed hm hgrid hn h
  have hslot : m.blocks.length < (m.allocate id).blocks.length := by simp [allocate]
  have hend : (m.allocate id).idxEnd = m.idxEnd := by simp [allocate, idxEnd]
  have hlen := length_serialize_writeSlot (m.allocate id) m.blocks.length cellIdx cell
  refine ⟨?_, ?_⟩
  · rw [hlen, length_serialize, length_serialize]
    simp only [allocate, List.length_set, List.length_append]
    have := Nat.le_mul_of_pos_left blockCells (show 0 < [emptyBlock].length by simp)
    rw [Nat.add_mul]
    omega
  · intro p hp hclean
    obtain ⟨hold, he, hne⟩ := clean_writeSlot hwf hslot hclean
    rw [hend] at hne
    obtain ⟨hlt, hold, he'⟩ := clean_allocate (hlen ▸ hp) hold hne
    exact ⟨hlt, hold, he.trans he'⟩

theorem setCell_grew {m : MapStore} (hm : m.WellFormed) (x y : Int32) (cell : UInt8) :
    Grew m (m.setCell x y cell) := by
  cases hloc : m.locate x y with
  | none =>
      rw [setCell_of_locate_none cell hloc]
      exact ⟨Nat.le_refl _, fun p hp hclean => ⟨hp, hclean, rfl⟩⟩
  | some q =>
      obtain ⟨hgrid, hid, -⟩ := locate_lt hm.toIndexed hloc
      cases hs : m.slotOf q.1 with
      | some slot =>
          rw [setCell_of_slot cell hloc hs]
          exact writeSlot_grew hm.toIndexed _ _ (slotOf_lt hm.toIndexed hs).1
      | none =>
          rw [setCell_of_fresh cell hloc hs]
          exact allocate_writeSlot_grew hm.toIndexed _ _ hgrid (newSlot_fits hm hid hs) hs

/-- Taking a batch moves the dirty bytes into its stores. -/
theorem takeFlushBatch_fileAgrees {m m' : MapStore} {b : MapFlushBatch} {file : List UInt8}
    (hm : m.WellFormed) (h : m.takeFlushBatch = some (b, m')) (hfile : m.FileAgrees file []) :
    m'.FileAgrees file b.writes := by
  obtain ⟨-, -, -, -, hser, -, -, -, -⟩ := takeFlushBatch_eq_some h
  refine ⟨hser ▸ hfile.length_le, ?_, ?_, ?_⟩
  · intro w hw
    rw [hser]
    exact (List.getElem?_eq_some_iff.mp ((mem_writes hm h).mp hw).2).1
  · intro w hw _
    rw [hser]
    exact ((mem_writes hm h).mp hw).2
  · intro p hp _ hrest
    rw [hser] at hp ⊢
    refine hfile.clean_eq p hp ?_ (by simp)
    intro hdirty
    have hmem := (mem_writes hm h).mpr ⟨hdirty, List.getElem?_eq_getElem hp⟩
    exact hrest (List.mem_map.mpr ⟨_, hmem, rfl⟩)

/-- What a detached batch remembers of the store it was taken from, as long as
the store only grows. -/
structure Holds (m : MapStore) (b : MapFlushBatch) (rest : List (Nat × UInt8)) : Prop where
  slots_lt : ∀ s ∈ b.slots, s.slot < m.blocks.length
  covers : ∀ w ∈ rest, b.CoversAt m w.1

theorem takeFlushBatch_holds {m m' : MapStore} {b : MapFlushBatch} (hm : m.WellFormed)
    (h : m.takeFlushBatch = some (b, m')) : m'.Holds b b.writes := by
  obtain ⟨hheader, hindexes, -, hslots, -, hend, hblocks, -, -⟩ := takeFlushBatch_eq_some h
  refine ⟨?_, ?_⟩
  · intro s hs
    rw [hslots, List.mem_map] at hs
    obtain ⟨slot, hslot, rfl⟩ := hs
    rw [hblocks, ← hm.length_dirty]
    exact (List.getElem?_eq_some_iff.mp ((hm.mem_dirtySlots slot).mp hslot)).1
  · intro w hw
    obtain ⟨hdirty, -⟩ := (mem_writes hm h).mp hw
    simp only [DirtyAt, MapFlushBatch.CoversAt, hend] at hdirty ⊢
    split_ifs at hdirty ⊢
    · rw [hheader, if_pos hdirty]
      rfl
    · rw [hindexes, if_pos hdirty]
      rfl
    · rw [hslots, List.map_map]
      simpa using hdirty

theorem mem_dirtySlots_foldl_markSlotDirty {m : MapStore} (hm : m.Indexed)
    {slots : List MapFlushSlot} (hslots : ∀ s ∈ slots, s.slot < m.blocks.length) (t : Nat) :
    t ∈ (slots.foldl (fun m flushed => m.markSlotDirty flushed.slot) m).dirtySlots ↔
      t ∈ m.dirtySlots ∨ t ∈ slots.map MapFlushSlot.slot := by
  induction slots generalizing m with
  | nil => simp
  | cons s slots ih =>
      have hrest := fun u hu => hslots u (List.mem_cons_of_mem _ hu)
      rw [List.foldl_cons, ih (markSlotDirty_indexed hm s.slot) (by simpa using hrest),
        mem_dirtySlots_markSlotDirty hm (hslots s (by simp)), List.map_cons, List.mem_cons, or_assoc]

theorem foldl_markSlotDirty_eq (m : MapStore) (slots : List MapFlushSlot) :
    let n := slots.foldl (fun m flushed => m.markSlotDirty flushed.slot) m
    n.serialize = m.serialize ∧ n.idxEnd = m.idxEnd ∧ n.needsHeader = m.needsHeader ∧
      n.indexDirty = m.indexDirty := by
  induction slots generalizing m with
  | nil => exact ⟨rfl, rfl, rfl, rfl⟩
  | cons s slots ih => simpa using ih (m.markSlotDirty s.slot)

theorem dirtyAt_restoreFlushBatch {m : MapStore} (hm : m.Indexed) {b : MapFlushBatch}
    (hb : ∀ s ∈ b.slots, s.slot < m.blocks.length) (p : Nat) :
    (m.restoreFlushBatch b).DirtyAt p ↔ m.DirtyAt p ∨ b.CoversAt m p := by
  have hwf : Indexed
      { m with
        needsHeader := m.needsHeader || b.header.isSome
        indexDirty := m.indexDirty || b.indexes.isSome } := { hm with }
  have hslots (t : Nat) : t ∈ (m.restoreFlushBatch b).dirtySlots ↔
      t ∈ m.dirtySlots ∨ t ∈ b.slots.map MapFlushSlot.slot :=
    mem_dirtySlots_foldl_markSlotDirty hwf hb t
  obtain ⟨-, hend, hheader, hindex⟩ := foldl_markSlotDirty_eq
    { m with
      needsHeader := m.needsHeader || b.header.isSome
      indexDirty := m.indexDirty || b.indexes.isSome } b.slots
  have hend : (m.restoreFlushBatch b).idxEnd = m.idxEnd := hend
  have hheader : (m.restoreFlushBatch b).needsHeader = (m.needsHeader || b.header.isSome) := hheader
  have hindex : (m.restoreFlushBatch b).indexDirty = (m.indexDirty || b.indexes.isSome) := hindex
  simp only [DirtyAt, MapFlushBatch.CoversAt, hslots, hend, hheader, hindex]
  split_ifs <;> simp

theorem restoreFlushBatch_grew {m : MapStore} (hm : m.Indexed) {b : MapFlushBatch}
    (hb : ∀ s ∈ b.slots, s.slot < m.blocks.length) : Grew m (m.restoreFlushBatch b) := by
  have hser : (m.restoreFlushBatch b).serialize = m.serialize := (foldl_markSlotDirty_eq _ b.slots).1
  refine ⟨hser ▸ Nat.le_refl _, ?_⟩
  intro p hp hclean
  rw [dirtyAt_restoreFlushBatch hm hb, not_or] at hclean
  exact ⟨hser ▸ hp, hclean.1, by rw [hser]⟩

@[simp] theorem idxEnd_setCell (m : MapStore) (x y : Int32) (cell : UInt8) :
    (m.setCell x y cell).idxEnd = m.idxEnd := by
  unfold setCell
  split
  · rfl
  · split <;> simp [writeSlot, allocate, idxEnd]

theorem le_length_blocks_setCell (m : MapStore) (x y : Int32) (cell : UInt8) :
    m.blocks.length ≤ (m.setCell x y cell).blocks.length := by
  unfold setCell
  split
  · exact Nat.le_refl _
  · split <;> simp [writeSlot, allocate]

theorem setCell_holds {m : MapStore} {b : MapFlushBatch} {rest : List (Nat × UInt8)}
    (h : m.Holds b rest) (x y : Int32) (cell : UInt8) : (m.setCell x y cell).Holds b rest where
  slots_lt := fun s hs => (h.slots_lt s hs).trans_le (le_length_blocks_setCell m x y cell)
  covers := by simpa [MapFlushBatch.CoversAt] using h.covers

end MapStore

namespace FlushState

/-- The invariant of every run: the file trails the store by the dirty bytes and
the bytes on their way, and restoring the batch would mark the latter dirty. -/
structure Consistent (s : FlushState) : Prop where
  wellFormed : s.store.WellFormed
  agrees : s.store.FileAgrees s.file s.rest
  holds : ∀ b rest, s.pending = some (b, rest) → s.store.Holds b rest

theorem start_consistent {width height : Int32} {m : MapStore} (h : MapStore.new width height = .ok m) :
    (start m).Consistent := by
  refine ⟨MapStore.new_wellFormed h, ?_, by simp [start]⟩
  obtain ⟨-, -, -, -, he⟩ := MapStore.new_spec h
  exact MapStore.start_fileAgrees (by rw [start, he]) (by rw [start, he]) (by rw [start, he])

theorem setCell_consistent {s : FlushState} (hs : s.Consistent) (x y : Int32) (cell : UInt8) :
    Consistent { s with store := s.store.setCell x y cell } where
  wellFormed := MapStore.setCell_wellFormed hs.wellFormed x y cell
  agrees := (MapStore.setCell_grew hs.wellFormed x y cell).fileAgrees hs.agrees
  holds := fun b rest h => MapStore.setCell_holds (hs.holds b rest h) x y cell

theorem take_consistent {s : FlushState} (hs : s.Consistent) {b : MapFlushBatch} {m : MapStore}
    (hp : s.pending = none) (h : s.store.takeFlushBatch = some (b, m)) :
    Consistent { s with store := m, pending := some (b, b.writes) } where
  wellFormed := MapStore.takeFlushBatch_wellFormed hs.wellFormed h
  agrees := by
    have hagrees := hs.agrees
    rw [rest, hp] at hagrees
    exact MapStore.takeFlushBatch_fileAgrees hs.wellFormed h hagrees
  holds := by
    rintro _ _ ⟨⟩
    exact MapStore.takeFlushBatch_holds hs.wellFormed h

theorem write_consistent {s : FlushState} (hs : s.Consistent) {b : MapFlushBatch}
    {rest : List (Nat × UInt8)} (hp : s.pending = some (b, rest)) (n : Nat) :
    Consistent { s with file := pokes s.file (rest.take n), pending := some (b, rest.drop n) } where
  wellFormed := hs.wellFormed
  agrees := by
    have hagrees := hs.agrees
    rw [FlushState.rest, hp] at hagrees
    exact MapStore.pokes_fileAgrees n hagrees
  holds := by
    rintro _ _ ⟨⟩
    have h := hs.holds b rest hp
    exact ⟨h.slots_lt, fun w hw => h.covers w (List.mem_of_mem_drop hw)⟩

theorem complete_consistent {s : FlushState} (hs : s.Consistent) {b : MapFlushBatch}
    (hp : s.pending = some (b, [])) : Consistent { s with pending := none } where
  wellFormed := hs.wellFormed
  agrees := by
    have hagrees := hs.agrees
    rw [rest, hp] at hagrees
    exact hagrees
  holds := by simp

theorem fail_consistent {s : FlushState} (hs : s.Consistent) {b : MapFlushBatch}
    {rest : List (Nat × UInt8)} (hp : s.pending = some (b, rest)) :
    Consistent { s with store := s.store.restoreFlushBatch b, pending := none } where
  wellFormed := MapStore.restoreFlushBatch_wellFormed hs.wellFormed b
  agrees := by
    have h := hs.holds b rest hp
    have hagrees := (MapStore.restoreFlushBatch_grew hs.wellFormed.toIndexed h.slots_lt).fileAgrees hs.agrees
    rw [FlushState.rest, hp] at hagrees
    refine ⟨hagrees.length_le, by simp [FlushState.rest], by simp [FlushState.rest], ?_⟩
    intro p hlt hclean _
    refine hagrees.clean_eq p hlt hclean ?_
    intro hrest
    obtain ⟨w, hw, rfl⟩ := List.mem_map.mp hrest
    exact hclean ((MapStore.dirtyAt_restoreFlushBatch hs.wellFormed.toIndexed h.slots_lt _).mpr
      (Or.inr (h.covers w hw)))
  holds := by simp

theorem step_consistent {s t : FlushState} {e : FlushEvent} (hs : s.Consistent)
    (h : s.step e = some t) : t.Consistent := by
  cases e with
  | setCell x y cell =>
      cases h
      exact setCell_consistent hs x y cell
  | takeFlushBatch =>
      simp only [step] at h
      split at h
      · cases h
      · rename_i hp
        split at h
        · cases h
          exact hs
        · rename_i b m htake
          cases h
          exact take_consistent hs hp htake
  | write n =>
      simp only [step] at h
      split at h
      · cases h
      · rename_i b rest hp
        cases h
        exact write_consistent hs hp n
  | complete =>
      simp only [step] at h
      split at h
      · rename_i b hp
        cases h
        exact complete_consistent hs hp
      · cases h
  | fail =>
      simp only [step] at h
      split at h
      · cases h
      · rename_i b rest hp
        cases h
        exact fail_consistent hs hp

theorem run_consistent {width height : Int32} {m : MapStore} (hnew : MapStore.new width height = .ok m)
    {es : List FlushEvent} {s : FlushState} (h : run step (start m) es = some s) : s.Consistent :=
  run_preserves (start_consistent hnew) (fun _ _ _ _ hs hstep => step_consistent hs hstep) h

/-- Nothing was set since the detached batch was taken. -/
def Quiet (s : FlushState) : Prop := s.pending.isSome → s.store.isDirty = false

theorem step_take_quiet {s t : FlushState} (h : s.step .takeFlushBatch = some t) : t.Quiet := by
  simp only [step] at h
  split at h
  · cases h
  · rename_i hp
    split at h
    · cases h
      simp [Quiet, hp]
    · rename_i b m htake
      cases h
      exact fun _ => (MapStore.takeFlushBatch_eq_some htake).2.2.2.2.2.2.2.2

theorem step_quiet {s t : FlushState} {e : FlushEvent} (hs : s.Quiet)
    (he : ∀ x y cell, e ≠ .setCell x y cell) (h : s.step e = some t) : t.Quiet := by
  cases e with
  | setCell x y cell => exact absurd rfl (he x y cell)
  | takeFlushBatch => exact step_take_quiet h
  | write n =>
      simp only [step] at h
      split at h
      · cases h
      · rename_i b rest hp
        cases h
        exact fun _ => hs (by simp [hp])
  | complete =>
      simp only [step] at h
      split at h
      · cases h
        simp [Quiet]
      · cases h
  | fail =>
      simp only [step] at h
      split at h
      · cases h
      · cases h
        simp [Quiet]

theorem step_complete_eq_some {s t : FlushState} (h : s.step .complete = some t) :
    ∃ b, s.pending = some (b, []) ∧ t = { s with pending := none } := by
  simp only [step] at h
  split at h
  · rename_i b hp
    cases h
    exact ⟨b, hp, rfl⟩
  · cases h

theorem step_take_eq_none {s t : FlushState} (h : s.step .takeFlushBatch = some t)
    (hp : t.pending = none) : s = t ∧ s.store.isDirty = false := by
  simp only [step] at h
  split at h
  · cases h
  · split at h
    · rename_i htake
      cases h
      exact ⟨rfl, MapStore.isDirty_of_takeFlushBatch_eq_none htake⟩
    · cases h
      cases hp

/-- A successful flush, all of it: the writes of the batch reach the file. -/
theorem run_flush {s : FlushState} {b : MapFlushBatch} {m : MapStore} (hp : s.pending = none)
    (h : s.store.takeFlushBatch = some (b, m)) :
    run step s [.takeFlushBatch, .write b.writes.length, .complete] =
      some { store := m, file := b.writeTo s.file, pending := none } := by
  simp [run, step, hp, h, MapFlushBatch.writeTo]

/-- When a flush completes and no cell was set since it took its batch, the file
is the full serialization and the store is clean; so it is when there was
nothing to flush. -/
theorem flush_eq_serialize {width height : Int32} {m : MapStore}
    (hnew : MapStore.new width height = .ok m) :
    (∀ es ws s, run step (start m) (es ++ .takeFlushBatch :: (ws ++ [.complete])) = some s →
      (∀ e ∈ ws, ∀ x y cell, e ≠ .setCell x y cell) →
      s.file = s.store.serialize ∧ s.store.isDirty = false) ∧
    (∀ es s, run step (start m) (es ++ [.takeFlushBatch]) = some s → s.pending = none →
      s.file = s.store.serialize ∧ s.store.isDirty = false) := by
  refine ⟨?_, ?_⟩
  · intro es ws s hrun hquiet
    have hs := run_consistent hnew hrun
    obtain ⟨t, -, hrun⟩ := run_append_eq_some.mp hrun
    obtain ⟨u, htake, hrun⟩ := run_cons_eq_some.mp hrun
    obtain ⟨v, hws, hdone⟩ := run_concat_eq_some.mp hrun
    have hv : v.Quiet := run_preserves (step_take_quiet htake)
      (fun e he _ _ hq hstep => step_quiet hq (hquiet e he) hstep) hws
    obtain ⟨b, hp, rfl⟩ := step_complete_eq_some hdone
    have hclean : v.store.isDirty = false := hv (by simp [hp])
    exact ⟨MapStore.serialize_eq_of_fileAgrees hs.agrees hclean, hclean⟩
  · intro es s hrun hp
    have hs := run_consistent hnew hrun
    obtain ⟨t, -, htake⟩ := run_concat_eq_some.mp hrun
    obtain ⟨rfl, hclean⟩ := step_take_eq_none htake hp
    have hagrees := hs.agrees
    rw [rest, hp] at hagrees
    exact ⟨MapStore.serialize_eq_of_fileAgrees hagrees hclean, hclean⟩

/-- A cell is set, the first flush fails after five bytes, the second completes. -/
theorem flush_after_failure : ∃ m n s, MapStore.new 32 32 = .ok m ∧
    run step (start m) ([.setCell 1 2 7, .takeFlushBatch, .write 5, .fail] ++
      .takeFlushBatch :: ([.write n] ++ [.complete])) = some s ∧
    s.file = s.store.serialize ∧ s.store.isDirty = false := by
  have hfailed : ∃ m s b store, MapStore.new 32 32 = .ok m ∧
      run step (start m) [.setCell 1 2 7, .takeFlushBatch, .write 5, .fail] = some s ∧
      s.pending = none ∧ s.store.takeFlushBatch = some (b, store) := ⟨_, _, _, _, rfl, rfl, rfl, rfl⟩
  obtain ⟨m, s, b, store, hnew, hrun, hp, htake⟩ := hfailed
  have hall := run_append_eq_some.mpr ⟨s, hrun, run_flush hp htake⟩
  have hfile := (flush_eq_serialize hnew).1 _ [.write b.writes.length] _ hall (by simp)
  exact ⟨m, b.writes.length, _, hnew, hall, hfile⟩

end FlushState

end OpenMines.MapFormat
