import OpenMines.Lib.RedoLog
import OpenMines.World

namespace OpenMines

open MapFormat Journal Lib.RedoLog Lib.Run

/-- The places of a world where a cell is stored, in its three layers. -/
inductive Addr
  | foreground (blockId cellIdx : Nat)
  | road (blockId cellIdx : Nat)
  | durability (offset : Nat)
  deriving DecidableEq

namespace World

/-- The three layers as one store. -/
def view (w : World) : Addr → Nat
  | .foreground id c => (w.cells.cellAt id c).toNat
  | .road id c => (w.road.cellAt id c).toNat
  | .durability i => (w.durability.word i).toNat

/-- The after-images that a record holds. -/
def entries (w : World) (r : JournalRecord) : List (Addr × Nat) :=
  ((w.cells.locate r.x r.y).map (fun q => (Addr.foreground q.1 q.2, r.foreground.toNat))).toList ++
  ((w.road.locate r.x r.y).map (fun q => (Addr.road q.1 q.2, r.road.toNat))).toList ++
  [(.durability (w.durability.cellOffset r.x.toUInt32 r.y.toUInt32), r.durability.toNat)]

/-- The invariant of the layers. -/
structure Consistent (w : World) : Prop where
  cells : w.cells.WellFormed
  road : w.road.WellFormed
  chunksH : w.durability.chunksH = w.chunksH
  sized : w.chunksW.toNat * w.chunksH.toNat * chunkCells ≤ w.durability.mmap.length

/-- Worlds of one size, whatever their cells. -/
structure SameShape (w v : World) : Prop where
  chunksW : v.chunksW = w.chunksW
  chunksH : v.chunksH = w.chunksH
  cellsW : v.cells.blocksW = w.cells.blocksW
  cellsH : v.cells.blocksH = w.cells.blocksH
  roadW : v.road.blocksW = w.road.blocksW
  roadH : v.road.blocksH = w.road.blocksH
  layerH : v.durability.chunksH = w.durability.chunksH

theorem SameShape.refl (w : World) : SameShape w w := ⟨rfl, rfl, rfl, rfl, rfl, rfl, rfl⟩

theorem SameShape.symm {w v : World} (h : SameShape w v) : SameShape v w :=
  ⟨h.chunksW.symm, h.chunksH.symm, h.cellsW.symm, h.cellsH.symm, h.roadW.symm, h.roadH.symm,
    h.layerH.symm⟩

theorem SameShape.trans {u v w : World} (h : SameShape u v) (h' : SameShape v w) : SameShape u w :=
  ⟨h'.chunksW.trans h.chunksW, h'.chunksH.trans h.chunksH, h'.cellsW.trans h.cellsW,
    h'.cellsH.trans h.cellsH, h'.roadW.trans h.roadW, h'.roadH.trans h.roadH, h'.layerH.trans h.layerH⟩

theorem SameShape.validCoord {w v : World} (h : SameShape w v) (x y : Int32) :
    v.validCoord x y = w.validCoord x y := by
  unfold World.validCoord cellsWidth cellsHeight
  rw [h.chunksW, h.chunksH]

theorem SameShape.cellOffset {w v : World} (h : SameShape w v) (x y : UInt32) :
    v.durability.cellOffset x y = w.durability.cellOffset x y := by
  simp only [Layer.cellOffset, Layer.chunkIdx, h.layerH]

theorem SameShape.entries {w v : World} (h : SameShape w v) (r : JournalRecord) :
    v.entries r = w.entries r := by
  simp only [World.entries, MapStore.locate_congr h.cellsW h.cellsH,
    MapStore.locate_congr h.roadW h.roadH, h.cellOffset]

theorem chunkIdx_lt {w : World} (hw : w.Consistent) {x y : Int32} (h : w.validCoord x y = true) :
    w.durability.chunkIdx x.toUInt32 y.toUInt32 < w.chunksW.toNat * w.chunksH.toNat := by
  simp only [validCoord, decide_eq_true_eq, cellsWidth, cellsHeight, UInt32.lt_iff_toNat_lt,
    UInt32.toNat_mul] at h
  obtain ⟨-, -, hx, hy⟩ := h
  have hchunk : chunkSize.toNat = 32 := rfl
  rw [hchunk] at hx hy
  have hcol := hx.trans_le (Nat.mod_le _ _)
  have hrow := hy.trans_le (Nat.mod_le _ _)
  generalize x.toUInt32 = ux at hcol
  generalize y.toUInt32 = uy at hrow
  rw [Layer.chunkIdx, hw.chunksH]
  simp only [UInt32.toNat_add, UInt32.toNat_mul, UInt32.toNat_div, hchunk]
  have hle : uy.toNat / 32 + w.chunksH.toNat * (ux.toNat / 32) % 2 ^ 32 ≤
      uy.toNat / 32 + w.chunksH.toNat * (ux.toNat / 32) := Nat.add_le_add_left (Nat.mod_le _ _) _
  refine (Nat.mod_le _ _).trans_lt (hle.trans_lt ?_)
  have hmul : w.chunksH.toNat * (ux.toNat / 32 + 1) ≤ w.chunksH.toNat * w.chunksW.toNat :=
    Nat.mul_le_mul_left _ (by omega)
  rw [Nat.mul_succ, Nat.mul_comm w.chunksH.toNat w.chunksW.toNat] at hmul
  omega

theorem cellOffset_lt {w : World} (hw : w.Consistent) {x y : Int32} (h : w.validCoord x y = true) :
    w.durability.cellOffset x.toUInt32 y.toUInt32 < w.durability.mmap.length := by
  have hidx := chunkIdx_lt hw h
  have hcell := Layer.inChunk_lt x.toUInt32 y.toUInt32
  have hsized := hw.sized
  rw [Layer.cellOffset]
  have := Nat.mul_le_mul_right chunkCells (show w.durability.chunkIdx _ _ + 1 ≤ _ from hidx)
  rw [Nat.succ_mul] at this
  omega

theorem mapView_setCell {m : MapStore} (hm : m.WellFormed) (x y : Int32) (cell : UInt8) (id c : Nat) :
    (m.setCell x y cell).cellAt id c = if m.locate x y = some (id, c) then cell else m.cellAt id c := by
  cases hloc : m.locate x y with
  | none => simp [MapStore.setCell_of_locate_none cell hloc]
  | some q =>
      obtain ⟨-, hid, -⟩ := MapStore.locate_lt hm.toIndexed hloc
      rw [MapStore.cellAt_setCell hm.toIndexed cell hloc (fun hs => MapStore.newSlot_fits hm hid hs)]
      simp [Prod.ext_iff, eq_comm]

/-- Writing the byte that a coordinate already shows changes no cell. -/
theorem mapView_setCell_getCell {m : MapStore} (hm : m.WellFormed) {x y : Int32} {cell : UInt8}
    (h : m.getCell x y = cell) (id c : Nat) : (m.setCell x y cell).cellAt id c = m.cellAt id c := by
  rw [mapView_setCell hm]
  split
  · rename_i hloc
    rw [← h, MapStore.getCell, hloc]
  · rfl

theorem replay_entries (s : Addr → Nat) (w : World) (r : JournalRecord) (a : Addr) :
    replay s (w.entries r) a =
      match a with
      | .foreground id c =>
        if w.cells.locate r.x r.y = some (id, c) then r.foreground.toNat else s (.foreground id c)
      | .road id c => if w.road.locate r.x r.y = some (id, c) then r.road.toNat else s (.road id c)
      | .durability i =>
        if i = w.durability.cellOffset r.x.toUInt32 r.y.toUInt32 then r.durability.toNat
        else s (.durability i) := by
  unfold entries
  cases w.cells.locate r.x r.y <;> cases w.road.locate r.x r.y <;> cases a <;>
    simp [Function.update_apply, Prod.ext_iff, eq_comm]

/-- One record, redone: every layer holds the record's image. -/
theorem view_put {w : World} (hw : w.Consistent) {r : JournalRecord}
    (hvalid : w.validCoord r.x r.y = true) : (w.put r).view = replay w.view (w.entries r) := by
  funext a
  rw [replay_entries]
  cases a with
  | foreground id c =>
      simp only [view, put, setDurabilityDirect, mapView_setCell hw.cells]
      split <;> rfl
  | road id c =>
      simp only [view, put, setDurabilityDirect, mapView_setCell hw.road]
      split <;> rfl
  | durability i =>
      simp only [view, put, setDurabilityDirect, Layer.word_write _ (cellOffset_lt hw hvalid)]
      split <;> rfl

theorem Applied.view {w v : World} {r : JournalRecord} (hw : w.Consistent) (h : w.Applied r v) :
    v.view = replay w.view (w.entries r) := by
  rw [← view_put hw h.valid]
  funext a
  cases a with
  | foreground id c =>
      rcases h.cells with he | ⟨he, hsame⟩
      · simp only [World.view, put, setDurabilityDirect, he]
      · simp only [World.view, put, setDurabilityDirect, he, mapView_setCell_getCell hw.cells hsame]
  | road id c =>
      rcases h.road with he | ⟨he, hsame⟩
      · simp only [World.view, put, setDurabilityDirect, he]
      · simp only [World.view, put, setDurabilityDirect, he, mapView_setCell_getCell hw.road hsame]
  | durability i => simp only [World.view, put, setDurabilityDirect, h.durability]

theorem Applied.sameShape {w v : World} {r : JournalRecord} (h : w.Applied r v) : SameShape w v := by
  have hcells : v.cells.blocksW = w.cells.blocksW ∧ v.cells.blocksH = w.cells.blocksH := by
    rcases h.cells with he | ⟨he, -⟩
    · rw [he]
      exact (MapStore.setCell_shape _ _ _ _).2.2
    · rw [he]
      exact ⟨rfl, rfl⟩
  have hroad : v.road.blocksW = w.road.blocksW ∧ v.road.blocksH = w.road.blocksH := by
    rcases h.road with he | ⟨he, -⟩
    · rw [he]
      exact (MapStore.setCell_shape _ _ _ _).2.2
    · rw [he]
      exact ⟨rfl, rfl⟩
  exact ⟨h.chunksW, h.chunksH, hcells.1, hcells.2, hroad.1, hroad.2, by rw [h.durability]; simp⟩

theorem Applied.consistent {w v : World} {r : JournalRecord} (hw : w.Consistent) (h : w.Applied r v) :
    v.Consistent where
  cells := by
    rcases h.cells with he | ⟨he, -⟩
    · exact he ▸ MapStore.setCell_wellFormed hw.cells _ _ _
    · exact he ▸ hw.cells
  road := by
    rcases h.road with he | ⟨he, -⟩
    · exact he ▸ MapStore.setCell_wellFormed hw.road _ _ _
    · exact he ▸ hw.road
  chunksH := by
    rw [h.durability, h.chunksH, Layer.write_chunksH, hw.chunksH]
  sized := by
    rw [h.durability, h.chunksH, h.chunksW, Layer.length_write]
    exact hw.sized

theorem put_sameShape (w : World) (r : JournalRecord) : SameShape w (w.put r) := by
  obtain ⟨-, -, hcw, hch⟩ := MapStore.setCell_shape w.cells r.x r.y r.foreground
  obtain ⟨-, -, hrw, hrh⟩ := MapStore.setCell_shape w.road r.x r.y r.road
  exact ⟨rfl, rfl, hcw, hch, hrw, hrh, Layer.write_chunksH _ _ _ _⟩

theorem put_consistent {w : World} (hw : w.Consistent) (r : JournalRecord) : (w.put r).Consistent where
  cells := MapStore.setCell_wellFormed hw.cells _ _ _
  road := MapStore.setCell_wellFormed hw.road _ _ _
  chunksH := (Layer.write_chunksH _ _ _ _).trans hw.chunksH
  sized := by
    rw [put, setDurabilityDirect, Layer.length_write]
    exact hw.sized

/-- Redoing records that lie inside the world. -/
theorem view_applyJournalRecords {w : World} (hw : w.Consistent) {records : List JournalRecord}
    (hvalid : ∀ r ∈ records, w.validCoord r.x r.y = true) :
    (w.applyJournalRecords records).view = replay w.view (records.flatMap w.entries) ∧
      (w.applyJournalRecords records).Consistent ∧ SameShape w (w.applyJournalRecords records) := by
  induction records generalizing w with
  | nil => exact ⟨rfl, hw, SameShape.refl w⟩
  | cons r records ih =>
      have hr := hvalid r (by simp)
      have hshape := put_sameShape w r
      obtain ⟨hview, hcons, hsame⟩ := ih (put_consistent hw r) (fun q hq => by
        rw [hshape.validCoord]
        exact hvalid q (List.mem_cons_of_mem _ hq))
      have hstep : w.applyJournalRecords (r :: records) = (w.put r).applyJournalRecords records := by
        rw [applyJournalRecords, List.foldl_cons, if_pos hr]
        rfl
      rw [hstep]
      refine ⟨?_, hcons, hshape.trans hsame⟩
      rw [hview, List.flatMap_cons, replay_append, view_put hw hr]
      congr 2
      exact funext hshape.entries

/-- A run of mutations as its journal tells it. -/
structure Logged (w : World) (records : List JournalRecord) (v : World) : Prop where
  consistent : v.Consistent
  sameShape : SameShape w v
  valid : ∀ r ∈ records, w.validCoord r.x r.y = true
  journal : v.journal = w.journal ++ records.flatMap JournalRecord.encode
  view : v.view = replay w.view (records.flatMap w.entries)

theorem Logged.refl {w : World} (hw : w.Consistent) : Logged w [] w :=
  ⟨hw, SameShape.refl w, by simp, by simp, rfl⟩

theorem Logged.cons {u v w : World} {r : JournalRecord} {records : List JournalRecord}
    (hu : u.Consistent) (h : u.Applied r v) (hlog : Logged v records w) : Logged u (r :: records) w where
  consistent := hlog.consistent
  sameShape := h.sameShape.trans hlog.sameShape
  valid := by
    intro q hq
    rcases List.mem_cons.mp hq with rfl | hq
    · exact h.valid
    · rw [← h.sameShape.validCoord]
      exact hlog.valid q hq
  journal := by rw [hlog.journal, h.journal, List.flatMap_cons, List.append_assoc]
  view := by
    rw [hlog.view, h.view hu, List.flatMap_cons, replay_append]
    congr 2
    exact funext h.sameShape.entries

variable {f : FloatOps}

/-- Mutations whose journal append succeeded. -/
def mutateAll (f : FloatOps) (w : World) (ms : List Mutation) : Option World :=
  run (fun w m => w.mutate f .ok m) w ms

theorem mutateAll_logged {w v : World} (hw : w.Consistent) {ms : List Mutation}
    (h : mutateAll f w ms = some v) : ∃ records, Logged w records v := by
  induction ms generalizing w with
  | nil =>
      cases h
      exact ⟨[], Logged.refl hw⟩
  | cons m ms ih =>
      obtain ⟨u, hm, hms⟩ := run_cons_eq_some.mp h
      rcases mutate_applied hm with rfl | ⟨r, happ⟩
      · exact ih hw hms
      · obtain ⟨records, hlog⟩ := ih (happ.consistent hw) hms
        exact ⟨r :: records, hlog.cons hw happ⟩

theorem flatMap_encode_injective {rs qs : List JournalRecord}
    (h : rs.flatMap JournalRecord.encode = qs.flatMap JournalRecord.encode) : rs = qs := by
  have hr := readRecords_torn "" rs (show [].length < journalRecordLen by decide)
  have hq := readRecords_torn "" qs (show [].length < journalRecordLen by decide)
  rw [h, hq] at hr
  exact (Except.ok.inj hr).symm

/-- Some of the mutations have reached the files: each cell of each layer is as it
was after some number of them. -/
structure Reached (f : FloatOps) (w : World) (ms : List Mutation) (b : World) : Prop where
  cells : ∀ x y, ∃ k v, mutateAll f w (ms.take k) = some v ∧ b.cells.getCell x y = v.cells.getCell x y
  road : ∀ x y, ∃ k v, mutateAll f w (ms.take k) = some v ∧ b.road.getCell x y = v.road.getCell x y
  durability : ∀ x y, ∃ k v, mutateAll f w (ms.take k) = some v ∧
    b.getDurability x y = v.getDurability x y

/-- The three layers show the same cells. -/
structure SameLayers (v w : World) : Prop where
  cells : ∀ x y, v.cells.getCell x y = w.cells.getCell x y
  road : ∀ x y, v.road.getCell x y = w.road.getCell x y
  durability : ∀ x y, v.getDurability x y = w.getDurability x y

theorem replay_view_of_reached {w v b : World} (hw : w.Consistent) {ms : List Mutation}
    {records : List JournalRecord} (hrun : mutateAll f w ms = some v) (hlog : Logged w records v)
    {a : Addr} (h : ∃ k u, mutateAll f w (ms.take k) = some u ∧ b.view a = u.view a) :
    replay b.view (records.flatMap w.entries) a = v.view a := by
  obtain ⟨k, u, htake, hb⟩ := h
  rw [hlog.view]
  refine replay_congr ?_
  intro hfree
  obtain ⟨before, hbefore⟩ := mutateAll_logged hw htake
  have hdrop : mutateAll f u (ms.drop k) = some v := by
    have happ := run_append_eq_some.mp ((List.take_append_drop k ms).symm ▸ hrun)
    obtain ⟨u', hu', hv⟩ := happ
    rw [mutateAll] at htake
    rw [htake] at hu'
    cases hu'
    exact hv
  obtain ⟨after, hafter⟩ := mutateAll_logged hbefore.consistent hdrop
  have hsplit : records = before ++ after := by
    apply flatMap_encode_injective
    have hjournal := hafter.journal
    rw [hlog.journal, hbefore.journal, List.append_assoc] at hjournal
    rw [List.flatMap_append]
    exact List.append_cancel_left hjournal
  rw [hsplit, List.flatMap_append, List.map_append, List.mem_append, not_or] at hfree
  rw [hb, hbefore.view, replay_untouched _ _ _ hfree.1]

theorem getCell_of_locate {m : MapStore} {x y : Int32} {id c : Nat} (h : m.locate x y = some (id, c)) :
    m.getCell x y = m.cellAt id c := by
  unfold MapStore.getCell
  rw [h]

theorem getCell_of_locate_none {m : MapStore} {x y : Int32} (h : m.locate x y = none) :
    m.getCell x y = 0 := by
  unfold MapStore.getCell
  rw [h]

theorem getDurability_of_valid {w : World} {x y : Int32} (h : w.validCoord x y = true) :
    w.getDurability x y = w.durability.word (w.durability.cellOffset x.toUInt32 y.toUInt32) :=
  if_pos h

/-- Layers that agree at the addresses of the coordinates show the same cells. -/
theorem sameLayers_of_view {v w : World} (hshape : SameShape w v)
    (hcells : ∀ x y id c, w.cells.locate x y = some (id, c) →
      v.view (.foreground id c) = w.view (.foreground id c))
    (hroad : ∀ x y id c, w.road.locate x y = some (id, c) → v.view (.road id c) = w.view (.road id c))
    (hdur : ∀ x y, w.validCoord x y = true →
      v.view (.durability (w.durability.cellOffset x.toUInt32 y.toUInt32)) =
        w.view (.durability (w.durability.cellOffset x.toUInt32 y.toUInt32))) : SameLayers v w where
  cells := by
    intro x y
    have hlocate := MapStore.locate_congr hshape.cellsW hshape.cellsH x y
    cases hloc : w.cells.locate x y with
    | none => rw [getCell_of_locate_none hloc, getCell_of_locate_none (hlocate.trans hloc)]
    | some q =>
        rw [getCell_of_locate hloc, getCell_of_locate (hlocate.trans hloc)]
        exact UInt8.toNat_inj.mp (hcells x y q.1 q.2 hloc)
  road := by
    intro x y
    have hlocate := MapStore.locate_congr hshape.roadW hshape.roadH x y
    cases hloc : w.road.locate x y with
    | none => rw [getCell_of_locate_none hloc, getCell_of_locate_none (hlocate.trans hloc)]
    | some q =>
        rw [getCell_of_locate hloc, getCell_of_locate (hlocate.trans hloc)]
        exact UInt8.toNat_inj.mp (hroad x y q.1 q.2 hloc)
  durability := by
    intro x y
    cases hvalid : w.validCoord x y with
    | false => simp [getDurability, hshape.validCoord, hvalid]
    | true =>
        rw [getDurability_of_valid hvalid, getDurability_of_valid ((hshape.validCoord x y).trans hvalid),
          hshape.cellOffset]
        exact UInt32.toNat_inj.mp (hdur x y hvalid)

/-- Redoing the journal of a run of mutations, over the layers of the checkpoint or
over any layers that some of the mutations have reached, gives the live layers. -/
theorem applyJournalRecords_eq_live (path : String) {w v : World} (hw : w.Consistent)
    (hcheckpoint : w.journal = []) {ms : List Mutation} (hrun : mutateAll f w ms = some v) :
    ∃ records, readRecords path (some v.journal) = .ok records ∧
      ∀ b : World, b.Consistent → SameShape w b → Reached f w ms b →
        SameLayers (b.applyJournalRecords records) v := by
  obtain ⟨records, hlog⟩ := mutateAll_logged hw hrun
  have hjournal := hlog.journal
  rw [hcheckpoint, List.nil_append] at hjournal
  refine ⟨records, ?_, ?_⟩
  · have hread := readRecords_torn path records (show [].length < journalRecordLen by decide)
    rwa [List.append_nil, ← hjournal] at hread
  · intro b hb hshape hreached
    have hvalid : ∀ r ∈ records, b.validCoord r.x r.y = true := by
      intro r hr
      rw [hshape.validCoord]
      exact hlog.valid r hr
    obtain ⟨hview, -, hsame⟩ := view_applyJournalRecords hb hvalid
    have hentries : b.entries = w.entries := funext hshape.entries
    have hshapeb := hlog.sameShape.symm.trans hshape
    have hat (a : Addr) (h : ∃ k u, mutateAll f w (ms.take k) = some u ∧ b.view a = u.view a) :
        (b.applyJournalRecords records).view a = v.view a := by
      rw [hview, hentries]
      exact replay_view_of_reached hw hrun hlog h
    have hshapeu {k : Nat} {u : World} (hu : mutateAll f w (ms.take k) = some u) : SameShape v u := by
      obtain ⟨_, hlogu⟩ := mutateAll_logged hw hu
      exact hlog.sameShape.symm.trans hlogu.sameShape
    refine sameLayers_of_view (hshapeb.trans hsame) ?_ ?_ ?_
    · intro x y id c hloc
      obtain ⟨k, u, hu, he⟩ := hreached.cells x y
      refine hat _ ⟨k, u, hu, ?_⟩
      rw [getCell_of_locate ((MapStore.locate_congr hshapeb.cellsW hshapeb.cellsH x y).trans hloc),
        getCell_of_locate ((MapStore.locate_congr (hshapeu hu).cellsW (hshapeu hu).cellsH x y).trans hloc)]
        at he
      exact congrArg UInt8.toNat he
    · intro x y id c hloc
      obtain ⟨k, u, hu, he⟩ := hreached.road x y
      refine hat _ ⟨k, u, hu, ?_⟩
      rw [getCell_of_locate ((MapStore.locate_congr hshapeb.roadW hshapeb.roadH x y).trans hloc),
        getCell_of_locate ((MapStore.locate_congr (hshapeu hu).roadW (hshapeu hu).roadH x y).trans hloc)]
        at he
      exact congrArg UInt8.toNat he
    · intro x y hvalid
      obtain ⟨k, u, hu, he⟩ := hreached.durability x y
      refine hat _ ⟨k, u, hu, ?_⟩
      rw [getDurability_of_valid ((hshapeb.validCoord x y).trans hvalid),
        getDurability_of_valid (((hshapeu hu).validCoord x y).trans hvalid), hshapeb.cellOffset,
        (hshapeu hu).cellOffset] at he
      exact congrArg UInt32.toNat he

/-- A fresh world of one chunk with an empty cell type and solid ones. -/
def smallWorld (m : MapStore) : World :=
  { chunksW := 1, chunksH := 1, cells := m, road := m
    durability := Layer.open [] 1 1
    journal := []
    cellDefs := (List.range 126).map (fun i => { isEmpty := i == 32, durability := 1065353216 }) }

theorem smallWorld_consistent {m : MapStore} (hnew : MapStore.new 32 32 = .ok m) :
    (smallWorld m).Consistent :=
  ⟨MapStore.new_wellFormed hnew, MapStore.new_wellFormed hnew, rfl, by simp [smallWorld, Layer.open]⟩

/-- A cell is placed and damaged. -/
theorem applyJournalRecords_smallWorld : ∃ m v records, MapStore.new 32 32 = .ok m ∧
    mutateAll ⟨(· - ·), (· == 0)⟩ (smallWorld m)
      [.setCellTyped 3 4 50, .damageCell 3 4 7] = some v ∧
    readRecords "w" (some v.journal) = .ok records ∧
    SameLayers ((smallWorld m).applyJournalRecords records) v := by
  have hrun : ∃ m v, MapStore.new 32 32 = .ok m ∧
      mutateAll ⟨(· - ·), (· == 0)⟩ (smallWorld m)
        [.setCellTyped 3 4 50, .damageCell 3 4 7] = some v := ⟨_, _, rfl, rfl⟩
  obtain ⟨m, v, hnew, hrun⟩ := hrun
  have hw := smallWorld_consistent hnew
  obtain ⟨records, hread, hlive⟩ := applyJournalRecords_eq_live "w" hw rfl hrun
  refine ⟨m, v, records, hnew, hrun, hread, hlive _ hw (SameShape.refl _) ?_⟩
  exact ⟨fun _ _ => ⟨0, _, rfl, rfl⟩, fun _ _ => ⟨0, _, rfl, rfl⟩, fun _ _ => ⟨0, _, rfl, rfl⟩⟩

end World

end OpenMines
