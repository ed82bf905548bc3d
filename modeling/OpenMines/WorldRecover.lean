import OpenMines.WorldFlush

namespace OpenMines

open MapFormat MapFormat.MapStore Journal Lib.FileImage Lib.RedoLog Lib.Run

namespace MapFormat.FlushState

variable {ck : MapStore} {touched : Nat → Nat → Prop} {s : FlushState}

theorem Safe.detached (h : s.Safe ck touched) (hp : s.pending = none) : s.detached.Safe ck touched := by
  unfold FlushState.detached
  split
  · rw [← hp]
    exact h
  · rename_i b m htake
    exact h.take hp htake

theorem Safe.written (h : s.Safe ck touched) (n : Nat) : (s.written n).Safe ck touched := by
  unfold FlushState.written
  split
  · exact h
  · rename_i b rest hp
    exact h.write hp n

theorem Safe.restored (h : s.Safe ck touched) : s.restored.Safe ck touched := by
  unfold FlushState.restored
  split
  · exact h
  · rename_i b rest hp
    exact h.fail hp

theorem detached_sameCells (s : FlushState) : SameCells s.store s.detached.store := by
  unfold FlushState.detached
  split
  · exact SameCells.refl _
  · rename_i b m htake
    exact takeFlushBatch_sameCells htake

theorem written_store (s : FlushState) (n : Nat) : (s.written n).store = s.store := by
  unfold FlushState.written
  split <;> rfl

theorem restored_sameCells (s : FlushState) : SameCells s.store s.restored.store := by
  unfold FlushState.restored
  split
  · exact SameCells.refl _
  · exact restoreFlushBatch_sameCells _ _

theorem restored_pending (s : FlushState) : s.restored.pending = none := by
  unfold FlushState.restored
  split
  · rename_i hp
    exact hp
  · rfl

theorem detached_clean (s : FlushState) : s.detached.store.isDirty = false := by
  unfold FlushState.detached
  split
  · rename_i hnone
    exact isDirty_of_takeFlushBatch_eq_none hnone
  · rename_i b m htake
    exact (takeFlushBatch_eq_some htake).2.2.2.2.2.2.2.2

end MapFormat.FlushState

namespace World

/-- A world as its constructor sizes it, of fewer than `2 ^ 32` chunks. -/
structure Fits (w : World) : Prop extends Consistent w where
  width_lt : (w.chunksW * chunkSize).toNat < 2 ^ 31
  height_lt : (w.chunksH * chunkSize).toNat < 2 ^ 31
  chunks_lt : w.chunksW.toNat * w.chunksH.toNat < 2 ^ 32
  cellsWidth : w.cells.width = (w.chunksW * chunkSize).toInt32
  cellsHeight : w.cells.height = (w.chunksH * chunkSize).toInt32
  roadWidth : w.road.width = (w.chunksW * chunkSize).toInt32
  roadHeight : w.road.height = (w.chunksH * chunkSize).toInt32
  mask : w.durability.dirtyMask.length = (w.chunksW * w.chunksH).toNat

/-- Worlds of one size stored alike. -/
structure SameSize (w v : World) : Prop where
  chunksW : v.chunksW = w.chunksW
  chunksH : v.chunksH = w.chunksH
  cellsWidth : v.cells.width = w.cells.width
  cellsHeight : v.cells.height = w.cells.height
  roadWidth : v.road.width = w.road.width
  roadHeight : v.road.height = w.road.height
  mask : v.durability.dirtyMask.length = w.durability.dirtyMask.length

theorem Fits.congr {w v : World} (h : w.Fits) (hv : v.Consistent) (hsize : SameSize w v) : v.Fits where
  toConsistent := hv
  width_lt := by rw [hsize.chunksW]; exact h.width_lt
  height_lt := by rw [hsize.chunksH]; exact h.height_lt
  chunks_lt := by rw [hsize.chunksW, hsize.chunksH]; exact h.chunks_lt
  cellsWidth := by rw [hsize.chunksW, hsize.cellsWidth, h.cellsWidth]
  cellsHeight := by rw [hsize.chunksH, hsize.cellsHeight, h.cellsHeight]
  roadWidth := by rw [hsize.chunksW, hsize.roadWidth, h.roadWidth]
  roadHeight := by rw [hsize.chunksH, hsize.roadHeight, h.roadHeight]
  mask := by rw [hsize.chunksW, hsize.chunksH, hsize.mask, h.mask]

theorem Fits.chunkIdx_lt_mask {w : World} (h : w.Fits) {x y : Int32} (hvalid : w.validCoord x y = true) :
    w.durability.chunkIdx x.toUInt32 y.toUInt32 < w.durability.dirtyMask.length := by
  have hidx := chunkIdx_lt h.toConsistent hvalid
  rw [h.mask, UInt32.toNat_mul, Nat.mod_eq_of_lt h.chunks_lt]
  exact hidx

theorem put_sameSize (w : World) (r : JournalRecord) : SameSize w (w.put r) := by
  obtain ⟨hcw, hch, -, -⟩ := MapStore.setCell_shape w.cells r.x r.y r.foreground
  obtain ⟨hrw, hrh, -, -⟩ := MapStore.setCell_shape w.road r.x r.y r.road
  exact ⟨rfl, rfl, hcw, hch, hrw, hrh, Layer.length_dirtyMask_markDirty _ _ _⟩

theorem Applied.sameSize {w v : World} {r : JournalRecord} (h : w.Applied r v) : SameSize w v := by
  have hcells : v.cells.width = w.cells.width ∧ v.cells.height = w.cells.height := by
    rcases h.cells with he | ⟨he, -⟩
    · obtain ⟨hw, hh, -, -⟩ := MapStore.setCell_shape w.cells r.x r.y r.foreground
      exact ⟨by rw [he, hw], by rw [he, hh]⟩
    · exact ⟨by rw [he], by rw [he]⟩
  have hroad : v.road.width = w.road.width ∧ v.road.height = w.road.height := by
    rcases h.road with he | ⟨he, -⟩
    · obtain ⟨hw, hh, -, -⟩ := MapStore.setCell_shape w.road r.x r.y r.road
      exact ⟨by rw [he, hw], by rw [he, hh]⟩
    · exact ⟨by rw [he], by rw [he]⟩
  refine ⟨h.chunksW, h.chunksH, hcells.1, hcells.2, hroad.1, hroad.2, ?_⟩
  rw [h.durability]
  exact Layer.length_dirtyMask_markDirty _ _ _

/-- The records of a journal, some bytes of a torn one behind them, tell what
became of the layers: redoing them changes nothing. -/
structure Journaled (records : List JournalRecord) (w : World) : Prop extends Fits w where
  journal : ∃ tail, tail.length < journalRecordLen ∧
    w.journal = records.flatMap JournalRecord.encode ++ tail
  valid : ∀ r ∈ records, w.validCoord r.x r.y = true
  redone : replay w.view (records.flatMap w.entries) = w.view

/-- Worlds that differ in their dirty marks and their journals at most. -/
structure SameContents (w v : World) : Prop where
  chunksW : v.chunksW = w.chunksW
  chunksH : v.chunksH = w.chunksH
  cells : SameCells w.cells v.cells
  road : SameCells w.road v.road
  mmap : v.durability.mmap = w.durability.mmap
  layerH : v.durability.chunksH = w.durability.chunksH
  mask : v.durability.dirtyMask.length = w.durability.dirtyMask.length

section Contents

variable {w v : World} {records : List JournalRecord}

theorem SameContents.view (h : SameContents w v) : v.view = w.view := by
  funext a
  cases a with
  | foreground id c => simp only [World.view, h.cells.cellAt]
  | road id c => simp only [World.view, h.road.cellAt]
  | durability i => simp only [World.view, Layer.word, h.mmap]

theorem SameContents.sameShape (h : SameContents w v) : SameShape w v :=
  ⟨h.chunksW, h.chunksH, h.cells.blocksW, h.cells.blocksH, h.road.blocksW, h.road.blocksH, h.layerH⟩

theorem SameContents.sameSize (h : SameContents w v) : SameSize w v :=
  ⟨h.chunksW, h.chunksH, h.cells.width, h.cells.height, h.road.width, h.road.height, h.mask⟩

theorem SameContents.consistent (h : SameContents w v) (hw : w.Consistent) (hcells : v.cells.WellFormed)
    (hroad : v.road.WellFormed) : v.Consistent :=
  ⟨hcells, hroad, by rw [h.layerH, h.chunksH, hw.chunksH],
    by rw [h.chunksW, h.chunksH, h.mmap]; exact hw.sized⟩

theorem Journaled.congr (h : Journaled records w) (hsame : SameContents w v)
    (hcells : v.cells.WellFormed) (hroad : v.road.WellFormed) (hjournal : v.journal = w.journal) :
    Journaled records v where
  toFits := h.toFits.congr (hsame.consistent h.toConsistent hcells hroad) hsame.sameSize
  journal := by
    rw [hjournal]
    exact h.journal
  valid := by
    intro r hr
    rw [hsame.sameShape.validCoord]
    exact h.valid r hr
  redone := by
    rw [hsame.view, show v.entries = w.entries from funext hsame.sameShape.entries]
    exact h.redone

/-- After a checkpoint there is nothing to redo. -/
theorem journaled_nil (hw : w.Fits) (hjournal : w.journal = []) : Journaled [] w where
  toFits := hw
  journal := ⟨[], by decide, hjournal⟩
  valid := by simp
  redone := rfl

theorem Journaled.journal_eq (h : Journaled records w)
    (hend : w.journal.length % journalRecordLen = 0) :
    w.journal = records.flatMap JournalRecord.encode := by
  obtain ⟨tail, htail, hjournal⟩ := h.journal
  rw [hjournal, List.length_append,
    Lib.FixedWidth.length_flatMap _ _ JournalRecord.length_encode, Nat.mul_add_mod_self_right,
    Nat.mod_eq_of_lt htail] at hend
  rw [hjournal, List.length_eq_zero_iff.mp hend, List.append_nil]

theorem Journaled.torn (h : Journaled records w) (hend : w.journal.length % journalRecordLen = 0)
    (r : JournalRecord) (n : Fin journalRecordLen) : Journaled records (w.torn r n) where
  toFits := h.toFits.congr ⟨h.cells, h.road, h.chunksH, h.sized⟩ ⟨rfl, rfl, rfl, rfl, rfl, rfl, rfl⟩
  journal := by
    refine ⟨r.encode.take n, ?_, ?_⟩
    · rw [List.length_take, JournalRecord.length_encode]
      omega
    · rw [World.torn, h.journal_eq hend]
  valid := h.valid
  redone := h.redone

theorem Journaled.applied (h : Journaled records w) (hend : w.journal.length % journalRecordLen = 0)
    {r : JournalRecord} (happ : w.Applied r v) : Journaled (records ++ [r]) v where
  toFits := h.toFits.congr (happ.consistent h.toConsistent) happ.sameSize
  journal := by
    refine ⟨[], by decide, ?_⟩
    rw [happ.journal, h.journal_eq hend, List.flatMap_append, List.flatMap_singleton, List.append_nil]
  valid := by
    intro q hq
    rw [happ.sameShape.validCoord]
    rcases List.mem_append.mp hq with hq | hq
    · exact h.valid q hq
    · rw [List.mem_singleton.mp hq]
      exact happ.valid
  redone := by
    rw [show v.entries = w.entries from funext happ.sameShape.entries, List.flatMap_append,
      List.flatMap_singleton, replay_append, happ.view h.toConsistent]
    funext a
    refine replay_congr ?_
    intro hfree
    calc replay (replay w.view (w.entries r)) (records.flatMap w.entries) a
        = replay w.view (records.flatMap w.entries) a :=
          replay_congr (fun _ => replay_untouched _ _ _ hfree)
      _ = w.view a := congrFun h.redone a

end Contents

/-- The places that redoing the records writes. -/
def touched (w : World) (records : List JournalRecord) : List Addr :=
  (records.flatMap w.entries).map Prod.fst

theorem touched_congr {w v : World} (h : SameShape w v) (records : List JournalRecord) :
    v.touched records = w.touched records := by
  rw [touched, show v.entries = w.entries from funext h.entries, touched]

theorem touched_append (w : World) (records more : List JournalRecord) :
    w.touched (records ++ more) = w.touched records ++ w.touched more := by
  rw [touched, List.flatMap_append, List.map_append, touched, touched]

theorem foreground_mem_touched {w : World} {records : List JournalRecord} {r : JournalRecord}
    (hr : r ∈ records) {id c : Nat} (h : w.cells.locate r.x r.y = some (id, c)) :
    .foreground id c ∈ w.touched records := by
  refine List.mem_map.mpr ⟨(.foreground id c, r.foreground.toNat), ?_, rfl⟩
  exact List.mem_flatMap.mpr ⟨r, hr, by simp [entries, h]⟩

theorem road_mem_touched {w : World} {records : List JournalRecord} {r : JournalRecord}
    (hr : r ∈ records) {id c : Nat} (h : w.road.locate r.x r.y = some (id, c)) :
    .road id c ∈ w.touched records := by
  refine List.mem_map.mpr ⟨(.road id c, r.road.toNat), ?_, rfl⟩
  exact List.mem_flatMap.mpr ⟨r, hr, by simp [entries, h]⟩

theorem durability_mem_touched {w : World} {records : List JournalRecord} {r : JournalRecord}
    (hr : r ∈ records) :
    .durability (w.durability.cellOffset r.x.toUInt32 r.y.toUInt32) ∈ w.touched records := by
  refine List.mem_map.mpr ⟨(.durability _, r.durability.toNat), ?_, rfl⟩
  exact List.mem_flatMap.mpr ⟨r, hr, by simp [entries]⟩

end World

namespace LiveWorld

/-- Each layer can be had back from its file, but for the places in `touched`. -/
structure Kept (ck ckRoad : MapStore) (touched : List Addr) (s : LiveWorld) : Prop where
  cells : s.cells.Safe ck (fun id c => .foreground id c ∈ touched)
  road : s.road.Safe ckRoad (fun id c => .road id c ∈ touched)
  durability : s.world.durability.Safe (fun i => .durability i ∈ touched) s.durabilityFile

variable {ck ckRoad : MapStore} {s : LiveWorld}

theorem Kept.mono {touched touched' : List Addr} (h : s.Kept ck ckRoad touched)
    (hle : ∀ a ∈ touched, a ∈ touched') : s.Kept ck ckRoad touched' :=
  ⟨h.cells.mono (fun _ _ => hle _), h.road.mono (fun _ _ => hle _), h.durability.mono (fun _ => hle _)⟩

/-- A mutation with its record, which names what it touches. -/
theorem Kept.applied {records : List JournalRecord} (h : s.Kept ck ckRoad (s.world.touched records))
    (hfits : s.world.Fits) {r : JournalRecord} (hr : r ∈ records) {v : World}
    (happ : s.world.Applied r v) :
    Kept ck ckRoad (v.touched records) { s with world := v } where
  cells := by
    rw [World.touched_congr happ.sameShape]
    have hset := h.cells.setCell r.foreground
      (fun id c hloc => World.foreground_mem_touched hr hloc)
    rcases happ.cells with he | ⟨he, -⟩
    · rw [LiveWorld.cells, he]
      exact hset
    · rw [LiveWorld.cells, he]
      exact h.cells
  road := by
    rw [World.touched_congr happ.sameShape]
    have hset := h.road.setCell r.road (fun id c hloc => World.road_mem_touched hr hloc)
    rcases happ.road with he | ⟨he, -⟩
    · rw [LiveWorld.road, he]
      exact hset
    · rw [LiveWorld.road, he]
      exact h.road
  durability := by
    rw [World.touched_congr happ.sameShape]
    simp only [happ.durability]
    exact h.durability.write r.durability (hfits.chunkIdx_lt_mask happ.valid)
      (World.durability_mem_touched hr)

theorem applied_put (w : World) {r : JournalRecord} (hvalid : w.validCoord r.x r.y = true) :
    w.Applied r { w.put r with journal := w.journal ++ r.encode } :=
  ⟨hvalid, rfl, Or.inl rfl, Or.inl rfl, rfl, rfl, rfl, rfl⟩

/-- Redoing records touches nothing that they do not name. -/
theorem Kept.applyJournalRecords {records redo : List JournalRecord}
    (h : s.Kept ck ckRoad (s.world.touched records)) (hfits : s.world.Fits)
    (hredo : ∀ r ∈ redo, r ∈ records ∧ s.world.validCoord r.x r.y = true) :
    Kept ck ckRoad ((s.world.applyJournalRecords redo).touched records)
      { s with world := s.world.applyJournalRecords redo } ∧
    (s.world.applyJournalRecords redo).Fits := by
  induction redo generalizing s with
  | nil => exact ⟨h, hfits⟩
  | cons r redo ih =>
      obtain ⟨hr, hvalid⟩ := hredo r (by simp)
      have hput := h.applied hfits hr (applied_put s.world hvalid)
      have hnext : Kept ck ckRoad ((s.world.put r).touched records) { s with world := s.world.put r } :=
        ⟨hput.cells, hput.road, hput.durability⟩
      have hstep : s.world.applyJournalRecords (r :: redo) =
          (s.world.put r).applyJournalRecords redo := by
        rw [World.applyJournalRecords, List.foldl_cons, if_pos hvalid]
        rfl
      rw [hstep]
      refine ih (s := { s with world := s.world.put r }) hnext ?_ ?_
      · exact hfits.congr (World.put_consistent hfits.toConsistent r) (World.put_sameSize s.world r)
      · intro q hq
        obtain ⟨hq, hvalidq⟩ := hredo q (List.mem_cons_of_mem _ hq)
        exact ⟨hq, ((World.put_sameShape s.world r).validCoord _ _).trans hvalidq⟩

/-- The invariant of the runs. -/
structure Safe (ck ckRoad : MapStore) (records : List JournalRecord) (s : LiveWorld) : Prop where
  journaled : s.world.Journaled records
  kept : s.Kept ck ckRoad (s.world.touched records)
  idle : s.flushing = false → s.cellsBatch = none ∧ s.roadBatch = none ∧ s.synced = false
  clean : s.flushing = true → s.world.cells.isDirty = false ∧ s.world.road.isDirty = false
  synced : s.synced = true →
    s.cells.rest = [] ∧ s.road.rest = [] ∧ s.durabilityFile = s.world.durability.mmap

variable {records : List JournalRecord}

theorem sameContents_withMaps {cells road : FlushState} (hcells : SameCells s.world.cells cells.store)
    (hroad : SameCells s.world.road road.store) : World.SameContents s.world (s.withMaps cells road).world :=
  ⟨rfl, rfl, hcells, hroad, rfl, rfl, rfl⟩

/-- A step of a flush on the map files. -/
theorem Safe.withMaps (h : s.Safe ck ckRoad records) {cells road : FlushState}
    (hcells : ∀ touched, s.cells.Safe ck touched → cells.Safe ck touched)
    (hroad : ∀ touched, s.road.Safe ckRoad touched → road.Safe ckRoad touched)
    (hsameCells : SameCells s.world.cells cells.store) (hsameRoad : SameCells s.world.road road.store) :
    (s.withMaps cells road).world.Journaled records ∧
      (s.withMaps cells road).Kept ck ckRoad ((s.withMaps cells road).world.touched records) := by
  have hsame := sameContents_withMaps hsameCells hsameRoad
  have hc := hcells _ h.kept.cells
  have hr := hroad _ h.kept.road
  refine ⟨h.journaled.congr hsame hc.consistent.wellFormed hr.consistent.wellFormed rfl, ?_⟩
  rw [World.touched_congr hsame.sameShape]
  exact ⟨hc, hr, h.kept.durability⟩

section Steps

variable {t : LiveWorld} {f : FloatOps} {path : String}

theorem Safe.mutate (h : s.Safe ck ckRoad records) {m : Mutation} {io : AppendOutcome}
    (hend : s.world.journal.length % journalRecordLen = 0)
    (hstep : s.step f path (.mutate m io) = some t) : ∃ records, t.Safe ck ckRoad records := by
  simp only [step] at hstep
  split at hstep
  · cases hstep
  · rename_i hidle
    obtain ⟨v, hv, rfl⟩ := Option.map_eq_some_iff.mp hstep
    have hflushing : s.flushing = false := by simpa using hidle
    obtain ⟨-, -, hsynced⟩ := h.idle hflushing
    have hrest (more : List JournalRecord) (hj : v.Journaled more)
        (hk : Kept ck ckRoad (v.touched more) { s with world := v }) :
        Safe ck ckRoad more { s with world := v } :=
      ⟨hj, hk, h.idle, by simp [hflushing], by simp [hsynced]⟩
    cases io with
    | ok =>
        rcases World.mutate_applied hv with rfl | ⟨r, happ⟩
        · exact ⟨records, h⟩
        · refine ⟨records ++ [r], hrest _ (h.journaled.applied hend happ) ?_⟩
          refine (h.kept.mono ?_).applied h.journaled.toFits (by simp) happ
          intro a ha
          rw [World.touched_append]
          exact List.mem_append_left _ ha
    | failed n =>
        rcases World.mutate_failed hv with rfl | ⟨r, rfl⟩
        · exact ⟨records, h⟩
        · refine ⟨records, hrest _ (h.journaled.torn hend r n) ?_⟩
          exact ⟨h.kept.cells, h.kept.road, h.kept.durability⟩

theorem Safe.takeBatches (h : s.Safe ck ckRoad records)
    (hstep : s.step f path .takeBatches = some t) : t.Safe ck ckRoad records := by
  simp only [step] at hstep
  split at hstep
  · cases hstep
  · rename_i hidle
    cases hstep
    obtain ⟨hcells, hroad, -⟩ := h.idle (by simpa using hidle)
    obtain ⟨hj, hk⟩ := h.withMaps (fun _ hs => hs.detached hcells) (fun _ hs => hs.detached hroad)
      s.cells.detached_sameCells s.road.detached_sameCells
    refine ⟨hj, ⟨hk.cells, hk.road, hk.durability⟩, by simp, ?_, by simp⟩
    exact fun _ => ⟨s.cells.detached_clean, s.road.detached_clean⟩

theorem Safe.writeMap (h : s.Safe ck ckRoad records) {n : Nat}
    (hstep : s.step f path (.writeMap n) = some t) : t.Safe ck ckRoad records := by
  simp only [step] at hstep
  split at hstep
  · rename_i hen
    cases hstep
    have hsame : SameCells s.world.cells (s.cells.written n).store := by
      rw [FlushState.written_store]
      exact SameCells.refl _
    obtain ⟨hj, hk⟩ := h.withMaps (fun _ hs => hs.written n) (fun _ hs => hs) hsame (SameCells.refl _)
    refine ⟨hj, hk, fun hidle => absurd (hen.1.symm.trans hidle) (by decide), ?_,
      fun hsynced => absurd (hsynced.symm.trans hen.2) (by decide)⟩
    intro hflushing
    obtain ⟨hcells, hroad⟩ := h.clean hflushing
    exact ⟨by rw [← hcells]; exact congrArg MapStore.isDirty (FlushState.written_store _ n), hroad⟩
  · cases hstep

theorem Safe.writeRoad (h : s.Safe ck ckRoad records) {n : Nat}
    (hstep : s.step f path (.writeRoad n) = some t) : t.Safe ck ckRoad records := by
  simp only [step] at hstep
  split at hstep
  · rename_i hen
    cases hstep
    have hsame : SameCells s.world.road (s.road.written n).store := by
      rw [FlushState.written_store]
      exact SameCells.refl _
    obtain ⟨hj, hk⟩ := h.withMaps (fun _ hs => hs) (fun _ hs => hs.written n) (SameCells.refl _) hsame
    refine ⟨hj, hk, fun hidle => absurd (hen.1.symm.trans hidle) (by decide), ?_,
      fun hsynced => absurd (hsynced.symm.trans hen.2.1) (by decide)⟩
    intro hflushing
    obtain ⟨hcells, hroad⟩ := h.clean hflushing
    exact ⟨hcells, by rw [← hroad]; exact congrArg MapStore.isDirty (FlushState.written_store _ n)⟩
  · cases hstep

theorem Safe.writeback (h : s.Safe ck ckRoad records) {i : Nat}
    (hstep : s.step f path (.writeback i) = some t) : t.Safe ck ckRoad records := by
  cases hstep
  refine ⟨h.journaled, ⟨h.kept.cells, h.kept.road, h.kept.durability.writeback i⟩, h.idle, h.clean, ?_⟩
  intro hsynced
  obtain ⟨hcells, hroad, hfile⟩ := h.synced hsynced
  refine ⟨hcells, hroad, ?_⟩
  apply List.ext_getElem?
  intro j
  rw [h.kept.durability.getElem?_set, hfile, ite_self]

theorem Safe.msync (h : s.Safe ck ckRoad records) (hstep : s.step f path .msync = some t) :
    t.Safe ck ckRoad records := by
  simp only [step] at hstep
  split at hstep
  · rename_i hen
    cases hstep
    have hsame : World.SameContents s.world
        { s.world with durability := s.world.durability.msyncDirtyAndClear.1 } :=
      ⟨rfl, rfl, SameCells.refl _, SameCells.refl _, Layer.msyncDirtyAndClear_mmap _,
        Layer.msyncDirtyAndClear_chunksH _, Layer.length_dirtyMask_msync _⟩
    refine ⟨h.journaled.congr hsame h.journaled.cells h.journaled.road rfl, ?_, ?_, h.clean, ?_⟩
    · rw [World.touched_congr hsame.sameShape]
      exact ⟨h.kept.cells, h.kept.road, h.kept.durability.msync _⟩
    · simp [hen.1]
    · exact fun _ => ⟨hen.2.1, hen.2.2, by
        rw [h.kept.durability.flushRanges_eq, Layer.msyncDirtyAndClear_mmap]⟩
  · cases hstep

/-- The checkpoint: the files hold the world, and the journal starts anew. -/
theorem Safe.checkpoint (h : s.Safe ck ckRoad records) (hstep : s.step f path .checkpoint = some t) :
    t.Safe s.world.cells s.world.road [] := by
  simp only [step] at hstep
  split at hstep
  · rename_i hen
    cases hstep
    obtain ⟨hcells, hroad, hfile⟩ := h.synced hen.2
    obtain ⟨hcellsClean, hroadClean⟩ := h.clean hen.1
    refine ⟨?_, ⟨?_, ?_, ?_⟩, fun _ => ⟨rfl, rfl, rfl⟩, by simp, by simp⟩
    · refine World.journaled_nil ?_ rfl
      exact h.journaled.toFits.congr ⟨h.journaled.cells, h.journaled.road, h.journaled.chunksH,
        h.journaled.sized⟩ ⟨rfl, rfl, rfl, rfl, rfl, rfl, rfl⟩
    · exact h.kept.cells.complete hcells hcellsClean _
    · exact h.kept.road.complete hroad hroadClean _
    · exact Layer.safe_of_eq hfile h.kept.durability.marked
  · cases hstep

theorem Safe.fail (h : s.Safe ck ckRoad records) (hstep : s.step f path .fail = some t) :
    t.Safe ck ckRoad records := by
  simp only [step] at hstep
  split at hstep
  · cases hstep
    obtain ⟨hj, hk⟩ := h.withMaps (fun _ hs => hs.restored) (fun _ hs => hs.restored)
      s.cells.restored_sameCells s.road.restored_sameCells
    refine ⟨hj, ⟨hk.cells, hk.road, hk.durability⟩, ?_, by simp, by simp⟩
    exact fun _ => ⟨s.cells.restored_pending, s.road.restored_pending, rfl⟩
  · cases hstep

end Steps

end LiveWorld

end OpenMines
