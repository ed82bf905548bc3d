import OpenMines.WorldRecover

namespace OpenMines

open MapFormat MapFormat.MapStore Journal Lib.LittleEndian Lib.FileImage Lib.RedoLog Lib.Run

theorem MapFormat.MapStore.Recoverable.open_eq {ck m : MapStore} {touched : Nat → Nat → Prop}
    {f : List UInt8} (h : Recoverable ck m touched f) :
    MapStore.open (some f) m.width m.height = deserialize f := by
  obtain ⟨hw, hh⟩ := h.header_eq
  have hend := h.idxEnd_le
  rw [idxEnd] at hend
  rw [MapStore.open]
  refine if_pos ⟨by omega, ?_, ?_⟩
  · rw [hw, i32OfBytes_i32ToBytes]
  · rw [hh, i32OfBytes_i32ToBytes]

namespace World

theorem flushed_sameContents (w : World) : SameContents w w.flushed := by
  have hflush (m : MapStore) : SameCells m ((m.takeFlushBatch.map Prod.snd).getD m) := by
    cases htake : m.takeFlushBatch with
    | none => exact SameCells.refl m
    | some p => exact takeFlushBatch_sameCells htake
  exact ⟨rfl, rfl, hflush w.cells, hflush w.road, Layer.msyncDirtyAndClear_mmap _,
    Layer.msyncDirtyAndClear_chunksH _, Layer.length_dirtyMask_msync _⟩

theorem flushed_wellFormed {m : MapStore} (hm : m.WellFormed) :
    ((m.takeFlushBatch.map Prod.snd).getD m).WellFormed := by
  cases htake : m.takeFlushBatch with
  | none => exact hm
  | some p => exact takeFlushBatch_wellFormed hm htake

theorem flushed_consistent {w : World} (hw : w.Consistent) : w.flushed.Consistent :=
  (flushed_sameContents w).consistent hw (flushed_wellFormed hw.cells) (flushed_wellFormed hw.road)

theorem applyJournalRecords_journal (w : World) (records : List JournalRecord) :
    (w.applyJournalRecords records).journal = w.journal := by
  induction records generalizing w with
  | nil => rfl
  | cons r records ih =>
      rw [applyJournalRecords, List.foldl_cons]
      split
      · exact ih (w.put r)
      · exact ih w

theorem sameLayers_of_view_eq {v w : World} (hshape : SameShape w v) (hview : v.view = w.view) :
    SameLayers v w :=
  sameLayers_of_view hshape (fun _ _ _ _ _ => congrFun hview _) (fun _ _ _ _ _ => congrFun hview _)
    (fun _ _ _ => congrFun hview _)

end World

namespace LiveWorld

variable {ck ckRoad : MapStore} {records : List JournalRecord} {s : LiveWorld} {path : String}

/-- The world as the files hold it, before its journal is redone. -/
def reread (s : LiveWorld) (cells road : MapStore) : World :=
  { chunksW := s.world.chunksW
    chunksH := s.world.chunksH
    cells
    road
    durability := Layer.open s.durabilityFile s.world.chunksW s.world.chunksH
    journal := s.world.journal
    cellDefs := s.world.cellDefs }

theorem Safe.readRecords_eq (h : s.Safe ck ckRoad records) (path : String) :
    readRecords path (some s.world.journal) = .ok records := by
  obtain ⟨tail, htail, hjournal⟩ := h.journaled.journal
  rw [hjournal, readRecords_torn path records htail]

theorem Safe.open_eq (h : s.Safe ck ckRoad records) :
    MapStore.open (some s.mapFile) (s.world.chunksW * chunkSize).toInt32
        (s.world.chunksH * chunkSize).toInt32 = deserialize s.mapFile ∧
      MapStore.open (some s.roadFile) (s.world.chunksW * chunkSize).toInt32
        (s.world.chunksH * chunkSize).toInt32 = deserialize s.roadFile := by
  have hcells := h.kept.cells.file.open_eq
  have hroad := h.kept.road.file.open_eq
  rw [LiveWorld.cells] at hcells
  rw [LiveWorld.road] at hroad
  rw [← h.journaled.cellsWidth, ← h.journaled.cellsHeight]
  refine ⟨hcells, ?_⟩
  rw [h.journaled.cellsWidth, h.journaled.cellsHeight, ← h.journaled.roadWidth, ← h.journaled.roadHeight]
  exact hroad

theorem Safe.opened_eq (h : s.Safe ck ckRoad records) {cells road : MapStore}
    (hcells : deserialize s.mapFile = .ok cells) (hroad : deserialize s.roadFile = .ok road) :
    World.opened path s.world.chunksW s.world.chunksH s.world.cellDefs s.disk =
      .ok (s.reread cells road, records) := by
  obtain ⟨hopenCells, hopenRoad⟩ := h.open_eq
  have hw := h.journaled.width_lt
  have hh := h.journaled.height_lt
  rw [World.opened, if_neg (by omega), if_neg (by omega)]
  simp only [disk, h.readRecords_eq, hopenCells, hopenRoad, hcells, hroad]
  rfl

/-- The next opening gets through just when both index tables are covered. -/
theorem Safe.opened_iff (h : s.Safe ck ckRoad records) (path : String) :
    (∃ p, World.opened path s.world.chunksW s.world.chunksH s.world.cellDefs s.disk = .ok p) ↔
      Covered s.mapFile ∧ Covered s.roadFile := by
  have hcells := h.kept.cells.file.deserialize_ok_iff h.journaled.cells
  have hroad := h.kept.road.file.deserialize_ok_iff h.journaled.road
  rw [← show s.cells.file = s.mapFile from rfl, ← show s.road.file = s.roadFile from rfl, ← hcells, ← hroad]
  constructor
  · rintro ⟨p, hp⟩
    obtain ⟨hopenCells, hopenRoad⟩ := h.open_eq
    unfold World.opened at hp
    simp only [disk, h.readRecords_eq, hopenCells, hopenRoad] at hp
    split_ifs at hp
    cases hc : deserialize s.mapFile with
    | error e => simp [hc] at hp
    | ok m =>
        cases hr : deserialize s.roadFile with
        | error e => simp [hc, hr] at hp
        | ok r => exact ⟨⟨m, hc⟩, ⟨r, hr⟩⟩
  · rintro ⟨⟨m, hm⟩, ⟨r, hr⟩⟩
    exact ⟨_, h.opened_eq hm hr⟩

section Reread

variable {cells road : MapStore}

theorem Safe.reread_sameShape (h : s.Safe ck ckRoad records) (hcells : deserialize s.mapFile = .ok cells)
    (hroad : deserialize s.roadFile = .ok road) : World.SameShape s.world (s.reread cells road) := by
  obtain ⟨hcw, hch⟩ := h.kept.cells.file.reload_grid h.journaled.cells hcells
  obtain ⟨hrw, hrh⟩ := h.kept.road.file.reload_grid h.journaled.road hroad
  exact ⟨rfl, rfl, hcw, hch, hrw, hrh, h.journaled.chunksH.symm⟩

theorem Safe.sized (h : s.Safe ck ckRoad records) :
    s.world.chunksW.toNat * s.world.chunksH.toNat * chunkCells ≤ s.durabilityFile.length := by
  rw [h.kept.durability.length]
  exact h.journaled.sized

theorem Safe.reread_fits (h : s.Safe ck ckRoad records) (hcells : deserialize s.mapFile = .ok cells)
    (hroad : deserialize s.roadFile = .ok road) : (s.reread cells road).Fits := by
  obtain ⟨hcw, hch, -, -⟩ := h.kept.cells.file.reload_shape h.journaled.cells hcells
  obtain ⟨hrw, hrh, -, -⟩ := h.kept.road.file.reload_shape h.journaled.road hroad
  have hmask : (Layer.open s.durabilityFile s.world.chunksW s.world.chunksH).dirtyMask.length =
      s.world.durability.dirtyMask.length := by
    rw [h.journaled.mask]
    exact List.length_replicate
  refine h.journaled.toFits.congr ⟨?_, ?_, rfl, ?_⟩ ⟨rfl, rfl, hcw, hch, hrw, hrh, hmask⟩
  · exact h.kept.cells.file.reload_wellFormed h.journaled.cells hcells
  · exact h.kept.road.file.reload_wellFormed h.journaled.road hroad
  · rw [reread, Layer.open_mmap h.sized]
    exact h.sized

/-- The state right after the files are read. -/
def reopened (s : LiveWorld) (w : World) : LiveWorld :=
  { s with world := w, cellsBatch := none, roadBatch := none, flushing := false, synced := false }

theorem Safe.reread_kept (h : s.Safe ck ckRoad records) (hcells : deserialize s.mapFile = .ok cells)
    (hroad : deserialize s.roadFile = .ok road) :
    (s.reopened (s.reread cells road)).Kept ck ckRoad
      ((s.reopened (s.reread cells road)).world.touched records) := by
  rw [reopened, World.touched_congr (h.reread_sameShape hcells hroad)]
  exact ⟨h.kept.cells.reopen hcells, h.kept.road.reopen hroad, Layer.open_safe h.sized _⟩

/-- Where the journal has nothing to redo, the files hold the live cells. -/
theorem Safe.reread_view (h : s.Safe ck ckRoad records) (hcells : deserialize s.mapFile = .ok cells)
    (hroad : deserialize s.roadFile = .ok road) {a : Addr} (ha : a ∉ s.world.touched records) :
    (s.reread cells road).view a = s.world.view a := by
  cases a with
  | foreground id c =>
      have hcell := h.kept.cells.file.reload_cellAt h.journaled.cells h.kept.cells.checkpoint hcells id c ha
      exact congrArg UInt8.toNat hcell
  | road id c =>
      have hcell := h.kept.road.file.reload_cellAt h.journaled.road h.kept.road.checkpoint hroad id c ha
      exact congrArg UInt8.toNat hcell
  | durability i =>
      simp only [World.view, reread, Layer.word, Layer.open_mmap h.sized, List.getD_eq_getElem?_getD,
        h.kept.durability.same i ha]

/-- Redoing the journal brings back the live cells. -/
theorem Safe.redo (h : s.Safe ck ckRoad records) (hcells : deserialize s.mapFile = .ok cells)
    (hroad : deserialize s.roadFile = .ok road) :
    ((s.reread cells road).applyJournalRecords records).view = s.world.view ∧
      World.SameShape s.world ((s.reread cells road).applyJournalRecords records) := by
  have hshape := h.reread_sameShape hcells hroad
  have hvalid : ∀ r ∈ records, (s.reread cells road).validCoord r.x r.y = true := by
    intro r hr
    rw [hshape.validCoord]
    exact h.journaled.valid r hr
  obtain ⟨hview, -, hsame⟩ :=
    World.view_applyJournalRecords (h.reread_fits hcells hroad).toConsistent hvalid
  refine ⟨?_, hshape.trans hsame⟩
  rw [hview, show (s.reread cells road).entries = s.world.entries from funext hshape.entries]
  funext a
  calc replay (s.reread cells road).view (records.flatMap s.world.entries) a
      = replay s.world.view (records.flatMap s.world.entries) a :=
        replay_congr (fun hfree => h.reread_view hcells hroad hfree)
    _ = s.world.view a := congrFun h.journaled.redone a

end Reread

section Runs

variable {t : LiveWorld} {f : FloatOps}

theorem Safe.reopen (h : s.Safe ck ckRoad records) (hstep : s.step f path .reopen = some t) :
    t.Safe ck ckRoad records := by
  have hcov : Covered s.mapFile ∧ Covered s.roadFile := by
    refine (h.opened_iff path).mp ?_
    simp only [step] at hstep
    split at hstep
    · cases hstep
    · rename_i hok
      exact ⟨_, hok⟩
  obtain ⟨cells, hcells⟩ := (h.kept.cells.file.deserialize_ok_iff h.journaled.cells).mpr hcov.1
  obtain ⟨road, hroad⟩ := (h.kept.road.file.deserialize_ok_iff h.journaled.road).mpr hcov.2
  have hshape := h.reread_sameShape hcells hroad
  obtain ⟨hview, hsame⟩ := h.redo hcells hroad
  have hredo : ∀ r ∈ records, r ∈ records ∧ (s.reread cells road).validCoord r.x r.y = true := by
    intro r hr
    rw [hshape.validCoord]
    exact ⟨hr, h.journaled.valid r hr⟩
  have hfits : (s.reopened (s.reread cells road)).world.Fits := h.reread_fits hcells hroad
  obtain ⟨hkept, hfits⟩ := (h.reread_kept hcells hroad).applyJournalRecords hfits hredo
  have hjournaled : ((s.reread cells road).applyJournalRecords records).Journaled records := {
    toFits := hfits
    journal := by
      rw [World.applyJournalRecords_journal]
      exact h.journaled.journal
    valid := by
      intro r hr
      rw [hsame.validCoord]
      exact h.journaled.valid r hr
    redone := by
      rw [hview, funext hsame.entries]
      exact h.journaled.redone }
  have ht : t = s.reopened ((s.reread cells road).applyJournalRecords records) := by
    simp only [step, h.opened_eq hcells hroad] at hstep
    exact (Option.some.inj hstep).symm
  subst ht
  exact ⟨hjournaled, hkept, fun _ => ⟨rfl, rfl, rfl⟩, (fun hflushing => by cases hflushing),
    (fun hsynced => by cases hsynced)⟩

/-- Appends start where the last record ends. -/
def AtRecordEnd (s : LiveWorld) : WorldEvent → Prop
  | .mutate _ _ => s.world.journal.length % journalRecordLen = 0
  | _ => True

/-- Some checkpoint and the records since then account for the files. -/
def Restorable (s : LiveWorld) : Prop := ∃ ck ckRoad records, s.Safe ck ckRoad records

theorem step_restorable {e : WorldEvent} (h : s.Restorable) (he : s.AtRecordEnd e)
    (hstep : s.step f path e = some t) : t.Restorable := by
  obtain ⟨ck, ckRoad, records, h⟩ := h
  cases e with
  | mutate m io => exact ⟨ck, ckRoad, h.mutate he hstep⟩
  | takeBatches => exact ⟨ck, ckRoad, records, h.takeBatches hstep⟩
  | writeMap n => exact ⟨ck, ckRoad, records, h.writeMap hstep⟩
  | writeRoad n => exact ⟨ck, ckRoad, records, h.writeRoad hstep⟩
  | writeback i => exact ⟨ck, ckRoad, records, h.writeback hstep⟩
  | msync => exact ⟨ck, ckRoad, records, h.msync hstep⟩
  | checkpoint => exact ⟨_, _, _, h.checkpoint hstep⟩
  | fail => exact ⟨ck, ckRoad, records, h.fail hstep⟩
  | reopen => exact ⟨ck, ckRoad, records, h.reopen hstep⟩

/-- A world without files opens to a settled one, whatever the generator puts there. -/
theorem new_settled {generate : World → World} {chunksW chunksH : UInt32} {cellDefs : List CellDef}
    {v : World} (hchunks : chunksW.toNat * chunksH.toNat < 2 ^ 32)
    (hnew : World.new generate path chunksW chunksH cellDefs ⟨none, none, none, []⟩ = .ok v) :
    ∃ w : World, w.Fits ∧ w.durability.Marked ∧ v = (settled (generate w)).world := by
  unfold World.new World.opened at hnew
  by_cases hwidth : 2 ^ 31 ≤ (chunksW * chunkSize).toNat
  · simp only [if_pos hwidth, reduceCtorEq] at hnew
  by_cases hheight : 2 ^ 31 ≤ (chunksH * chunkSize).toNat
  · simp only [if_neg hwidth, if_pos hheight, reduceCtorEq] at hnew
  simp only [if_neg hwidth, if_neg hheight, readRecords, MapStore.open] at hnew
  cases hm : MapStore.new (chunksW * chunkSize).toInt32 (chunksH * chunkSize).toInt32 with
  | error e => simp only [hm, reduceCtorEq] at hnew
  | ok m =>
      simp only [hm] at hnew
      refine ⟨_, ?_, ?_, (Except.ok.inj hnew).symm⟩
      · have hwf := MapStore.new_wellFormed hm
        have hshape := (MapStore.new_spec hm).2.2.2.2
        have hsized : chunksW.toNat * chunksH.toNat * chunkCells ≤
            (Layer.open [] chunksW chunksH).mmap.length := by simp [Layer.open]
        exact ⟨⟨hwf, hwf, rfl, hsized⟩, not_le.mp hwidth, not_le.mp hheight, hchunks, by rw [hshape], by rw [hshape],
          by rw [hshape], by rw [hshape], List.length_replicate⟩
      · exact Layer.marked_open _ _ _

theorem settled_safe {w : World} (hw : w.Fits) (hmarked : w.durability.Marked) :
    (settled w).Safe w.flushed.cells w.flushed.road [] where
  journaled := World.journaled_nil
    (hw.congr (World.flushed_consistent hw.toConsistent) (World.flushed_sameContents w).sameSize) rfl
  kept := by
    have hsame := World.flushed_sameContents w
    have hwf := World.flushed_consistent hw.toConsistent
    refine ⟨?_, ?_, ?_⟩
    · rw [LiveWorld.cells, settled, ← hsame.cells.serialize]
      exact FlushState.serialize_safe hwf.cells _
    · rw [LiveWorld.road, settled, ← hsame.road.serialize]
      exact FlushState.serialize_safe hwf.road _
    · exact Layer.safe_of_eq hsame.mmap.symm (Layer.marked_msync hmarked)
  idle := fun _ => ⟨rfl, rfl, rfl⟩
  clean := fun hflushing => by cases hflushing
  synced := fun hsynced => by cases hsynced

theorem run_restorable {w : World} (hw : w.Fits) (hmarked : w.durability.Marked)
    {es : List WorldEvent} (hend : Meets (step f path) AtRecordEnd (settled w) es)
    (hrun : run (step f path) (settled w) es = some s) : s.Restorable := by
  have hstart : (settled w).Restorable := ⟨_, _, _, settled_safe hw hmarked⟩
  exact run_preserves_of_meets hstart hend (fun _ _ _ hs he hstep => step_restorable hs he hstep) hrun

def sampleOps : FloatOps := { sub := (· - ·), leZero := (· == 0) }

theorem smallWorld_fits {m : MapStore} (hnew : MapStore.new 32 32 = .ok m) :
    (World.smallWorld m).Fits ∧ (World.smallWorld m).durability.Marked := by
  obtain ⟨-, -, -, -, hm⟩ := MapStore.new_spec hnew
  refine ⟨⟨World.smallWorld_consistent hnew, ?_, ?_, ?_, ?_, ?_, ?_, ?_, rfl⟩, Layer.marked_open _ _ _⟩
  · exact show ((1 : UInt32) * chunkSize).toNat < 2 ^ 31 by decide
  · exact show ((1 : UInt32) * chunkSize).toNat < 2 ^ 31 by decide
  · exact show (1 : UInt32).toNat * (1 : UInt32).toNat < 2 ^ 32 by decide
  · rw [World.smallWorld, hm]
    rfl
  · rw [World.smallWorld, hm]
    rfl
  · rw [World.smallWorld, hm]
    rfl
  · rw [World.smallWorld, hm]
    rfl

end Runs

end LiveWorld

end OpenMines
