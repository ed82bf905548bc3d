import OpenMines.WorldCrash
import OpenMines.WorldReaders

namespace OpenMines

open MapFormat MapFormat.MapStore Journal Lib.CheckedInt Lib.Run

namespace World

variable {w v : World}

/-- One size of world, and of the two maps over it. -/
theorem Sized.resized (h : w.Sized) (hchunks : v.chunksW = w.chunksW ∧ v.chunksH = w.chunksH)
    (hcells : v.cells.WellFormed ∧ v.cells.width = w.cells.width ∧ v.cells.height = w.cells.height)
    (hroad : v.road.WellFormed ∧ v.road.width = w.road.width ∧ v.road.height = w.road.height) : v.Sized := by
  obtain ⟨hW, hH⟩ := hchunks
  obtain ⟨hcellsFormed, hcellsW, hcellsH⟩ := hcells
  obtain ⟨hroadFormed, hroadW, hroadH⟩ := hroad
  refine ⟨?_, ?_, hcellsFormed, hroadFormed, ?_, ?_⟩
  · rw [hW]
    exact h.width_lt
  · rw [hH]
    exact h.height_lt
  · rw [hcellsW, hcellsH, hW, hH]
    exact h.cellsSides
  · rw [hroadW, hroadH, hW, hH]
    exact h.roadSides

theorem opened_eq_ok {path : String} {chunksW chunksH : UInt32} {cellDefs : List CellDef} {d : Disk}
    {records : List JournalRecord} (h : opened path chunksW chunksH cellDefs d = .ok (w, records)) :
    w.chunksW = chunksW ∧ w.chunksH = chunksH ∧
      MapStore.open d.map (chunksW * chunkSize).toInt32 (chunksH * chunkSize).toInt32 = .ok w.cells ∧
        MapStore.open d.road (chunksW * chunkSize).toInt32 (chunksH * chunkSize).toInt32 = .ok w.road := by
  unfold opened at h
  split at h
  · cases h
  · split at h
    · cases h
    · split at h
      · cases h
      · split at h
        · cases h
        · rename_i cells hcells
          split at h
          · cases h
          · rename_i road hroad
            cases h
            exact ⟨rfl, rfl, hcells, hroad⟩

end World

namespace LiveWorld

/-- Both maps can be had back from their files, up to what their cells hold. -/
structure MapsSafe (s : LiveWorld) : Prop where
  sized : s.world.Sized
  cells : ∃ ck, s.cells.Safe ck fun _ _ => True
  road : ∃ ck, s.road.Safe ck fun _ _ => True
  idle : s.flushing = false → s.cellsBatch = none ∧ s.roadBatch = none ∧ s.synced = false
  clean : s.flushing = true → s.world.cells.isDirty = false ∧ s.world.road.isDirty = false
  synced : s.synced = true → s.cells.rest = [] ∧ s.road.rest = []

variable {s t : LiveWorld} {f : FloatOps} {path : String}

theorem settled_mapsSafe {w : World} (hw : w.Sized) : (settled w).MapsSafe where
  sized := by
    have hsame := World.flushed_sameContents w
    refine hw.resized ⟨rfl, rfl⟩ ⟨?_, hsame.cells.width, hsame.cells.height⟩ ⟨?_, hsame.road.width, hsame.road.height⟩
    · exact World.flushed_wellFormed hw.cells
    · exact World.flushed_wellFormed hw.road
  cells := by
    have hsame := World.flushed_sameContents w
    refine ⟨w.flushed.cells, ?_⟩
    rw [LiveWorld.cells, settled, ← hsame.cells.serialize]
    exact FlushState.serialize_safe (World.flushed_wellFormed hw.cells) _
  road := by
    have hsame := World.flushed_sameContents w
    refine ⟨w.flushed.road, ?_⟩
    rw [LiveWorld.road, settled, ← hsame.road.serialize]
    exact FlushState.serialize_safe (World.flushed_wellFormed hw.road) _
  idle := fun _ => ⟨rfl, rfl, rfl⟩
  clean := fun hflushing => by cases hflushing
  synced := fun hsynced => by cases hsynced

/-- A write to both maps, whatever cells it puts there. -/
theorem MapsSafe.write (h : s.MapsSafe) {v : World}
    (hchunks : v.chunksW = s.world.chunksW ∧ v.chunksH = s.world.chunksH)
    (hcells : (∃ x y cell, v.cells = s.world.cells.setCell x y cell) ∨ v.cells = s.world.cells)
    (hroad : (∃ x y cell, v.road = s.world.road.setCell x y cell) ∨ v.road = s.world.road)
    (hidle : s.flushing = false) : MapsSafe { s with world := v } := by
  obtain ⟨ck, hsafe⟩ := h.cells
  obtain ⟨ckRoad, hsafeRoad⟩ := h.road
  obtain ⟨-, -, hsynced⟩ := h.idle hidle
  have hstore : FlushState.Safe ck (fun _ _ => True) { s.cells with store := v.cells } ∧
      v.cells.width = s.world.cells.width ∧ v.cells.height = s.world.cells.height := by
    rcases hcells with ⟨x, y, cell, he⟩ | he
    · rw [he]
      obtain ⟨hw, hh, -, -⟩ := MapStore.setCell_shape s.world.cells x y cell
      exact ⟨hsafe.setCell cell fun _ _ _ => trivial, hw, hh⟩
    · rw [he]
      exact ⟨hsafe, rfl, rfl⟩
  have hstoreRoad : FlushState.Safe ckRoad (fun _ _ => True) { s.road with store := v.road } ∧
      v.road.width = s.world.road.width ∧ v.road.height = s.world.road.height := by
    rcases hroad with ⟨x, y, cell, he⟩ | he
    · rw [he]
      obtain ⟨hw, hh, -, -⟩ := MapStore.setCell_shape s.world.road x y cell
      exact ⟨hsafeRoad.setCell cell fun _ _ _ => trivial, hw, hh⟩
    · rw [he]
      exact ⟨hsafeRoad, rfl, rfl⟩
  have hformed := hstore.1.consistent.wellFormed
  have hformedRoad := hstoreRoad.1.consistent.wellFormed
  exact
    { sized := h.sized.resized hchunks ⟨hformed, hstore.2⟩ ⟨hformedRoad, hstoreRoad.2⟩
      cells := ⟨ck, hstore.1⟩
      road := ⟨ckRoad, hstoreRoad.1⟩
      idle := h.idle
      clean := fun hflushing => absurd (hidle.symm.trans hflushing) (by decide)
      synced := fun hs => absurd (hsynced.symm.trans hs) (by decide) }

theorem MapsSafe.applyJournalRecords (h : s.MapsSafe) (hidle : s.flushing = false) (records : List JournalRecord) :
    MapsSafe { s with world := s.world.applyJournalRecords records } := by
  induction records generalizing s with
  | nil => exact h
  | cons r records ih =>
      rw [World.applyJournalRecords, List.foldl_cons]
      split
      · exact ih (s := { s with world := s.world.put r })
          (h.write (v := s.world.put r) ⟨rfl, rfl⟩ (.inl ⟨_, _, _, rfl⟩) (.inl ⟨_, _, _, rfl⟩) hidle) hidle
      · exact ih h hidle

/-- A step of a flush on the map files. -/
theorem MapsSafe.withMaps (h : s.MapsSafe) {cells road : FlushState}
    (hcells : ∀ ck, s.cells.Safe ck (fun _ _ => True) → ∃ ck, cells.Safe ck fun _ _ => True)
    (hroad : ∀ ck, s.road.Safe ck (fun _ _ => True) → ∃ ck, road.Safe ck fun _ _ => True)
    (hsame : SameCells s.world.cells cells.store) (hsameRoad : SameCells s.world.road road.store) :
    (s.withMaps cells road).world.Sized ∧ (∃ ck, cells.Safe ck fun _ _ => True) ∧
      ∃ ck, road.Safe ck fun _ _ => True := by
  obtain ⟨ck, hsafe⟩ := hcells _ h.cells.choose_spec
  obtain ⟨ckRoad, hsafeRoad⟩ := hroad _ h.road.choose_spec
  refine ⟨h.sized.resized ⟨rfl, rfl⟩ ⟨hsafe.consistent.wellFormed, hsame.width, hsame.height⟩ ?_, ⟨ck, hsafe⟩,
    ckRoad, hsafeRoad⟩
  exact ⟨hsafeRoad.consistent.wellFormed, hsameRoad.width, hsameRoad.height⟩

section Steps

theorem MapsSafe.mutate (h : s.MapsSafe) {m : Mutation} {io : AppendOutcome}
    (hstep : s.step f path (.mutate m io) = some t) : t.MapsSafe := by
  simp only [step] at hstep
  split at hstep
  · cases hstep
  · rename_i hidle
    obtain ⟨v, hv, rfl⟩ := Option.map_eq_some_iff.mp hstep
    have hidle : s.flushing = false := by simpa using hidle
    cases io with
    | ok =>
        rcases World.mutate_applied hv with rfl | ⟨r, happ⟩
        · exact h
        · exact h.write ⟨happ.chunksW, happ.chunksH⟩ (happ.cells.imp (fun he => ⟨_, _, _, he⟩) And.left)
            (happ.road.imp (fun he => ⟨_, _, _, he⟩) And.left) hidle
    | failed n =>
        rcases World.mutate_failed hv with rfl | ⟨r, rfl⟩
        · exact h
        · exact h.write (v := s.world.torn r n) ⟨rfl, rfl⟩ (.inr rfl) (.inr rfl) hidle

theorem MapsSafe.takeBatches (h : s.MapsSafe) (hstep : s.step f path .takeBatches = some t) : t.MapsSafe := by
  simp only [step] at hstep
  split at hstep
  · cases hstep
  · rename_i hidle
    cases hstep
    obtain ⟨hcells, hroad, -⟩ := h.idle (by simpa using hidle)
    obtain ⟨hsized, hsafe, hsafeRoad⟩ := h.withMaps (fun ck hs => ⟨ck, hs.detached hcells⟩)
      (fun ck hs => ⟨ck, hs.detached hroad⟩) s.cells.detached_sameCells s.road.detached_sameCells
    refine ⟨hsized, hsafe, hsafeRoad, by simp, ?_, by simp⟩
    exact fun _ => ⟨s.cells.detached_clean, s.road.detached_clean⟩

theorem MapsSafe.writeMap (h : s.MapsSafe) {n : Nat} (hstep : s.step f path (.writeMap n) = some t) :
    t.MapsSafe := by
  simp only [step] at hstep
  split at hstep
  · rename_i hen
    cases hstep
    have hstore := FlushState.written_store s.cells n
    have hsame : SameCells s.world.cells (s.cells.written n).store := by
      rw [hstore]
      exact SameCells.refl _
    obtain ⟨hsized, hsafe, hsafeRoad⟩ :=
      h.withMaps (fun ck hs => ⟨ck, hs.written n⟩) (fun ck hs => ⟨ck, hs⟩) hsame (SameCells.refl _)
    refine ⟨hsized, hsafe, hsafeRoad, fun hidle => absurd (hen.1.symm.trans hidle) (by decide), ?_,
      fun hsynced => absurd (hsynced.symm.trans hen.2) (by decide)⟩
    intro hflushing
    obtain ⟨hclean, hcleanRoad⟩ := h.clean hflushing
    exact ⟨(congrArg MapStore.isDirty hstore).trans hclean, hcleanRoad⟩
  · cases hstep

theorem MapsSafe.writeRoad (h : s.MapsSafe) {n : Nat} (hstep : s.step f path (.writeRoad n) = some t) :
    t.MapsSafe := by
  simp only [step] at hstep
  split at hstep
  · rename_i hen
    cases hstep
    have hstore := FlushState.written_store s.road n
    have hsame : SameCells s.world.road (s.road.written n).store := by
      rw [hstore]
      exact SameCells.refl _
    obtain ⟨hsized, hsafe, hsafeRoad⟩ :=
      h.withMaps (fun ck hs => ⟨ck, hs⟩) (fun ck hs => ⟨ck, hs.written n⟩) (SameCells.refl _) hsame
    refine ⟨hsized, hsafe, hsafeRoad, fun hidle => absurd (hen.1.symm.trans hidle) (by decide), ?_,
      fun hsynced => absurd (hsynced.symm.trans hen.2.1) (by decide)⟩
    intro hflushing
    obtain ⟨hclean, hcleanRoad⟩ := h.clean hflushing
    exact ⟨hclean, (congrArg MapStore.isDirty hstore).trans hcleanRoad⟩
  · cases hstep

theorem MapsSafe.msync (h : s.MapsSafe) (hstep : s.step f path .msync = some t) : t.MapsSafe := by
  simp only [step] at hstep
  split at hstep
  · rename_i hen
    cases hstep
    refine ⟨?_, h.cells, h.road, fun hidle => absurd (hen.1.symm.trans hidle) (by decide), h.clean,
      fun _ => ⟨hen.2.1, hen.2.2⟩⟩
    exact h.sized.resized ⟨rfl, rfl⟩ ⟨h.sized.cells, rfl, rfl⟩ ⟨h.sized.road, rfl, rfl⟩
  · cases hstep

theorem MapsSafe.checkpoint (h : s.MapsSafe) (hstep : s.step f path .checkpoint = some t) : t.MapsSafe := by
  simp only [step] at hstep
  split at hstep
  · rename_i hen
    cases hstep
    obtain ⟨hrest, hrestRoad⟩ := h.synced hen.2
    obtain ⟨hclean, hcleanRoad⟩ := h.clean hen.1
    have hcommitted : ∀ ck, s.cells.Safe ck (fun _ _ => True) → ∃ ck, s.cells.committed.Safe ck fun _ _ => True :=
      fun _ hs => ⟨_, hs.complete hrest hclean _⟩
    have hcommittedRoad : ∀ ck, s.road.Safe ck (fun _ _ => True) → ∃ ck, s.road.committed.Safe ck fun _ _ => True :=
      fun _ hs => ⟨_, hs.complete hrestRoad hcleanRoad _⟩
    obtain ⟨hsized, hsafe, hsafeRoad⟩ :=
      h.withMaps hcommitted hcommittedRoad (SameCells.refl _) (SameCells.refl _)
    exact ⟨hsized.resized ⟨rfl, rfl⟩ ⟨hsized.cells, rfl, rfl⟩ ⟨hsized.road, rfl, rfl⟩, hsafe, hsafeRoad,
      fun _ => ⟨rfl, rfl, rfl⟩, by simp, by simp⟩
  · cases hstep

theorem MapsSafe.fail (h : s.MapsSafe) (hstep : s.step f path .fail = some t) : t.MapsSafe := by
  simp only [step] at hstep
  split at hstep
  · cases hstep
    obtain ⟨hsized, hsafe, hsafeRoad⟩ := h.withMaps (fun ck hs => ⟨ck, hs.restored⟩) (fun ck hs => ⟨ck, hs.restored⟩)
      s.cells.restored_sameCells s.road.restored_sameCells
    refine ⟨hsized, hsafe, hsafeRoad, ?_, by simp, by simp⟩
    exact fun _ => ⟨s.cells.restored_pending, s.road.restored_pending, rfl⟩
  · cases hstep

/-- The opening makes the maps of their files, and redoes whatever the journal holds. -/
theorem MapsSafe.reopen (h : s.MapsSafe) (hstep : s.step f path .reopen = some t) : t.MapsSafe := by
  simp only [step] at hstep
  split at hstep
  · cases hstep
  · rename_i w records hopened
    cases hstep
    obtain ⟨hW, hH, hcells, hroad⟩ := World.opened_eq_ok hopened
    obtain ⟨ck, hsafe⟩ := h.cells
    obtain ⟨ckRoad, hsafeRoad⟩ := h.road
    rw [disk, ← h.sized.cellsSides.1, ← h.sized.cellsSides.2] at hcells
    rw [disk, ← h.sized.roadSides.1, ← h.sized.roadSides.2] at hroad
    replace hcells := hsafe.file.open_eq.symm.trans hcells
    replace hroad := hsafeRoad.file.open_eq.symm.trans hroad
    obtain ⟨hcellsW, hcellsH, -, -⟩ := hsafe.file.reload_shape h.sized.cells hcells
    obtain ⟨hroadW, hroadH, -, -⟩ := hsafeRoad.file.reload_shape h.sized.road hroad
    have hsafe' := hsafe.reopen hcells
    have hsafeRoad' := hsafeRoad.reopen hroad
    have hreopened : (s.reopened w).MapsSafe :=
      { sized := h.sized.resized ⟨hW, hH⟩ ⟨hsafe'.consistent.wellFormed, hcellsW, hcellsH⟩
          ⟨hsafeRoad'.consistent.wellFormed, hroadW, hroadH⟩
        cells := ⟨ck, hsafe'⟩
        road := ⟨ckRoad, hsafeRoad'⟩
        idle := fun _ => ⟨rfl, rfl, rfl⟩
        clean := fun hflushing => by cases hflushing
        synced := fun hsynced => by cases hsynced }
    exact hreopened.applyJournalRecords rfl records

theorem step_mapsSafe {e : WorldEvent} (h : s.MapsSafe) (hstep : s.step f path e = some t) : t.MapsSafe := by
  cases e with
  | mutate m io => exact h.mutate hstep
  | takeBatches => exact h.takeBatches hstep
  | writeMap n => exact h.writeMap hstep
  | writeRoad n => exact h.writeRoad hstep
  | writeback i =>
      cases hstep
      exact ⟨h.sized, h.cells, h.road, h.idle, h.clean, h.synced⟩
  | msync => exact h.msync hstep
  | checkpoint => exact h.checkpoint hstep
  | fail => exact h.fail hstep
  | reopen => exact h.reopen hstep

theorem run_mapsSafe {w : World} (hw : w.Sized) {es : List WorldEvent}
    (hrun : run (step f path) (settled w) es = some s) : s.MapsSafe :=
  run_preserves (settled_mapsSafe hw) (fun _ _ _ _ hs hstep => step_mapsSafe hs hstep) hrun

end Steps

/-- In every run from a flushed world of the configured sides, the readers agree just when the numbers of the blocks
fit, the rectangle can be allocated, and no cell of the world lies in it beyond the reach of an index. -/
theorem readersAgree_iff {w : World} (hw : w.Sized) {es : List WorldEvent}
    (hrun : run (step f path) (settled w) es = some s) (minX minY : Int32) (width height : Nat) :
    s.world.ReadersAgree minX minY width height ↔ s.world.chunksW.toNat * s.world.chunksH.toNat ≤ 2 ^ 31 ∧
      width * height < 2 ^ 62 ∧ s.world.Indexable minX minY width height :=
  World.readersAgree_of_sized (run_mapsSafe hw hrun).sized minX minY width height

theorem smallWorld_sized {m : MapStore} (hnew : MapStore.new 32 32 = .ok m) : (World.smallWorld m).Sized := by
  obtain ⟨hfits, -⟩ := smallWorld_fits hnew
  exact ⟨show (1 : UInt32).toNat * 32 < 2 ^ 31 by decide, show (1 : UInt32).toNat * 32 < 2 ^ 31 by decide,
    hfits.cells, hfits.road, ⟨hfits.cellsWidth, hfits.cellsHeight⟩, ⟨hfits.roadWidth, hfits.roadHeight⟩⟩

/-- A rectangle over the corner of the world, after a write. -/
theorem readersAgree_smallWorld : ∃ m s, MapStore.new 32 32 = .ok m ∧
    run (step sampleOps "w") (settled (World.smallWorld m)) [.mutate (.setCellTyped 3 4 50) .ok] = some s ∧
    s.world.ReadersAgree (-2) (-3) 8 8 := by
  have hrun : ∃ m s, MapStore.new 32 32 = .ok m ∧
      run (step sampleOps "w") (settled (World.smallWorld m)) [.mutate (.setCellTyped 3 4 50) .ok] = some s ∧
      s.world.chunksW = 1 ∧ s.world.chunksH = 1 := ⟨_, _, rfl, rfl, rfl, rfl⟩
  obtain ⟨m, s, hnew, hrun, hW, hH⟩ := hrun
  refine ⟨m, s, hnew, hrun, (readersAgree_iff (smallWorld_sized hnew) hrun (-2) (-3) 8 8).mpr ⟨?_, by decide, ?_⟩⟩
  · rw [hW, hH]
    decide
  · intro row col hrow hcol _
    omega

/-- A cell of the world in a column past the reach of an index is missing from the snapshot. -/
theorem not_readersAgree_wide : ∃ m s, MapStore.new 32 32 = .ok m ∧
    run (step sampleOps "w") (settled (World.smallWorld m)) [] = some s ∧
    ¬ s.world.ReadersAgree Int32.minValue 0 (2 ^ 31 + 1) 1 := by
  obtain ⟨m, hnew⟩ : ∃ m, MapStore.new 32 32 = .ok m := ⟨_, rfl⟩
  refine ⟨m, _, hnew, rfl, fun hagree => ?_⟩
  have hsized := (settled_mapsSafe (smallWorld_sized hnew)).sized
  obtain ⟨-, -, hindexable⟩ := (World.readersAgree_of_sized hsized _ _ _ _).mp hagree
  obtain ⟨-, hcol⟩ := hindexable 0 (2 ^ 31) (by decide) (by decide) rfl
  exact absurd hcol (lt_irrefl _)

end LiveWorld

end OpenMines
