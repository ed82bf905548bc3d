import OpenMines.DurabilityCrash
import OpenMines.Lib.IntervalUnion

namespace OpenMines.Layer

open Lib.IntervalUnion Lib.Marks

inductive Event
  | write (x y d : UInt32)
  /-- `with_durability_mmap`, with the words that it leaves -/
  | fill (words : Nat → UInt32)
  /-- `ok` tells whether every range reached the file -/
  | sync (ok : Bool)

/-- `msync_dirty_and_clear`; when it fails, the dirty chunks have been sorted. -/
def msync (l : Layer) (ok : Bool) : Layer :=
  if ok then l.msyncDirtyAndClear.1 else { l with dirtyIndices := l.dirtyIndices.mergeSort (· ≤ ·) }

def step (l : Layer) : Event → Layer
  | .write x y d => l.write x y d
  | .fill words => { l with mmap := l.mmap.mapIdx fun i _ => words i }.markAllDirty
  | .sync ok => l.msync ok

def run (l : Layer) (events : List Event) : Layer := events.foldl step l

/-- The mask and the list hold the same chunks. -/
def SameMarks (l : Layer) : Prop := l.dirtyIndices.Nodup ∧ ∀ i, l.dirtyMask[i]? = some true ↔ i ∈ l.dirtyIndices

section Bounds

variable (chunksW chunksH : UInt32)

def InBounds (p : UInt32 × UInt32) : Prop := p.1.toNat < chunksW.toNat * 32 ∧ p.2.toNat < chunksH.toNat * 32

def Event.InBounds : Event → Prop
  | .write x y _ => Layer.InBounds chunksW chunksH (x, y)
  | _ => True

/-- The cells that are written and not yet synced, after an event. -/
def sinceSync (written : UInt32 × UInt32 → Prop) : Event → UInt32 × UInt32 → Prop
  | .write x y _ => fun p => p = (x, y) ∨ written p
  | .fill _ => InBounds chunksW chunksH
  | .sync ok => fun p => ok = false ∧ written p

/-- The cells that are written since the last sync that succeeded. -/
def written (events : List Event) : UInt32 × UInt32 → Prop := events.foldl (sinceSync chunksW chunksH) fun _ => False

/-- The ranges of the next sync, and the bookkeeping under them. -/
structure RangesExact (l : Layer) (written : UInt32 × UInt32 → Prop) : Prop where
  apart : Apart l.dirtyRanges
  covers : ∀ i, Covers l.dirtyRanges i ↔ ∃ p, written p ∧ l.chunkIdx p.1 p.2 = i
  mapped : ∀ r ∈ l.dirtyRanges, r.2 * chunkCells ≤ l.mmap.length
  same : l.SameMarks
  inside : ∀ p, InBounds chunksW chunksH p → l.cellOffset p.1 p.2 < l.mmap.length
  distinct : ∀ p q, InBounds chunksW chunksH p → InBounds chunksW chunksH q →
    l.cellOffset p.1 p.2 = l.cellOffset q.1 q.2 → p = q

/-- The dirty chunks of the layer are those of the cells that are written. -/
structure Tracks (l : Layer) (written : UInt32 × UInt32 → Prop) : Prop where
  side : l.chunksH = chunksH
  mask : l.dirtyMask.length = chunksW.toNat * chunksH.toNat
  mmap : chunksW.toNat * chunksH.toNat * chunkCells ≤ l.mmap.length
  same : l.SameMarks
  covers : ∀ i, i ∈ l.dirtyIndices ↔ ∃ p, written p ∧ l.chunkIdx p.1 p.2 = i

end Bounds

variable {chunksW chunksH x y : UInt32} {l : Layer} {i : Nat} {p q : UInt32 × UInt32}

section Numbers

/-- The number of a chunk in the file, chunk column after chunk column. -/
theorem chunkIdx_of_inBounds (hlt : chunksW.toNat * chunksH.toNat < 2 ^ 32) (hl : l.chunksH = chunksH)
    (hp : InBounds chunksW chunksH p) :
    l.chunkIdx p.1 p.2 = p.2.toNat / 32 + chunksH.toNat * (p.1.toNat / 32) ∧
      l.chunkIdx p.1 p.2 < chunksW.toNat * chunksH.toNat := by
  obtain ⟨hx, hy⟩ := hp
  have hchunk : chunkSize.toNat = 32 := rfl
  have hcolumn : p.1.toNat / 32 + 1 ≤ chunksW.toNat := by omega
  have hmul := Nat.mul_le_mul_left chunksH.toNat hcolumn
  rw [Nat.mul_succ, Nat.mul_comm chunksH.toNat chunksW.toNat] at hmul
  have hnumber : p.2.toNat / 32 + chunksH.toNat * (p.1.toNat / 32) < chunksW.toNat * chunksH.toNat := by omega
  have hidx : l.chunkIdx p.1 p.2 = p.2.toNat / 32 + chunksH.toNat * (p.1.toNat / 32) := by
    rw [chunkIdx, hl]
    simp only [UInt32.toNat_add, UInt32.toNat_mul, UInt32.toNat_div, hchunk]
    rw [Nat.mod_eq_of_lt (a := _ * _) (by omega), Nat.mod_eq_of_lt (by omega)]
  exact ⟨hidx, hidx ▸ hnumber⟩

/-- Each number below that of the chunks belongs to a cell, when the sides fit. -/
theorem exists_chunkIdx (hw : chunksW.toNat * 32 ≤ 2 ^ 32) (hh : chunksH.toNat * 32 ≤ 2 ^ 32)
    (hl : l.chunksH = chunksH) (hi : i < chunksW.toNat * chunksH.toNat) (hsmall : i < 2 ^ 32) :
    ∃ p, InBounds chunksW chunksH p ∧ l.chunkIdx p.1 p.2 = i := by
  have hpos : 0 < chunksH.toNat := Nat.pos_of_ne_zero fun h => by simp [h] at hi
  have hrow := Nat.mod_lt i hpos
  have hcolumn : i / chunksH.toNat < chunksW.toNat := (Nat.div_lt_iff_lt_mul hpos).mpr hi
  have hsplit := Nat.mod_add_div i chunksH.toNat
  have hchunk : chunkSize.toNat = 32 := rfl
  have hx : (UInt32.ofNat (i / chunksH.toNat * 32)).toNat = i / chunksH.toNat * 32 :=
    UInt32.toNat_ofNat_of_lt' (by simp only [UInt32.size]; omega)
  have hy : (UInt32.ofNat (i % chunksH.toNat * 32)).toNat = i % chunksH.toNat * 32 :=
    UInt32.toNat_ofNat_of_lt' (by simp only [UInt32.size]; omega)
  refine ⟨(UInt32.ofNat (i / chunksH.toNat * 32), UInt32.ofNat (i % chunksH.toNat * 32)), ⟨?_, ?_⟩, ?_⟩
  · rw [hx]
    omega
  · rw [hy]
    omega
  · rw [chunkIdx, hl]
    simp only [UInt32.toNat_add, UInt32.toNat_mul, UInt32.toNat_div, hchunk, hx, hy]
    rw [Nat.mul_div_cancel _ (by decide), Nat.mul_div_cancel _ (by decide), Nat.mod_eq_of_lt (a := _ * _) (by omega),
      Nat.mod_eq_of_lt (by omega), hsplit]

theorem cellOffset_inj_of_inBounds (hlt : chunksW.toNat * chunksH.toNat < 2 ^ 32) (hl : l.chunksH = chunksH)
    (hp : InBounds chunksW chunksH p) (hq : InBounds chunksW chunksH q)
    (h : l.cellOffset p.1 p.2 = l.cellOffset q.1 q.2) : p = q := by
  have hchunk : chunkSize.toNat = 32 := rfl
  have hidx : l.chunkIdx p.1 p.2 = l.chunkIdx q.1 q.2 := by
    rw [← cellOffset_div, ← cellOffset_div, h]
  rw [cellOffset, cellOffset, hidx] at h
  have hin := Nat.add_left_cancel h
  simp only [UInt32.toNat_add, UInt32.toNat_mul, UInt32.toNat_mod, hchunk] at hin
  rw [(chunkIdx_of_inBounds hlt hl hp).1, (chunkIdx_of_inBounds hlt hl hq).1] at hidx
  have hprow : p.2.toNat / 32 < chunksH.toNat := by
    have := hp.2
    omega
  have hqrow : q.2.toNat / 32 < chunksH.toNat := by
    have := hq.2
    omega
  have hpos : 0 < chunksH.toNat := Nat.zero_lt_of_lt hprow
  have hcolumn : p.1.toNat / 32 = q.1.toNat / 32 := by
    have hdiv := congrArg (· / chunksH.toNat) hidx
    simp only [Nat.add_mul_div_left _ _ hpos, Nat.div_eq_of_lt hprow, Nat.div_eq_of_lt hqrow, Nat.zero_add] at hdiv
    exact hdiv
  rw [hcolumn] at hidx
  exact Prod.ext (UInt32.toNat_inj.mp (by omega)) (UInt32.toNat_inj.mp (by omega))

end Numbers

section Marking

theorem mem_markDirty (hsame : l.SameMarks) (hlt : l.chunkIdx x y < l.dirtyMask.length) :
    (l.markDirty x y).SameMarks ∧
      ∀ i, i ∈ (l.markDirty x y).dirtyIndices ↔ i = l.chunkIdx x y ∨ i ∈ l.dirtyIndices := by
  obtain ⟨hnodup, hmarks⟩ := hsame
  unfold markDirty
  dsimp only
  split
  · rename_i hclean
    have hnew : l.chunkIdx x y ∉ l.dirtyIndices := fun hmem => by
      rw [(hmarks _).mpr hmem] at hclean
      cases hclean
    have hmore := hnodup.concat hnew
    rw [List.concat_eq_append] at hmore
    refine ⟨⟨hmore, fun i => ?_⟩, fun i => ?_⟩
    · rw [List.mem_append, List.mem_singleton, ← hmarks]
      by_cases hi : i = l.chunkIdx x y
      · subst hi
        rw [List.getElem?_set_self hlt]
        exact iff_of_true rfl (.inr rfl)
      · rw [List.getElem?_set_ne (Ne.symm hi), or_iff_left hi]
    · rw [List.mem_append, List.mem_singleton, or_comm]
  · rename_i hdirty
    have hmem : l.chunkIdx x y ∈ l.dirtyIndices := by
      rw [← hmarks, List.getElem?_eq_getElem hlt]
      rw [List.getElem?_eq_getElem hlt] at hdirty
      simpa using hdirty
    refine ⟨⟨hnodup, hmarks⟩, fun i => ⟨.inr, ?_⟩⟩
    rintro (rfl | hi)
    · exact hmem
    · exact hi

theorem sameMarks_markAllDirty (l : Layer) : l.markAllDirty.SameMarks := by
  refine ⟨List.nodup_range, fun i => ?_⟩
  rw [markAllDirty, List.mem_range, List.getElem?_replicate]
  split
  · exact iff_of_true rfl ‹_›
  · exact iff_of_false (by simp) ‹_›

/-- A sync that succeeds leaves no marks, one that fails leaves all. -/
theorem sameMarks_msync (hsame : l.SameMarks) (ok : Bool) :
    (l.msync ok).SameMarks ∧ ∀ i, i ∈ (l.msync ok).dirtyIndices ↔ ok = false ∧ i ∈ l.dirtyIndices := by
  obtain ⟨hnodup, hmarks⟩ := hsame
  cases ok with
  | false =>
      have hmem : ∀ i, i ∈ l.dirtyIndices.mergeSort (· ≤ ·) ↔ i ∈ l.dirtyIndices := fun i => List.mem_mergeSort
      refine ⟨⟨(List.mergeSort_perm _ _).nodup_iff.mpr hnodup, fun i => (hmarks i).trans (hmem i).symm⟩, fun i => ?_⟩
      exact (hmem i).trans (and_iff_right rfl).symm
  | true =>
      rw [msync, if_pos rfl, msyncDirtyAndClear]
      split
      · rename_i hnil
        exact ⟨⟨hnodup, hmarks⟩, fun i => by simp [hnil]⟩
      · refine ⟨⟨List.nodup_nil, fun i => ?_⟩, fun i => by simp⟩
        dsimp only
        rw [getElem?_foldl_clear]
        refine iff_of_false ?_ List.not_mem_nil
        split
        · simp
        · rename_i hfree
          intro hmark
          exact hfree ⟨(hmarks i).mp hmark, (List.getElem?_eq_some_iff.mp hmark).1⟩

end Marking

section Ranges

theorem rangesFrom_eq_joinFrom {indices : List Nat} {start stop : Nat} (hle : ∀ i ∈ indices, stop ≤ i)
    (hsorted : indices.Pairwise (· < ·)) :
    rangesFrom start stop indices = joinFrom start stop (indices.map fun i => (i, i + 1)) := by
  induction indices generalizing start stop with
  | nil => rfl
  | cons idx rest ih =>
      obtain ⟨hidx, hrest⟩ := List.pairwise_cons.mp hsorted
      have hstop : stop ≤ idx := hle idx List.mem_cons_self
      rw [rangesFrom, List.map_cons, joinFrom]
      by_cases heq : idx = stop
      · subst heq
        rw [if_pos rfl, if_pos (Nat.le_refl _), max_eq_right (Nat.le_succ _)]
        exact ih hidx hrest
      · have hgap : ¬ idx ≤ stop := fun hle => heq (Nat.le_antisymm hle hstop)
        rw [if_neg heq, if_neg hgap]
        exact congrArg _ (ih hidx hrest)

/-- The loop joins the dirty chunks, each taken for an interval. -/
theorem dirtyRanges_eq_join (h : l.dirtyIndices.Nodup) :
    l.dirtyRanges = join ((l.dirtyIndices.mergeSort (· ≤ ·)).map fun i => (i, i + 1)) ∧
      (l.dirtyIndices.mergeSort (· ≤ ·)).Pairwise (· < ·) := by
  have hle : (l.dirtyIndices.mergeSort (· ≤ ·)).Pairwise (· ≤ ·) := List.pairwise_mergeSort' (· ≤ ·) l.dirtyIndices
  have hnodup : (l.dirtyIndices.mergeSort (· ≤ ·)).Nodup := (List.mergeSort_perm _ _).nodup_iff.mpr h
  have hlt : (l.dirtyIndices.mergeSort (· ≤ ·)).Pairwise (· < ·) :=
    (hle.and hnodup).imp fun {a b} hab => Nat.lt_of_le_of_ne hab.1 hab.2
  refine ⟨?_, hlt⟩
  rw [dirtyRanges]
  generalize l.dirtyIndices.mergeSort (· ≤ ·) = indices at hlt
  cases indices with
  | nil => rfl
  | cons idx rest =>
      obtain ⟨hidx, hrest⟩ := List.pairwise_cons.mp hlt
      exact rangesFrom_eq_joinFrom hidx hrest

theorem apart_dirtyRanges (h : l.dirtyIndices.Nodup) : Apart l.dirtyRanges := by
  obtain ⟨hjoin, hlt⟩ := dirtyRanges_eq_join h
  rw [hjoin]
  refine apart_join (List.pairwise_map.mpr (hlt.imp fun {a b} hab => Nat.le_of_lt hab)) fun r hr => ?_
  obtain ⟨i, -, rfl⟩ := List.mem_map.mp hr
  exact Nat.lt_succ_self i

end Ranges

section Runs

theorem tracks_open (file : List UInt32) (hlt : chunksW.toNat * chunksH.toNat < 2 ^ 32) :
    Tracks chunksW chunksH (Layer.open file chunksW chunksH) fun _ => False where
  side := rfl
  mask := by
    rw [Layer.open, List.length_replicate, UInt32.toNat_mul]
    exact Nat.mod_eq_of_lt hlt
  mmap := by
    rw [Layer.open, List.length_append, List.length_replicate]
    omega
  same := by
    refine ⟨List.nodup_nil, fun i => iff_of_false (fun h => ?_) List.not_mem_nil⟩
    have hmem := List.mem_of_getElem? h
    rw [Layer.open, List.mem_replicate] at hmem
    cases hmem.2
  covers i := by simp [Layer.open]

variable {written : UInt32 × UInt32 → Prop}

theorem Tracks.write (h : Tracks chunksW chunksH l written) (hlt : chunksW.toNat * chunksH.toNat < 2 ^ 32)
    (hp : InBounds chunksW chunksH (x, y)) (d : UInt32) :
    Tracks chunksW chunksH (l.write x y d) fun p => p = (x, y) ∨ written p := by
  have hidx := (chunkIdx_of_inBounds hlt h.side hp).2
  rw [← h.mask] at hidx
  obtain ⟨hsame, hmem⟩ := mem_markDirty (l := { l with mmap := l.mmap.set (l.cellOffset x y) d }) h.same hidx
  have hmask := (length_dirtyMask_markDirty { l with mmap := l.mmap.set (l.cellOffset x y) d } x y).trans h.mask
  refine ⟨(write_chunksH l x y d).trans h.side, hmask, ?_, hsame, fun i => ?_⟩
  · rw [length_write]
    exact h.mmap
  · have hsides : (l.write x y d).chunkIdx = l.chunkIdx := by
      unfold chunkIdx
      rw [write_chunksH]
    rw [hsides]
    refine (hmem i).trans ?_
    rw [h.covers i]
    constructor
    · rintro (rfl | ⟨p, hwritten, hi⟩)
      · exact ⟨(x, y), .inl rfl, rfl⟩
      · exact ⟨p, .inr hwritten, hi⟩
    · rintro ⟨p, rfl | hwritten, hi⟩
      · exact .inl hi.symm
      · exact .inr ⟨p, hwritten, hi⟩

theorem Tracks.fill (h : Tracks chunksW chunksH l written) (hlt : chunksW.toNat * chunksH.toNat < 2 ^ 32)
    (hw : chunksW.toNat * 32 ≤ 2 ^ 32) (hh : chunksH.toNat * 32 ≤ 2 ^ 32) (words : Nat → UInt32) :
    Tracks chunksW chunksH (l.step (.fill words)) (InBounds chunksW chunksH) where
  side := h.side
  mask := (List.length_replicate ..).trans h.mask
  mmap := by
    rw [step, markAllDirty, List.length_mapIdx]
    exact h.mmap
  same := sameMarks_markAllDirty _
  covers i := by
    have hall : i ∈ (l.step (.fill words)).dirtyIndices ↔ i < chunksW.toNat * chunksH.toNat := by
      rw [← h.mask]
      exact List.mem_range
    rw [hall]
    constructor
    · intro hi
      exact exists_chunkIdx hw hh h.side hi (hi.trans hlt)
    · rintro ⟨p, hp, rfl⟩
      exact (chunkIdx_of_inBounds hlt h.side hp).2

theorem Tracks.sync (h : Tracks chunksW chunksH l written) (ok : Bool) :
    Tracks chunksW chunksH (l.msync ok) fun p => ok = false ∧ written p := by
  obtain ⟨hsame, hmem⟩ := sameMarks_msync h.same ok
  have hkept : (l.msync ok).chunksH = l.chunksH ∧ (l.msync ok).mmap = l.mmap ∧
      (l.msync ok).dirtyMask.length = l.dirtyMask.length := by
    cases ok with
    | false => exact ⟨rfl, rfl, rfl⟩
    | true => exact ⟨msyncDirtyAndClear_chunksH l, msyncDirtyAndClear_mmap l, length_dirtyMask_msync l⟩
  obtain ⟨hside, hmmap, hmask⟩ := hkept
  refine ⟨hside.trans h.side, hmask.trans h.mask, hmmap ▸ h.mmap, hsame, fun i => ?_⟩
  have hsides : (l.msync ok).chunkIdx = l.chunkIdx := by
    unfold chunkIdx
    rw [hside]
  rw [hmem i, h.covers i, hsides]
  constructor
  · rintro ⟨hfailed, p, hwritten, hi⟩
    exact ⟨p, ⟨hfailed, hwritten⟩, hi⟩
  · rintro ⟨p, ⟨hfailed, hwritten⟩, hi⟩
    exact ⟨hfailed, p, hwritten, hi⟩

theorem Tracks.step (h : Tracks chunksW chunksH l written) (hlt : chunksW.toNat * chunksH.toNat < 2 ^ 32)
    (hw : chunksW.toNat * 32 ≤ 2 ^ 32) (hh : chunksH.toNat * 32 ≤ 2 ^ 32) {e : Event}
    (he : e.InBounds chunksW chunksH) : Tracks chunksW chunksH (l.step e) (sinceSync chunksW chunksH written e) := by
  cases e with
  | write x y d => exact h.write hlt he d
  | fill words => exact h.fill hlt hw hh words
  | sync ok => exact h.sync ok

theorem Tracks.run (h : Tracks chunksW chunksH l written) (hlt : chunksW.toNat * chunksH.toNat < 2 ^ 32)
    (hw : chunksW.toNat * 32 ≤ 2 ^ 32) (hh : chunksH.toNat * 32 ≤ 2 ^ 32) {events : List Event}
    (hevents : ∀ e ∈ events, e.InBounds chunksW chunksH) :
    Tracks chunksW chunksH (l.run events) (events.foldl (sinceSync chunksW chunksH) written) := by
  induction events generalizing l written with
  | nil => exact h
  | cons e events ih =>
      obtain ⟨he, hrest⟩ := List.forall_mem_cons.mp hevents
      exact ih (h.step hlt hw hh he) hrest

theorem Tracks.rangesExact (h : Tracks chunksW chunksH l written) (hlt : chunksW.toNat * chunksH.toNat < 2 ^ 32)
    (hbounds : ∀ p, written p → InBounds chunksW chunksH p) : RangesExact chunksW chunksH l written where
  apart := apart_dirtyRanges h.same.1
  covers i := (mem_dirtyRanges l i).trans (h.covers i)
  mapped r hr := by
    have hproper := (apart_dirtyRanges h.same.1).proper r hr
    have hlast : r.2 - 1 ∈ l.dirtyIndices := (mem_dirtyRanges l _).mp ⟨r, hr, by omega, by omega⟩
    obtain ⟨p, hp, hidx⟩ := (h.covers _).mp hlast
    have hnumber := (chunkIdx_of_inBounds hlt h.side (hbounds p hp)).2
    exact (Nat.mul_le_mul_right chunkCells (show r.2 ≤ chunksW.toNat * chunksH.toNat by omega)).trans h.mmap
  same := h.same
  inside p hp := by
    have hnumber := (chunkIdx_of_inBounds hlt h.side hp).2
    have hcell := inChunk_lt p.1 p.2
    have hmul := Nat.mul_le_mul_right chunkCells (show l.chunkIdx p.1 p.2 + 1 ≤ _ from hnumber)
    rw [Nat.succ_mul] at hmul
    have hmmap := h.mmap
    rw [cellOffset]
    omega
  distinct p q hp hq := cellOffset_inj_of_inBounds hlt h.side hp hq

theorem inBounds_written {events : List Event} (hevents : ∀ e ∈ events, e.InBounds chunksW chunksH)
    (hwritten : ∀ p, written p → InBounds chunksW chunksH p) {p : UInt32 × UInt32}
    (hp : events.foldl (sinceSync chunksW chunksH) written p) : InBounds chunksW chunksH p := by
  induction events generalizing written with
  | nil => exact hwritten p hp
  | cons e events ih =>
      obtain ⟨he, hrest⟩ := List.forall_mem_cons.mp hevents
      refine ih hrest (fun q hq => ?_) hp
      cases e with
      | write x y d =>
          rcases hq with rfl | hq
          · exact he
          · exact hwritten q hq
      | fill words => exact hq
      | sync ok => exact hwritten q hq.2

/-- The first chunk past the mask is not marked. -/
theorem not_exact_of_past (file : List UInt32) {p : UInt32 × UInt32}
    (hidx : (Layer.open file chunksW chunksH).chunkIdx p.1 p.2 = chunksW.toNat * chunksH.toNat % 2 ^ 32) :
    ¬ RangesExact chunksW chunksH ((Layer.open file chunksW chunksH).run [.write p.1 p.2 1])
      (Layer.written chunksW chunksH [.write p.1 p.2 1]) := by
  intro h
  have hpast : (Layer.open file chunksW chunksH).dirtyMask[(Layer.open file chunksW chunksH).chunkIdx p.1 p.2]? =
      none := by
    rw [hidx, List.getElem?_eq_none_iff, Layer.open, List.length_replicate, UInt32.toNat_mul]
  have hnot : ¬ (Layer.open file chunksW chunksH).dirtyMask[(Layer.open file chunksW chunksH).chunkIdx p.1 p.2]? =
      some false := by
    rw [hpast]
    exact fun h => Option.some_ne_none false h.symm
  have hunmarked : ((Layer.open file chunksW chunksH).run [.write p.1 p.2 1]).dirtyIndices = [] :=
    congrArg Layer.dirtyIndices (if_neg hnot)
  have hcovered := (h.covers _).mpr ⟨p, .inl rfl, rfl⟩
  rw [Covers, mem_dirtyRanges, hunmarked] at hcovered
  exact List.not_mem_nil hcovered

/-- What the next sync writes is what was written since the last one: in every run, just when the number of chunks
fits the type of the index. -/
theorem rangesExact_iff (file : List UInt32) (hw : chunksW.toNat * 32 ≤ 2 ^ 32) (hh : chunksH.toNat * 32 ≤ 2 ^ 32) :
    (∀ events : List Event, (∀ e ∈ events, e.InBounds chunksW chunksH) → RangesExact chunksW chunksH
      ((Layer.open file chunksW chunksH).run events) (Layer.written chunksW chunksH events)) ↔
      chunksW.toNat * chunksH.toNat < 2 ^ 32 := by
  constructor
  · intro h
    by_contra hlarge
    have hsmall := Nat.mod_lt (chunksW.toNat * chunksH.toNat) (show 0 < 2 ^ 32 by decide)
    obtain ⟨p, hp, hidx⟩ := exists_chunkIdx (l := Layer.open file chunksW chunksH) hw hh rfl
      (hsmall.trans_le (Nat.not_lt.mp hlarge)) hsmall
    exact not_exact_of_past file hidx (h _ fun e he => List.mem_singleton.mp he ▸ hp)
  · intro hlt events hevents
    exact ((tracks_open file hlt).run hlt hw hh hevents).rangesExact hlt fun p =>
      inBounds_written hevents fun _ hp => hp.elim

/-- A sync of two chunks that fails, and a write after it. -/
theorem rangesExact_twoChunks : RangesExact 2 1
    ((Layer.open [] 2 1).run [.write 40 3 7, .write 8 0 7, .sync false, .write 41 3 8])
    (Layer.written 2 1 [.write 40 3 7, .write 8 0 7, .sync false, .write 41 3 8]) := by
  refine (rangesExact_iff [] (by decide) (by decide)).mpr (by decide) _ ?_
  intro e he
  simp only [List.mem_cons, List.not_mem_nil, or_false] at he
  rcases he with rfl | rfl | rfl | rfl
  · exact ⟨by decide, by decide⟩
  · exact ⟨by decide, by decide⟩
  · trivial
  · exact ⟨by decide, by decide⟩

/-- The mask of a world of `2 ^ 32` chunks is empty. -/
theorem not_rangesExact_hugeWorld :
    ¬ RangesExact 65536 65536 ((Layer.open [] 65536 65536).run [.write 0 0 1])
      (Layer.written 65536 65536 [.write 0 0 1]) :=
  not_exact_of_past (p := (0, 0)) [] rfl

end Runs

end OpenMines.Layer
