import OpenMines.SectorFill

namespace OpenMines.Generator

open Lib Relation

variable {input : GeneratorInput} {m : FlatMap} {p q : Pos}

theorem inMap_iff : input.inMap p = true ↔ 0 ≤ p.1 ∧ 0 ≤ p.2 ∧ p.1 < input.width ∧ p.2 < input.height :=
  decide_eq_true_iff

theorem mem_cellsInOrder : p ∈ input.cellsInOrder ↔ input.inMap p = true := by
  rw [inMap_iff, GeneratorInput.cellsInOrder, List.mem_flatMap]
  constructor
  · rintro ⟨y, hy, hp⟩
    obtain ⟨x, hx, rfl⟩ := List.mem_map.mp hp
    rw [List.mem_range] at hx hy
    exact ⟨by omega, by omega, by omega, by omega⟩
  · rintro ⟨hx, hy, hxw, hyh⟩
    refine ⟨p.2.toNat, List.mem_range.mpr (by omega), List.mem_map.mpr ⟨p.1.toNat, List.mem_range.mpr (by omega), ?_⟩⟩
    exact Prod.ext (Int.toNat_of_nonneg hx) (Int.toNat_of_nonneg hy)

/-- The cell is found from its index. -/
theorem index_parts (hp : input.inMap p = true) :
    input.index p / 1024 / input.chunksH = p.1.toNat / 32 ∧ input.index p / 1024 % input.chunksH = p.2.toNat / 32 ∧
      input.index p % 1024 / 32 = p.1.toNat % 32 ∧ input.index p % 1024 % 32 = p.2.toNat % 32 := by
  obtain ⟨hx, hy, -, hyh⟩ := inMap_iff.mp hp
  rw [GeneratorInput.height] at hyh
  have hrow : p.2.toNat / 32 < input.chunksH := by omega
  have hchunk : input.index p / 1024 = p.2.toNat / 32 + input.chunksH * (p.1.toNat / 32) := by
    rw [GeneratorInput.index, cellIndexInMap]
    omega
  have hcell : input.index p % 1024 = p.2.toNat % 32 + 32 * (p.1.toNat % 32) := by
    rw [GeneratorInput.index, cellIndexInMap]
    omega
  have hpos : 0 < input.chunksH := by omega
  refine ⟨?_, ?_, by omega, by omega⟩
  · rw [hchunk, Nat.add_mul_div_left _ _ hpos, Nat.div_eq_of_lt hrow, Nat.zero_add]
  · rw [hchunk, Nat.add_mul_mod_self_left, Nat.mod_eq_of_lt hrow]

/-- Two cells of the map have different places. -/
theorem index_inj (hp : input.inMap p = true) (hq : input.inMap q = true) (h : input.index p = input.index q) :
    p = q := by
  obtain ⟨hp1, hp2, hp3, hp4⟩ := index_parts hp
  obtain ⟨hq1, hq2, hq3, hq4⟩ := index_parts hq
  rw [h] at hp1 hp2 hp3 hp4
  obtain ⟨hpx, hpy, -, -⟩ := inMap_iff.mp hp
  obtain ⟨hqx, hqy, -, -⟩ := inMap_iff.mp hq
  exact Prod.ext (by omega) (by omega)

theorem isOpen_iff : m.isOpen input p = true ↔ input.inMap p = true ∧ m.cells (input.index p) = emptyValue := by
  rw [FlatMap.isOpen, Bool.and_eq_true, decide_eq_true_iff]

theorem mem_neighbors_symm (p q : Pos) (h : q ∈ neighbors p) : p ∈ neighbors q := by
  simp only [neighbors, List.mem_cons, List.not_mem_nil, or_false, Prod.ext_iff] at h ⊢
  omega

/-- The cells of the map are as many as the rounds of the search. -/
theorem card_region : (input.cellsInOrder.toFinset).card ≤ input.width * input.height := by
  refine (List.toFinset_card_le _).trans ?_
  rw [GeneratorInput.cellsInOrder, List.length_flatMap]
  simp only [List.length_map, List.length_range, List.map_const', List.sum_replicate_nat]
  exact (Nat.mul_comm ..).le

namespace FlatMap

/-- The place of a cell alone is written. -/
theorem write_cells (hp : input.inMap p = true) (hq : input.inMap q = true) (t : UInt8) :
    (m.write input p t).cells (input.index q) = if q = p then t else m.cells (input.index q) := by
  rw [write]
  dsimp only
  rw [Function.update_apply]
  exact if_congr ⟨index_inj hq hp, fun h => h ▸ rfl⟩ rfl rfl

theorem write_durability (hp : input.inMap p = true) (hq : input.inMap q = true) (t : UInt8) :
    (m.write input p t).durability (input.index q) = if q = p then input.cellDur t else m.durability (input.index q) := by
  rw [write]
  dsimp only
  rw [Function.update_apply]
  exact if_congr ⟨index_inj hq hp, fun h => h ▸ rfl⟩ rfl rfl

/-- Each cell shows the durability of its type. -/
def Durable (input : GeneratorInput) (m : FlatMap) : Prop := ∀ i, m.durability i = input.cellDur (m.cells i)

theorem Durable.write (h : m.Durable input) (p : Pos) (t : UInt8) : (m.write input p t).Durable input := by
  intro i
  rw [FlatMap.write]
  dsimp only
  rw [Function.update_apply, Function.update_apply]
  split
  · rfl
  · exact h i

theorem Durable.fillSector (h : m.Durable input) (comp : List Pos) (types : Nat → UInt8) :
    (m.fillSector input comp types).Durable input := by
  rw [FlatMap.fillSector]
  refine List.foldlRecOn (motive := Durable input) _ _ h fun m hm e _ => ?_
  split
  · exact hm
  · exact hm.write e.1 _

/-- What the loop over a sector leaves at a cell of the map, from its `k`th cell on. -/
theorem foldl_write (comp : List Pos) (types : Nat → UInt8) (k : Nat) (m : FlatMap) (hnodup : comp.Nodup)
    (hmap : ∀ p ∈ comp, input.inMap p = true) (hq : input.inMap q = true) :
    ((comp.zipIdx k).foldl (fun m e => if types e.2 = emptyValue then m else m.write input e.1 (types e.2)) m).cells
        (input.index q) =
      if q ∈ comp ∧ types (k + comp.idxOf q) ≠ emptyValue then types (k + comp.idxOf q)
      else m.cells (input.index q) := by
  induction comp generalizing k m with
  | nil => exact (if_neg fun h => List.not_mem_nil h.1).symm
  | cons p comp ih =>
      rw [List.nodup_cons] at hnodup
      rw [List.zipIdx_cons, List.foldl_cons, ih (k + 1) _ hnodup.2 fun p hp => hmap p (List.mem_cons_of_mem _ hp)]
      have hp := hmap p List.mem_cons_self
      by_cases hqp : q = p
      · subst hqp
        rw [if_neg (fun h => hnodup.1 h.1), List.idxOf_cons_self, Nat.add_zero]
        dsimp only
        by_cases ht : types k = emptyValue
        · rw [if_pos ht, if_neg fun h => h.2 ht]
        · rw [if_neg ht, write_cells hp hq, if_pos rfl, if_pos ⟨List.mem_cons_self, ht⟩]
      · rw [List.idxOf_cons_ne _ (Ne.symm hqp), Nat.succ_eq_add_one, show k + (comp.idxOf q + 1) = k + 1 + comp.idxOf q by omega]
        refine if_congr (and_congr_left fun _ => ?_) rfl ?_
        · exact (List.mem_cons.trans (or_iff_right hqp)).symm
        dsimp only
        split
        · rfl
        · rw [write_cells hp hq, if_neg hqp]

theorem fillSector_cells (comp : List Pos) (types : Nat → UInt8) (hnodup : comp.Nodup)
    (hmap : ∀ p ∈ comp, input.inMap p = true) (hq : input.inMap q = true) :
    (m.fillSector input comp types).cells (input.index q) =
      if q ∈ comp ∧ types (comp.idxOf q) ≠ emptyValue then types (comp.idxOf q) else m.cells (input.index q) := by
  have h := foldl_write comp types 0 m hnodup hmap hq
  rwa [Nat.zero_add] at h

end FlatMap


/-- What the search learns of the cells in the order in which it visits them. -/
def sectorShape : List Pos → SectorShape
  | [] => ⟨0, 0, 0⟩
  | first :: comp => (first :: comp).foldl (SectorShape.visit first) ⟨0, 0, first.2⟩

/-- The types of the cells of the sector with this number; `cavity` is what was found last. -/
def sectorTypes (input : GeneratorInput) (k : Nat) (sector cavity : List Pos) : Option (Nat → UInt8) :=
  input.fillTypes ((input.seed + UInt32.ofNat (k + 1)) * 0x1337) sector (sectorShape cavity).width
    (sectorShape cavity).height (depthTier (sectorShape cavity).depth.toNat) (sector.length ≤ gigSizeThreshold)

theorem depth_visit (first : Pos) (comp : List Pos) (shape : SectorShape) :
    (comp.foldl (SectorShape.visit first) shape).depth = (comp.map Prod.snd).foldl min shape.depth := by
  induction comp generalizing shape with
  | nil => rfl
  | cons p comp ih => exact ih _

theorem isLeast_foldl_min (a : Int) (l : List Int) : IsLeast {y | y ∈ a :: l} (l.foldl min a) := by
  induction l generalizing a with
  | nil => exact ⟨List.mem_cons_self, fun y hy => (List.mem_singleton.mp hy).ge⟩
  | cons b l ih =>
      obtain ⟨hmem, hle⟩ := ih (min a b)
      refine ⟨?_, fun y hy => ?_⟩
      · rcases List.mem_cons.mp hmem with h | h
        · rw [List.foldl_cons, h]
          rcases min_choice a b with hab | hab <;> rw [hab] <;> simp
        · exact List.mem_cons_of_mem _ (List.mem_cons_of_mem _ h)
      · have hmin := hle (List.mem_cons_self (a := min a b))
        rcases List.mem_cons.mp hy with rfl | hy
        · exact hmin.trans (min_le_left ..)
        · rcases List.mem_cons.mp hy with rfl | hy
          · exact hmin.trans (min_le_right ..)
          · exact hle (List.mem_cons_of_mem _ hy)

/-- The first row of what was found. -/
theorem sectorShape_depth {comp : List Pos} (hcomp : comp ≠ []) :
    IsLeast {y | ∃ p ∈ comp, p.2 = y} (sectorShape comp).depth := by
  obtain ⟨first, rest, rfl⟩ := List.exists_cons_of_ne_nil hcomp
  rw [sectorShape, depth_visit]
  have h := isLeast_foldl_min first.2 ((first :: rest).map Prod.snd)
  have hset : {y | y ∈ first.2 :: (first :: rest).map Prod.snd} = {y | ∃ p ∈ first :: rest, p.2 = y} := by
    ext y
    simp [eq_comm]
  rwa [hset] at h

/-- The steps between the empty cells of the map. -/
def Passage (input : GeneratorInput) (m : FlatMap) : Pos → Pos → Prop := Flood.Adj neighbors (m.isOpen input)

/-- The cells that can be reached from each of them. -/
def Cavity (input : GeneratorInput) (m : FlatMap) (comp : List Pos) : Prop :=
  comp ≠ [] ∧ ∀ p ∈ comp, ∀ q, q ∈ comp ↔ ReflTransGen (Passage input m) p q

/-- A sector with its number: small cavities, and a last one that makes it large enough and whose first row chooses
the palette; the cells have the types that the noise gave them. -/
def Filled (input : GeneratorInput) (m : FlatMap) (cells : Nat → UInt8) (k : Nat) (sector : List Pos) : Prop :=
  ∃ rest cavity, sector = rest ++ cavity ∧ rest.length < sectorMinCells ∧ Cavity input m cavity ∧
    IsLeast {y | ∃ p ∈ cavity, p.2 = y} (sectorShape cavity).depth ∧ ∀ i (h : i < sector.length),
      cells (input.index sector[i]) = (sectorTypes input k sector cavity).elim emptyValue fun types => types i

/-- What was visited lies in the sectors and among the cells that wait, each of them whole. -/
structure Partitioned (input : GeneratorInput) (m : FlatMap) (visited : Pos → Bool) (sectors : List (List Pos))
    (acc : List Pos) : Prop where
  nodup : (sectors.flatten ++ acc).Nodup
  visited_iff : ∀ p, visited p = true ↔ p ∈ sectors.flatten ++ acc
  opened : ∀ p ∈ sectors.flatten ++ acc, m.isOpen input p = true
  whole : ∀ c ∈ sectors ++ [acc], ∀ p ∈ c, ∀ q, Passage input m p q → q ∈ c

/-- The loop over the map `m` after some cells. -/
structure Scanned (input : GeneratorInput) (m : FlatMap) (done : List Pos) (s : SectorFiller) : Prop where
  parts : Partitioned input m s.visited s.sectors s.acc
  large : ∀ c ∈ s.sectors, sectorMinCells ≤ c.length
  small : s.acc.length < sectorMinCells
  numbered : s.sectorSeq = UInt32.ofNat s.sectors.length
  filled : ∀ k c, s.sectors[k]? = some c → Filled input m s.cells k c
  untouched : ∀ p, input.inMap p = true → p ∉ s.sectors.flatten → s.cells (input.index p) = m.cells (input.index p)
  scanned : ∀ p ∈ done, m.isOpen input p = true → s.visited p = true

variable {done : List Pos} {s : SectorFiller}

theorem Scanned.start (m : FlatMap) : Scanned input m [] ⟨m, fun _ => false, [], 0, []⟩ where
  parts :=
    { nodup := List.nodup_nil
      visited_iff := fun _ => iff_of_false Bool.false_ne_true List.not_mem_nil
      opened := fun _ hp => absurd hp List.not_mem_nil
      whole := fun c hc p hp => by
        rw [List.mem_singleton.mp hc] at hp
        exact absurd hp List.not_mem_nil }
  large _ hc := absurd hc List.not_mem_nil
  small := Nat.zero_lt_succ _
  numbered := rfl
  filled _ _ hc := nomatch hc
  untouched _ _ _ := rfl
  scanned _ hp := absurd hp List.not_mem_nil

theorem Scanned.isOpen_eq (h : Scanned input m done s) (p : Pos) (hp : s.visited p = false) :
    s.isOpen input p = m.isOpen input p := by
  rw [FlatMap.isOpen, FlatMap.isOpen]
  cases hmap : input.inMap p with
  | false => rfl
  | true =>
      have hnot : p ∉ s.sectors.flatten := fun hmem => by
        rw [(h.parts.visited_iff p).mpr (List.mem_append_left _ hmem)] at hp
        cases hp
      rw [h.untouched p hmap hnot]

namespace Partitioned

variable {visited : Pos → Bool} {sectors : List (List Pos)} {acc : List Pos}

theorem closed (h : Partitioned input m visited sectors acc) : Flood.Closed neighbors (m.isOpen input) visited := by
  intro p q hp hpq
  have hall : sectors.flatten ++ acc = (sectors ++ [acc]).flatten := by
    rw [List.flatten_append, List.flatten_singleton]
  rw [h.visited_iff, hall, List.mem_flatten] at hp ⊢
  obtain ⟨c, hc, hpc⟩ := hp
  exact ⟨c, hc, h.whole c hc p hpc q hpq⟩

/-- The cells that wait become a sector. -/
theorem fill (h : Partitioned input m visited sectors acc) : Partitioned input m visited (sectors ++ [acc]) [] := by
  have hall : (sectors ++ [acc]).flatten ++ [] = sectors.flatten ++ acc := by
    rw [List.append_nil, List.flatten_append, List.flatten_singleton]
  refine ⟨hall ▸ h.nodup, fun p => by rw [hall]; exact h.visited_iff p, fun p hp => h.opened p (hall ▸ hp), ?_⟩
  intro c hc p hp q hpq
  rcases List.mem_append.mp hc with hc | hc
  · exact h.whole c hc p hp q hpq
  · rw [List.mem_singleton.mp hc] at hp
    exact absurd hp List.not_mem_nil

end Partitioned

/-- What the search from a cell finds. -/
structure Found (input : GeneratorInput) (m : FlatMap) (visited : Pos → Bool) (p : Pos)
    (found : Flood Pos SectorShape) : Prop where
  seen_iff : ∀ q, found.seen q = true ↔ visited q = true ∨ q ∈ found.comp
  nodup : found.comp.Nodup
  fresh : ∀ q ∈ found.comp, visited q = false
  opened : ∀ q ∈ found.comp, m.isOpen input q = true
  cavity : Cavity input m found.comp
  shape : found.data = sectorShape found.comp
  started : p ∈ found.comp

theorem Scanned.found (h : Scanned input m done s) (hp : m.isOpen input p = true) (hfresh : s.visited p = false) :
    Found input m s.visited p (s.component input p) := by
  have hsame : s.component input p = Flood.fill neighbors (m.isOpen input) (SectorShape.visit p)
      (input.width * input.height) (Flood.start s.visited p ⟨0, 0, p.2⟩) := by
    refine Flood.fill_congr _ _ fun q hq => h.isOpen_eq q ?_
    dsimp only [Flood.start] at hq
    rw [Function.update_apply] at hq
    split at hq
    · cases hq
    · exact hq
  have hregion : ∀ q, m.isOpen input q = true → q ∈ input.cellsInOrder.toFinset := fun q hq =>
    List.mem_toFinset.mpr (mem_cellsInOrder.mpr (isOpen_iff.mp hq).1)
  obtain ⟨hfill, hdone⟩ : Flood.Filling neighbors (m.isOpen input) s.visited p (s.component input p) ∧
      (s.component input p).queue = [] := by
    rw [hsame]
    exact (Flood.filling_start hp hfresh _).fill hregion _ (card_region.trans (Nat.le_add_right ..))
  have hall : (s.component input p).comp ++ (s.component input p).queue = (s.component input p).comp := by
    rw [hdone, List.append_nil]
  have hmem := hfill.mem_comp hdone mem_neighbors_symm h.parts.closed
  have hpos : 0 < input.width * input.height := by
    obtain ⟨hx, hy, hxw, hyh⟩ := inMap_iff.mp (isOpen_iff.mp hp).1
    exact Nat.mul_pos (by omega) (by omega)
  have hfirst : [p] <+: (s.component input p).comp := by
    obtain ⟨n, hn⟩ := Nat.exists_eq_succ_of_ne_zero hpos.ne'
    rw [hsame, hn, Flood.fill]
    refine List.IsPrefix.trans ?_ (Flood.comp_prefix_fill n _)
    rw [(Flood.foldl_push (m.isOpen input) (neighbors p) _).1]
    exact List.prefix_rfl
  have hdata : (s.component input p).data =
      (s.component input p).comp.foldl (SectorShape.visit p) ⟨0, 0, p.2⟩ := by
    rw [hsame]
    exact Flood.data_fill _ _ rfl
  have hstarted : p ∈ (s.component input p).comp := hfirst.subset List.mem_cons_self
  refine ⟨fun q => ?_, ?_, fun q hq => ?_, fun q hq => ?_, ⟨List.ne_nil_of_mem hstarted, fun r hr q => ?_⟩, ?_, hstarted⟩
  · rw [hfill.seen_iff, hall]
  · exact hall ▸ hfill.nodup
  · exact hfill.fresh q (by rw [hall]; exact hq)
  · exact (hfill.reached q (by rw [hall]; exact hq)).1
  · rw [hmem q]
    obtain ⟨-, hback⟩ := Flood.reachable_symm mem_neighbors_symm hp ((hmem r).mp hr)
    exact ⟨fun hpq => hback.trans hpq, fun hrq => ((hmem r).mp hr).trans hrq⟩
  · obtain ⟨rest, hrest⟩ := hfirst
    rw [hdata, ← hrest]
    rfl


theorem Partitioned.add {visited : Pos → Bool} {sectors : List (List Pos)} {acc : List Pos}
    {found : Flood Pos SectorShape} (h : Partitioned input m visited sectors acc)
    (hfound : Found input m visited p found) : Partitioned input m found.seen sectors (acc ++ found.comp) := by
  refine ⟨?_, fun q => ?_, fun q hq => ?_, fun c hc q hq r hqr => ?_⟩
  · rw [← List.append_assoc]
    refine List.nodup_append.mpr ⟨h.nodup, hfound.nodup, fun q hq r hr heq => ?_⟩
    have hfresh := hfound.fresh r hr
    rw [← heq, (h.visited_iff q).mpr hq] at hfresh
    cases hfresh
  · rw [hfound.seen_iff, h.visited_iff, ← List.append_assoc, List.mem_append (t := found.comp)]
  · rw [← List.append_assoc, List.mem_append] at hq
    exact hq.elim (h.opened q) (hfound.opened q)
  · rcases List.mem_append.mp hc with hc | hc
    · exact h.whole c (List.mem_append_left _ hc) q hq r hqr
    · obtain rfl := List.mem_singleton.mp hc
      rcases List.mem_append.mp hq with hq | hq
      · exact List.mem_append_left _ (h.whole acc (List.mem_append_right _ List.mem_cons_self) q hq r hqr)
      · exact List.mem_append_right _ ((hfound.cavity.2 q hq r).mpr (.single hqr))

/-- The sectors that were filled before stay as they are. -/
theorem Filled.congr {cells cells' : Nat → UInt8} {k : Nat} {sector : List Pos} (h : Filled input m cells k sector)
    (hsame : ∀ p ∈ sector, cells' (input.index p) = cells (input.index p)) : Filled input m cells' k sector := by
  obtain ⟨rest, cavity, hsector, hrest, hcavity, hdepth, hcells⟩ := h
  exact ⟨rest, cavity, hsector, hrest, hcavity, hdepth, fun i hi =>
    (hsame sector[i] (List.getElem_mem hi)).trans (hcells i hi)⟩

/-- The types at the cells of a sector that was empty, and nothing else. -/
theorem elim_fillSector {f : FlatMap} {sector : List Pos} (types : Option (Nat → UInt8)) (hnodup : sector.Nodup)
    (hmap : ∀ q ∈ sector, input.inMap q = true) (hempty : ∀ q ∈ sector, f.cells (input.index q) = emptyValue) :
    (∀ i (h : i < sector.length), (types.elim f (f.fillSector input sector)).cells (input.index sector[i]) =
      types.elim emptyValue fun types => types i) ∧
    ∀ q, input.inMap q = true → q ∉ sector →
      (types.elim f (f.fillSector input sector)).cells (input.index q) = f.cells (input.index q) := by
  cases types with
  | none => exact ⟨fun i h => hempty _ (List.getElem_mem h), fun _ _ _ => rfl⟩
  | some types =>
      refine ⟨fun i h => ?_, fun q hq hnot => ?_⟩
      · have hi := List.getElem_mem h
        dsimp only [Option.elim]
        rw [FlatMap.fillSector_cells sector types hnodup hmap (hmap _ hi), hnodup.idxOf_getElem i h]
        split
        · rfl
        · rename_i hno
          rw [hempty _ hi]
          exact (of_not_not fun hne => hno ⟨hi, hne⟩).symm
      · dsimp only [Option.elim]
        rw [FlatMap.fillSector_cells sector types hnodup hmap hq]
        exact if_neg fun h => hnot h.1

/-- What a cell of the loop does. -/
theorem Scanned.scan (h : Scanned input m done s) (hp : input.inMap p = true) :
    Scanned input m (done ++ [p]) (s.scan input p) := by
  have hopen : s.visited p = false → s.cells (input.index p) = emptyValue → m.isOpen input p = true := fun hv hc => by
    rw [← h.isOpen_eq p hv]
    exact isOpen_iff.mpr ⟨hp, hc⟩
  rw [SectorFiller.scan]
  split
  · rename_i hskip
    refine { h with scanned := fun q hq hqopen => ?_ }
    rcases List.mem_append.mp hq with hq | hq
    · exact h.scanned q hq hqopen
    · obtain rfl := List.mem_singleton.mp hq
      by_contra hv
      rw [Bool.not_eq_true] at hv
      rw [← h.isOpen_eq q hv, isOpen_iff] at hqopen
      rw [hv, hqopen.2] at hskip
      exact absurd hskip (by decide)
  · rename_i hgo
    obtain ⟨hv, hc⟩ : s.visited p = false ∧ s.cells (input.index p) = emptyValue := by simpa using hgo
    have hfound := h.found (hopen hv hc) hv
    have hparts := h.parts.add hfound
    have hscanned : ∀ q ∈ done ++ [p], m.isOpen input q = true → (s.component input p).seen q = true := by
      intro q hq hqopen
      rw [hfound.seen_iff]
      rcases List.mem_append.mp hq with hq | hq
      · exact Or.inl (h.scanned q hq hqopen)
      · rw [List.mem_singleton.mp hq]
        exact Or.inr hfound.started
    dsimp only
    split
    · rename_i hsmall
      exact ⟨hparts, h.large, hsmall, h.numbered, h.filled, h.untouched, hscanned⟩
    · rename_i hlarge
      set acc := s.acc ++ (s.component input p).comp with hacc
      have hflat : (s.sectors ++ [acc]).flatten = s.sectors.flatten ++ acc := by
        rw [List.flatten_append, List.flatten_singleton]
      have hnot : ∀ q ∈ acc, q ∉ s.sectors.flatten := fun q hq hmem =>
        List.disjoint_of_nodup_append hparts.nodup hmem hq
      have hmap : ∀ q ∈ acc, input.inMap q = true := fun q hq =>
        (isOpen_iff.mp (hparts.opened q (List.mem_append_right _ hq))).1
      have hempty : ∀ q ∈ acc, s.cells (input.index q) = emptyValue := fun q hq => by
        rw [h.untouched q (hmap q hq) (hnot q hq)]
        exact (isOpen_iff.mp (hparts.opened q (List.mem_append_right _ hq))).2
      have hseq : s.sectorSeq + 1 = UInt32.ofNat (s.sectors.length + 1) := by
        rw [h.numbered, UInt32.ofNat_add]
        rfl
      obtain ⟨hnew, hold⟩ := elim_fillSector (f := s.toFlatMap)
        (sectorTypes input s.sectors.length acc (s.component input p).comp)
        (List.Nodup.of_append_right hparts.nodup) hmap hempty
      rw [hseq, hfound.shape]
      refine ⟨hparts.fill, fun c hc => ?_, Nat.zero_lt_succ _, ?_, fun k c hk => ?_, fun q hq hqnot => ?_, hscanned⟩
      · rcases List.mem_append.mp hc with hc | hc
        · exact h.large c hc
        · rw [List.mem_singleton.mp hc]
          exact Nat.not_lt.mp hlarge
      · change UInt32.ofNat (s.sectors.length + 1) = UInt32.ofNat (s.sectors ++ [acc]).length
        rw [List.length_append, List.length_singleton]
      · rcases Nat.lt_or_ge k s.sectors.length with hlt | hge
        · rw [List.getElem?_append_left hlt] at hk
          refine (h.filled k c hk).congr fun q hq => hold q ?_ ?_
          · exact (isOpen_iff.mp (h.parts.opened q (List.mem_append_left _
              (List.mem_flatten.mpr ⟨c, List.mem_of_getElem? hk, hq⟩)))).1
          · exact fun hqacc => hnot q hqacc (List.mem_flatten.mpr ⟨c, List.mem_of_getElem? hk, hq⟩)
        · rw [List.getElem?_append_right hge, List.getElem?_singleton] at hk
          split at hk
          · rename_i hzero
            obtain rfl : k = s.sectors.length := by omega
            cases hk
            exact ⟨s.acc, (s.component input p).comp, hacc, h.small, hfound.cavity, sectorShape_depth hfound.cavity.1, hnew⟩
          · cases hk
      · rw [hflat, List.mem_append, not_or] at hqnot
        exact (hold q hq hqnot.2).trans (h.untouched q hq hqnot.1)

theorem scanned_foldl (cells : List Pos) (hcells : ∀ p ∈ cells, input.inMap p = true)
    (h : Scanned input m done s) : Scanned input m (done ++ cells) (cells.foldl (SectorFiller.scan input) s) := by
  induction cells generalizing done s with
  | nil => rwa [List.append_nil]
  | cons p cells ih =>
      rw [List.foldl_cons, ← List.singleton_append, ← List.append_assoc]
      exact ih (fun q hq => hcells q (List.mem_cons_of_mem _ hq)) (h.scan (hcells p List.mem_cons_self))

theorem scanned_fillSectors (input : GeneratorInput) (m : FlatMap) : Scanned input m input.cellsInOrder (fillSectors input m) :=
  scanned_foldl _ (fun _ hp => mem_cellsInOrder.mp hp) (.start m)

theorem skeletonCells_cells (skeleton : Nat → UInt8) (hp : input.inMap p = true) :
    (skeletonCells input skeleton).cells (input.index p) =
      if p.2 < spawnClearRows then emptyValue else skeleton (p.1.toNat * input.height + p.2.toNat) := by
  obtain ⟨hx, hy, hcx, hcy⟩ := index_parts hp
  obtain ⟨-, hpy, -, -⟩ := inMap_iff.mp hp
  have hcol : p.1.toNat / 32 * 32 + p.1.toNat % 32 = p.1.toNat := by omega
  have hrow : p.2.toNat / 32 * 32 + p.2.toNat % 32 = p.2.toNat := by omega
  rw [skeletonCells]
  dsimp only
  rw [hx, hy, hcx, hcy, hcol, hrow]
  exact if_congr (by omega) rfl rfl

theorem durable_scan (s : SectorFiller) (p : Pos) (h : s.Durable input) :
    (s.scan input p).Durable input := by
  rw [SectorFiller.scan]
  split
  · exact h
  · dsimp only
    split
    · exact h
    · dsimp only
      cases input.fillTypes _ _ _ _ _ _ with
      | none => exact h
      | some types => exact h.fillSector _ types

end OpenMines.Generator
