import OpenMines.Lib.JsonTree
import OpenMines.SkillSlots
import Mathlib.Data.List.Sort

namespace OpenMines

open Lib Lib.Run

/-- How floats are written and read: in a command, and in JSON, where those without a value have no text. -/
structure FloatText where
  parse : String → Option UInt32
  print : UInt32 → String
  read : String → Option UInt32
  read_print : ∀ x, finiteExp x = true → read (print x) = some x

namespace FloatText

variable (fmt : FloatText)

def toJson (x : UInt32) : Json := if finiteExp x then .num (fmt.print x) else .null

def ofJson : Json → Option UInt32
  | .num text => fmt.read text
  | _ => none

theorem ofJson_toJson {x : UInt32} (h : finiteExp x = true) : fmt.ofJson (fmt.toJson x) = some x := by
  rw [toJson, if_pos h]
  exact fmt.read_print x h

theorem finiteExp_of_ofJson {x y : UInt32} (h : fmt.ofJson (fmt.toJson x) = some y) : finiteExp x = true := by
  rw [toJson] at h
  split at h
  · assumption
  · cases h

end FloatText

/-! ### The text of a row -/

namespace SkillSlots

variable (fmt : FloatText)

def entryJson (e : SkillEntry) : Json :=
  .obj [("code", .str e.code), ("level", .num (Json.ofI32 e.level)), ("exp", fmt.toJson e.exp)]

/-- `serde_json::to_string` of the skills, of which the map is in any order. -/
def toJson (s : SkillSlots) : Json :=
  .obj [("skills", Json.ofEntries Json.ofI32 (entryJson fmt) s.skills), ("total_slots", .num (Json.ofI32 s.totalSlots))]

def readEntry (json : Json) : Option SkillEntry :=
  ((json.field "code").bind Json.toText).bind fun code => ((json.field "level").bind Json.toI32).bind fun level =>
    ((json.field "exp").bind fmt.ofJson).map fun exp => ⟨code, level, exp⟩

def readSlots (json : Json) : Option SkillSlots :=
  ((json.field "skills").bind fun skills => skills.toMap Json.readI32 (readEntry fmt)).bind fun skills =>
    ((json.field "total_slots").bind Json.toI32).map fun totalSlots => ⟨skills, totalSlots⟩

def readState (json : Json) : Option SkillState :=
  ((json.field "level").bind Json.toI32).bind fun level =>
    ((json.field "exp").bind fmt.ofJson).map fun exp => ⟨level, exp⟩

/-- A row of the old format. -/
def readLegacy (json : Json) : Option LegacySkills :=
  (json.toEntries some (readState fmt)).map fun entries => ⟨LastWins.lastWins Prod.fst entries, LastWins.nodup_lastWins⟩

def parseSkills (raw : Json) : Option SkillSlots := (readSlots fmt raw).or ((readLegacy fmt raw).map migrateOldSkills)

variable {fmt} {s : SkillSlots}

theorem readEntry_entryJson {e : SkillEntry} (h : finiteExp e.exp = true) :
    readEntry fmt (entryJson fmt e) = some e := by
  simp [readEntry, entryJson, Json.field, Json.toText, Json.toI32, fmt.ofJson_toJson h]

theorem finiteExp_of_readEntry {e : SkillEntry} (h : (readEntry fmt (entryJson fmt e)).isSome) :
    finiteExp e.exp = true := by
  obtain ⟨f, hf⟩ := Option.isSome_iff_exists.mp h
  obtain ⟨code, -, hf⟩ := Option.bind_eq_some_iff.mp hf
  obtain ⟨level, -, hf⟩ := Option.bind_eq_some_iff.mp hf
  obtain ⟨exp, hexp, -⟩ := Option.map_eq_some_iff.mp hf
  exact fmt.finiteExp_of_ofJson hexp

theorem readSlots_toJson (hnodup : (s.skills.map Prod.fst).Nodup) (hexp : ∀ e ∈ s.skills, finiteExp e.2.exp = true) :
    readSlots fmt (s.toJson fmt) = some s := by
  have hmap : (Json.ofEntries Json.ofI32 (entryJson fmt) s.skills).toMap Json.readI32 (readEntry fmt) = some s.skills :=
    Json.toMap_ofEntries Json.readI32_ofI32 (fun e he => readEntry_entryJson (hexp e he)) hnodup
  simp [readSlots, toJson, Json.field, Json.toI32, hmap]

theorem finiteExp_of_readSlots {t : SkillSlots} (h : readSlots fmt (s.toJson fmt) = some t) :
    ∀ e ∈ s.skills, finiteExp e.2.exp = true := by
  obtain ⟨skills, hskills, -⟩ := Option.bind_eq_some_iff.mp h
  obtain ⟨entries, hentries, -⟩ := Option.map_eq_some_iff.mp hskills
  exact fun e he => finiteExp_of_readEntry (Json.isSome_of_toEntries hentries _ (List.mem_map_of_mem he))

/-- Where a row of the old format has its states, the new one has the number of the slots. -/
theorem readLegacy_toJson : readLegacy fmt (s.toJson fmt) = none := by
  rw [readLegacy, Option.map_eq_none_iff, toJson, Json.toEntries]
  simp [readState, Json.field]

/-- A row of the old format is not taken for one of the new. -/
theorem readSlots_eq_none {json : Json} {old : LegacySkills} (h : readLegacy fmt json = some old) :
    readSlots fmt json = none := by
  obtain ⟨entries, hentries, -⟩ := Option.map_eq_some_iff.mp h
  refine Option.eq_none_iff_forall_ne_some.mpr fun t ht => ?_
  obtain ⟨skills, -, ht⟩ := Option.bind_eq_some_iff.mp ht
  obtain ⟨totalSlots, htotal, -⟩ := Option.map_eq_some_iff.mp ht
  obtain ⟨total, htotal, hnum⟩ := Option.bind_eq_some_iff.mp htotal
  cases json with
  | obj fields =>
      have hstate := Json.isSome_of_toEntries hentries _ (Json.mem_of_field htotal)
      cases total with
      | num text => cases hstate
      | null | str | obj => cases hnum
  | null | num | str => cases hentries

/-- What is saved is what is loaded, in whatever order the map is written. -/
def RoundTrips (fmt : FloatText) (s : SkillSlots) : Prop :=
  ∀ order, order.Perm s.skills → ∃ t, parseSkills fmt (toJson fmt { s with skills := order }) = some t ∧
    t.totalSlots = s.totalSlots ∧ t.skills.Perm s.skills

theorem roundTrips_iff (hnodup : (s.skills.map Prod.fst).Nodup) :
    s.RoundTrips fmt ↔ ∀ e ∈ s.skills, finiteExp e.2.exp = true := by
  constructor
  · intro h
    obtain ⟨t, ht, -⟩ := h s.skills (List.Perm.refl _)
    rw [parseSkills, readLegacy_toJson, Option.map_none, Option.or_none] at ht
    exact finiteExp_of_readSlots ht
  · intro hexp order hperm
    refine ⟨{ s with skills := order }, ?_, rfl, hperm⟩
    rw [parseSkills, readSlots_toJson ((hperm.map Prod.fst).nodup_iff.mpr hnodup) fun e he => hexp e (hperm.mem_iff.mp he),
      Option.some_or]

theorem parseSkills_legacy {json : Json} {old : LegacySkills} (h : readLegacy fmt json = some old) :
    parseSkills fmt json = some (migrateOldSkills old) := by
  rw [parseSkills, readSlots_eq_none h, h, Option.none_or, Option.map_some]

end SkillSlots

/-! ### Migration -/

namespace LegacySkills

variable (old : LegacySkills)

/-- The slots that the row gives the player. -/
def limit : Int := max 20 (old.slots.getD 20).toInt

/-- A row of no more skills than slots, of no more slots than there are, and of experience with a value. -/
structure Fits : Prop where
  room : (old.skills.length : Int) ≤ old.limit
  limit_le : old.limit ≤ 34
  exps : ∀ e ∈ old.skills, finiteExp e.2.exp = true

/-- Each skill is there once, with its level and its experience. -/
def KeptBy (s : SkillSlots) : Prop := (s.skills.map Prod.snd).Perm (old.skills.map entry)

def sorted : List (String × SkillState) := old.skills.mergeSort fun a b => decide (a.1 ≤ b.1)

def placed : List (Int32 × SkillEntry) := old.sorted.zipIdx.map fun e => (slotOfIndex e.2, entry e.1)

variable {old}

theorem migrateOldSkills_skills : (migrateOldSkills old).skills = LastWins.lastWins Prod.fst old.placed := rfl

theorem sorted_perm : old.sorted.Perm old.skills := List.mergeSort_perm _ _

theorem toInt_max (a b : Int32) : (max a b).toInt = max a.toInt b.toInt := by
  have hmax : max a b = if a ≤ b then b else a := rfl
  rw [hmax, apply_ite Int32.toInt, max_def]
  simp only [Int32.le_iff_toInt_le]

theorem totalSlots_migrateOldSkills : (migrateOldSkills old).totalSlots.toInt = old.limit := by
  have hloop : (migrateOldSkills old).totalSlots =
      ((LastWins.lastAt Prod.fst old.entries "__slots").map fun e => max e.2.level 20).getD 20 :=
    LastWins.foldl_keyed (fun e : String × SkillState => max e.2.level 20) 20
  rw [hloop, limit, slots]
  cases LastWins.lastAt Prod.fst old.entries "__slots" with
  | none => rfl
  | some e => exact (toInt_max _ _).trans (max_comm _ _)

theorem toInt_slotOfIndex {i : Nat} (h : i ≤ 2147483647) : (slotOfIndex i).toInt = i := by
  rw [slotOfIndex, if_pos h, Int32.toInt_ofNat_of_lt (by omega)]

theorem placed_keys : old.placed.map Prod.fst = (List.range old.skills.length).map slotOfIndex := by
  have hlength : old.sorted.length = old.skills.length := sorted_perm.length_eq
  have hindex : old.sorted.zipIdx.map Prod.snd = List.range old.skills.length := by
    rw [List.zipIdx_map_snd, hlength, List.range_eq_range']
  rw [← hindex, placed, List.map_map, List.map_map]
  rfl

theorem placed_entries : old.placed.map Prod.snd = old.sorted.map entry := by
  have hfirst : old.sorted.zipIdx.map Prod.fst = old.sorted := List.zipIdx_map_fst _ _
  conv_rhs => rw [← hfirst]
  rw [placed, List.map_map, List.map_map]
  rfl

theorem mem_placed {e : Int32 × SkillEntry} (h : e ∈ old.placed) :
    (∃ i < old.skills.length, e.1 = slotOfIndex i) ∧ ∃ st ∈ old.skills, e.2 = entry st := by
  have hkey : e.1 ∈ old.placed.map Prod.fst := List.mem_map_of_mem h
  have hentry : e.2 ∈ old.placed.map Prod.snd := List.mem_map_of_mem h
  rw [placed_keys] at hkey
  rw [placed_entries] at hentry
  obtain ⟨i, hi, hslot⟩ := List.mem_map.mp hkey
  obtain ⟨st, hst, hst'⟩ := List.mem_map.mp hentry
  exact ⟨⟨i, List.mem_range.mp hi, hslot.symm⟩, st, sorted_perm.mem_iff.mp hst, hst'.symm⟩

theorem nodup_placed (h : old.skills.length ≤ 34) : (old.placed.map Prod.fst).Nodup := by
  rw [placed_keys]
  refine List.Nodup.map_on (fun i hi j hj heq => ?_) List.nodup_range
  have hi := List.mem_range.mp hi
  have hj := List.mem_range.mp hj
  have hint := congrArg Int32.toInt heq
  rw [toInt_slotOfIndex (by omega), toInt_slotOfIndex (by omega)] at hint
  exact Int.ofNat.inj hint

theorem migrateOldSkills_of_room (h : old.skills.length ≤ 34) : (migrateOldSkills old).skills = old.placed :=
  LastWins.lastWins_of_nodup (nodup_placed h)

theorem keptBy_migrateOldSkills (h : old.skills.length ≤ 34) : old.KeptBy (migrateOldSkills old) := by
  rw [KeptBy, migrateOldSkills_of_room h, placed_entries]
  exact sorted_perm.map entry

theorem Fits.sound (h : old.Fits) : (migrateOldSkills old).Sound := by
  have hroom : old.skills.length ≤ 34 := by have := h.room; have := h.limit_le; omega
  have hplaced := migrateOldSkills_of_room hroom
  constructor
  · constructor
    · exact LastWins.nodup_lastWins
    · have hcodes : ((old.skills.map entry).map SkillEntry.code).Nodup := by
        rw [List.map_map]
        exact old.nodup.sublist (List.filter_sublist.map _)
      have hperm := (keptBy_migrateOldSkills hroom).map SkillEntry.code
      rw [List.map_map] at hperm
      exact hperm.nodup_iff.mpr hcodes
    · intro e he
      obtain ⟨⟨i, hi, hslot⟩, -⟩ := mem_placed (hplaced ▸ he)
      rw [hslot, toInt_slotOfIndex (by omega), totalSlots_migrateOldSkills]
      have := h.room
      omega
    · rw [totalSlots_migrateOldSkills]
      exact h.limit_le
  · intro e he
    obtain ⟨-, st, hst, hentry⟩ := mem_placed (hplaced ▸ he)
    rw [hentry]
    exact h.exps st hst

/-- Where the skills of a row are more than its slots, the last of them are out of the range. -/
theorem fits_of_good {fmt : FloatText} (h : (migrateOldSkills old).Good) (htrips : (migrateOldSkills old).RoundTrips fmt) :
    old.Fits := by
  have hlimit : old.limit ≤ 34 := totalSlots_migrateOldSkills ▸ h.total
  have htwenty : 20 ≤ old.limit := le_max_left _ _
  have hroom : (old.skills.length : Int) ≤ old.limit := by
    by_contra hlt
    obtain ⟨n, hn⟩ := Int.eq_ofNat_of_zero_le (Int.le_trans (by decide) htwenty)
    have hkey : slotOfIndex n ∈ old.placed.map Prod.fst := by
      rw [placed_keys]
      exact List.mem_map_of_mem (List.mem_range.mpr (by omega))
    obtain ⟨e, he, heq⟩ := List.mem_map.mp hkey
    cases hlast : LastWins.lastAt Prod.fst old.placed (slotOfIndex n) with
    | none => exact LastWins.lastAt_eq_none.mp hlast e he heq
    | some f =>
        have hf : f.1 = slotOfIndex n := (LastWins.mem_of_lastAt hlast).2
        have hrange := h.slots f (LastWins.mem_lastWins.mpr (hf ▸ hlast))
        rw [hf, toInt_slotOfIndex (by omega), totalSlots_migrateOldSkills] at hrange
        omega
  refine ⟨hroom, hlimit, fun st hst => ?_⟩
  have hmem : entry st ∈ (migrateOldSkills old).skills.map Prod.snd :=
    (keptBy_migrateOldSkills (by omega)).mem_iff.mpr (List.mem_map_of_mem hst)
  obtain ⟨e, he, heq⟩ := List.mem_map.mp hmem
  have hexp := (SkillSlots.roundTrips_iff h.keys).mp htrips e he
  rw [heq] at hexp
  exact hexp

end LegacySkills

/-! ### Runs -/

namespace SkillSlots

/-- No step panics, and but for a row that does not fit each of them keeps the invariant. -/
theorem step_spec (parseF32 : String → Option UInt32) (s : SkillSlots) (e : SkillEvent) :
    ∃ t, step parseF32 s e = some t ∧ ((∀ old, e = .migrate old → old.Fits) → s.Sound → t.Sound) := by
  cases e with
  | migrate old => exact ⟨_, rfl, fun hfits _ => (hfits old rfl).sound⟩
  | delete window slot => exact ⟨_, rfl, fun _ h => h.handleSkillDelete window slot⟩
  | install window code slot => exact ⟨_, rfl, fun _ h => h.handleSkillInstall window code slot⟩
  | buySlot creds => exact ⟨_, rfl, fun _ h => h.handleBuySlot creds⟩
  | admin args =>
      obtain ⟨t, ht, hsound⟩ := s.adminSkill_spec parseF32 args
      exact ⟨t, ht, fun _ => hsound⟩

theorem exists_run (parseF32 : String → Option UInt32) (es : List SkillEvent) (s : SkillSlots) :
    ∃ t, run (step parseF32) s es = some t := by
  induction es generalizing s with
  | nil => exact ⟨s, rfl⟩
  | cons e es ih =>
      obtain ⟨u, hu, -⟩ := step_spec parseF32 s e
      obtain ⟨t, ht⟩ := ih u
      exact ⟨t, run_cons_eq_some.mpr ⟨u, hu, ht⟩⟩

theorem sound_of_run {parseF32 : String → Option UInt32} {es : List SkillEvent} {s t : SkillSlots} (hs : s.Sound)
    (hfits : ∀ old, .migrate old ∈ es → old.Fits) (h : run (step parseF32) s es = some t) : t.Sound := by
  refine run_preserves hs (fun e he u v hu hv => ?_) h
  obtain ⟨w, hw, hsound⟩ := step_spec parseF32 u e
  obtain rfl := Option.some.inj (hw.symm.trans hv)
  exact hsound (fun old heq => hfits old (heq ▸ he)) hu

/-- After each command of a run each skill is in one slot of those that the player has, of which there are at most 34,
and what is saved is what is loaded, and a migration keeps each skill, just when each row that is migrated fits. -/
theorem slots_kept_iff (fmt : FloatText) (es : List SkillEvent) :
    ((∀ n, ∃ u, run (step fmt.parse) defaultSkills (es.take n) = some u ∧ u.Good ∧ u.RoundTrips fmt) ∧
      ∀ old, .migrate old ∈ es → old.KeptBy (migrateOldSkills old)) ↔ ∀ old, .migrate old ∈ es → old.Fits := by
  constructor
  · rintro ⟨hall, -⟩ old hmem
    obtain ⟨before, after, rfl⟩ := List.append_of_mem hmem
    obtain ⟨u, hu, hgood, htrips⟩ := hall (before.length + 1)
    have htake : (before ++ SkillEvent.migrate old :: after).take (before.length + 1) = before ++ [.migrate old] := by
      rw [List.take_length_add_append, List.take_succ_cons, List.take_zero]
    rw [htake, run_concat_eq_some] at hu
    obtain ⟨v, -, hv⟩ := hu
    obtain rfl := Option.some.inj hv
    exact LegacySkills.fits_of_good hgood htrips
  · intro hfits
    refine ⟨fun n => ?_, fun old hmem => ?_⟩
    · obtain ⟨u, hu⟩ := exists_run fmt.parse (es.take n) defaultSkills
      have hsound : u.Sound := sound_of_run sound_defaultSkills (fun old hold => hfits old (List.mem_of_mem_take hold)) hu
      exact ⟨u, hu, hsound.toGood, (roundTrips_iff hsound.keys).mpr hsound.exps⟩
    · have := (hfits old hmem).room
      have := (hfits old hmem).limit_le
      exact LegacySkills.keptBy_migrateOldSkills (by omega)

end SkillSlots

/-- Zero as it is written, and of each other float the number of its bits. -/
def sampleText : FloatText where
  parse text := if text = "0.0" then some 0 else none
  print x := if x = 0 then "0.0" else String.ofList (Text.decimal x.toNat)
  read text := if text = "0.0" then some 0 else (Text.parseInt 0 4294967295 text).map fun n => .ofNat n.toNat
  read_print := by
    intro x _
    have hlt := x.toNat_lt
    have hread : Text.parseInt 0 4294967295 (String.ofList (Text.decimal x.toNat)) = some (x.toNat : Int) :=
      Text.parseInt_decimal (by omega) (by omega)
    by_cases hzero : x = 0
    · rw [if_pos hzero, if_pos rfl, hzero]
    · have hne : String.ofList (Text.decimal x.toNat) ≠ "0.0" := by
        intro heq
        have hnone : Text.parseInt 0 4294967295 "0.0" = none := by decide
        rw [heq, hnone] at hread
        cases hread
      rw [if_neg hzero, if_neg hne, hread, Option.map_some, Int.toNat_natCast, UInt32.ofNat_toNat]

/-- A row that gives its player fifty slots. -/
def fiftySlots : LegacySkills := ⟨[("__slots", ⟨50, 0⟩)], by decide⟩

namespace SkillSlots

theorem slots_exceeded :
    ∃ u, run (step sampleText.parse) defaultSkills [.migrate fiftySlots] = some u ∧ u.totalSlots = 50 ∧ ¬ u.Good :=
  ⟨_, rfl, by decide, fun h => absurd h.total (by decide)⟩

end SkillSlots

end OpenMines
