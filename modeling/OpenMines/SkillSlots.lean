import OpenMines.PlayerRow
import OpenMines.Lib.LastWins
import OpenMines.Lib.Run
import OpenMines.Lib.Text
import Mathlib.Data.List.Nodup

namespace OpenMines

open Lib

inductive SkillType
  | antiSlime | antiBlock | adjacentExtraction | geology | mineBlue | mineGreen | destruction | annihilation
  | crystallography | deconstruction | antiGun | buildRed | digging | health | mineGeneral | mineRed | buildGreen
  | buildQuadro | detection | movement | buildYellow | compression | fridge | mineCyan | roadMovement | upgrade
  | deactivation | hyperPacking | mineViolet | packing | packingBlue | packingCyan | packingViolet | discount | sort
  | turbo | deMagnetizing | mineWhite | packingRed | packingWhite | packingGreen | extraction | repair | expertMining
  | washing | fracturing | nanoPacking | buildStructure | buildRoad | buildUniversal | buildWar | architecture
  | totalDestruction | ultraWhite | jewlery | induction | mineSlime | mineDeep | gluonPacking
  deriving DecidableEq

namespace SkillType

def code : SkillType → String
  | antiSlime => "a" | antiBlock => "k" | adjacentExtraction => "j" | geology => "U" | mineBlue => "B"
  | mineGreen => "G" | destruction => "D" | annihilation => "x" | crystallography => "y" | deconstruction => "z"
  | antiGun => "u" | buildRed => "E" | digging => "d" | health => "l" | mineGeneral => "m" | mineRed => "R"
  | buildGreen => "L" | buildQuadro => "Q" | detection => "q" | movement => "M" | buildYellow => "Y"
  | compression => "P" | fridge => "F" | mineCyan => "C" | roadMovement => "t" | upgrade => "*U"
  | deactivation => "Z" | hyperPacking => "h" | mineViolet => "V" | packing => "p" | packingBlue => "b"
  | packingCyan => "c" | packingViolet => "v" | discount => "*M" | sort => "J" | turbo => "S"
  | deMagnetizing => "X" | mineWhite => "W" | packingRed => "r" | packingWhite => "w" | packingGreen => "g"
  | extraction => "o" | repair => "e" | expertMining => "*D" | washing => "i" | fracturing => "f"
  | nanoPacking => "H" | buildStructure => "O" | buildRoad => "A" | buildUniversal => "*B" | buildWar => "*L"
  | architecture => "*A" | totalDestruction => "*T" | ultraWhite => "*u" | jewlery => "*J" | induction => "*I"
  | mineSlime => "*a" | mineDeep => "*d" | gluonPacking => "*g"

def all : List SkillType :=
  [antiSlime, antiBlock, adjacentExtraction, geology, mineBlue, mineGreen, destruction, annihilation, crystallography,
    deconstruction, antiGun, buildRed, digging, health, mineGeneral, mineRed, buildGreen, buildQuadro, detection,
    movement, buildYellow, compression, fridge, mineCyan, roadMovement, upgrade, deactivation, hyperPacking, mineViolet,
    packing, packingBlue, packingCyan, packingViolet, discount, sort, turbo, deMagnetizing, mineWhite, packingRed,
    packingWhite, packingGreen, extraction, repair, expertMining, washing, fracturing, nanoPacking, buildStructure,
    buildRoad, buildUniversal, buildWar, architecture, totalDestruction, ultraWhite, jewlery, induction, mineSlime,
    mineDeep, gluonPacking]

def fromCode (s : String) : Option SkillType := all.find? fun skill => skill.code = s

/-- `get_skill_requirements` -/
def requirements : SkillType → List (SkillType × Int32)
  | buildRoad => [(digging, 5)]
  | _ => []

end SkillType

def maxSkillSlots : Int32 := 34

def slotCost : Int64 := 1000

namespace SkillSlots

variable (s : SkillSlots)

def find (code : String) : Option SkillEntry := (s.skills.map Prod.snd).find? fun e => e.code = code

def containsKey (slot : Int32) : Bool := s.skills.any fun e => e.1 = slot

def insert (slot : Int32) (entry : SkillEntry) : SkillSlots :=
  { s with skills := LastWins.insertLast Prod.fst s.skills (slot, entry) }

def remove (slot : Int32) : SkillSlots := { s with skills := s.skills.filter fun e => e.1 ≠ slot }

end SkillSlots

def defaultSkills : SkillSlots where
  skills := [(0, ⟨"m", 1, 0⟩), (1, ⟨"d", 1, 0⟩), (2, ⟨"M", 1, 0⟩), (3, ⟨"l", 1, 0⟩)]
  totalSlots := 20

/-! ### The old format -/

structure SkillState where
  level : Int32
  exp : UInt32
  deriving DecidableEq

/-- The skills of a row of the old format, in any order. -/
structure LegacySkills where
  entries : List (String × SkillState)
  nodup : (entries.map Prod.fst).Nodup

namespace LegacySkills

variable (old : LegacySkills)

/-- All but the entry that counts the slots. -/
def skills : List (String × SkillState) := old.entries.filter fun e => e.1 ≠ "__slots"

def slots : Option Int32 := (LastWins.lastAt Prod.fst old.entries "__slots").map fun e => e.2.level

def entry (e : String × SkillState) : SkillEntry := ⟨e.1, e.2.level, e.2.exp⟩

end LegacySkills

/-- `i32::try_from(i).unwrap_or(0)` -/
def slotOfIndex (i : Nat) : Int32 := if i ≤ 2147483647 then .ofNat i else 0

def migrateOldSkills (old : LegacySkills) : SkillSlots :=
  let total := old.entries.foldl (fun total e => if e.1 = "__slots" then max e.2.level 20 else total) (20 : Int32)
  let entries := old.skills.mergeSort fun a b => decide (a.1 ≤ b.1)
  ⟨LastWins.lastWins Prod.fst (entries.zipIdx.map fun e => (slotOfIndex e.2, LegacySkills.entry e.1)), total⟩

/-! ### The window of the upgrades -/

namespace SkillSlots

variable (s : SkillSlots)

/-- The slot that the window `up:x:y:slot` has selected. -/
def selectedSlot (window : Option String) : Int32 :=
  match window with
  | none => -1
  | some text => (((Text.splitOn text ':')[3]?).bind Text.parseI32).getD (-1)

def handleSkillDelete (window : Option String) (slot : Int32) : SkillSlots :=
  if selectedSlot window < 0 ∨ slot ≠ selectedSlot window ∨ !s.containsKey slot then s else s.remove slot

/-- A skill with a requirement is locked below its level and three more. -/
def canInstallSkill (skill : SkillType) : Bool :=
  (s.find skill.code).isNone && skill.requirements.all fun req =>
    match s.find req.1.code with
    | none => false
    | some e => !decide (e.level - 3 < req.2)

def handleSkillInstall (window : Option String) (code : String) (slot : Int32) : SkillSlots :=
  match SkillType.fromCode code with
  | none => s
  | some skill =>
    if selectedSlot window < 0 ∨ slot ≠ selectedSlot window ∨ s.containsKey slot ∨ s.totalSlots ≤ slot ∨
        (s.find skill.code).isSome ∨ !s.canInstallSkill skill then s
    else s.insert slot ⟨skill.code, 1, 0⟩

def handleBuySlot (creds : Int64) : SkillSlots :=
  if creds ≤ slotCost ∨ maxSkillSlots ≤ s.totalSlots then s else { s with totalSlots := s.totalSlots + 1 }

end SkillSlots

/-! ### The command of the administrators -/

/-- The bits of a float with a value. -/
def finiteExp (x : UInt32) : Bool := decide (x.toNat / 8388608 % 256 ≠ 255)

/-- Neither negative nor not a number, and at most `MAX_ADMIN_SKILL_EXP`; such floats are in the order of their bits. -/
def adminExp (x : UInt32) : Bool := decide (x = 0x80000000 ∨ x ≤ 0x4BA3D709)

structure SkillCommand where
  target : String
  code : String
  level : Int32
  slot : Option Int32
  exp : UInt32

def asksForHelp (arg : String) : Bool :=
  decide (arg.map Char.toLower = "codes" ∨ arg.map Char.toLower = "help")

/-- `parse_skill_command`, where it makes a command that sets a skill. -/
def parseSkillCommand (parseF32 : String → Option UInt32) : List String → Option SkillCommand
  | target :: code :: levelRaw :: rest =>
    if asksForHelp target then none
    else
      ((Text.parseI64 levelRaw).filter fun level => decide (1 ≤ level ∧ level ≤ 2147483647)).bind fun level =>
        let slot : Option (Option Int32) := match rest[0]? with
          | none => some none
          | some raw => ((Text.parseI32 raw).filter fun slot => decide (0 ≤ slot ∧ slot < maxSkillSlots)).map some
        let exp : Option UInt32 := match rest[1]? with
          | none => some 0
          | some raw => (parseF32 raw).filter adminExp
        slot.bind fun slot => exp.map fun exp => ⟨target, code, .ofInt level, slot, exp⟩
  | _ => none

/-- `clamp`, which panics where the bounds are the wrong way round. -/
def clampTo (n low high : Int32) : Option Int32 :=
  if high < low then none else some (if n < low then low else if high < n then high else n)

namespace SkillSlots

variable (s : SkillSlots)

def chooseAdminSkillSlot (code : String) (explicitSlot : Option Int32) : Option Int32 :=
  explicitSlot.or
    (((s.skills.find? fun e => 0 ≤ e.1 ∧ e.1 < maxSkillSlots ∧ e.2.code = code).map Prod.fst).or
      ((clampTo s.totalSlots 0 maxSkillSlots).bind fun total =>
        ((List.range total.toInt.toNat).map Int32.ofNat).find? fun slot => !s.containsKey slot))

/-- A panic, or the skills after the command. -/
def applyAdminSkillSet (skill : SkillType) (level : Int32) (slot : Option Int32) (exp : UInt32) : Option SkillSlots :=
  match s.chooseAdminSkillSlot skill.code slot with
  | none => some s
  | some chosen =>
    (clampTo s.totalSlots (chosen + 1) maxSkillSlots).map fun total =>
      let kept : SkillSlots := ⟨s.skills.filter fun e => e.1 = chosen ∨ e.2.code ≠ skill.code, total⟩
      kept.insert chosen ⟨skill.code, level, exp⟩

def adminSkill (parseF32 : String → Option UInt32) (args : List String) : Option SkillSlots :=
  match parseSkillCommand parseF32 args with
  | none => some s
  | some command =>
    match SkillType.fromCode command.code with
    | none => some s
    | some skill => s.applyAdminSkillSet skill command.level command.slot command.exp

end SkillSlots

inductive SkillEvent
  /-- the player comes in with a row of the old format -/
  | migrate (old : LegacySkills)
  | delete (window : Option String) (slot : Int32)
  | install (window : Option String) (code : String) (slot : Int32)
  | buySlot (creds : Int64)
  | admin (args : List String)

namespace SkillSlots

def step (parseF32 : String → Option UInt32) (s : SkillSlots) : SkillEvent → Option SkillSlots
  | .migrate old => some (migrateOldSkills old)
  | .delete window slot => some (s.handleSkillDelete window slot)
  | .install window code slot => some (s.handleSkillInstall window code slot)
  | .buySlot creds => some (s.handleBuySlot creds)
  | .admin args => s.adminSkill parseF32 args

end SkillSlots

/-! ### The invariant -/

namespace SkillSlots

/-- Each skill has one slot, and each slot in use is one of the slots that the player has. -/
structure Good (s : SkillSlots) : Prop where
  keys : (s.skills.map Prod.fst).Nodup
  codes : (s.skills.map fun e => e.2.code).Nodup
  slots : ∀ e ∈ s.skills, 0 ≤ e.1.toInt ∧ e.1.toInt < s.totalSlots.toInt
  total : s.totalSlots.toInt ≤ 34

structure Sound (s : SkillSlots) : Prop extends s.Good where
  exps : ∀ e ∈ s.skills, finiteExp e.2.exp = true

variable {s t : SkillSlots} {code : String} {slot : Int32} {entry : SkillEntry}

theorem sound_defaultSkills : defaultSkills.Sound where
  keys := by decide
  codes := by decide
  slots := by decide
  total := by decide
  exps := by decide

theorem Sound.mono (h : s.Sound) (hsub : t.skills.Sublist s.skills) (hle : s.totalSlots.toInt ≤ t.totalSlots.toInt)
    (htotal : t.totalSlots.toInt ≤ 34) : t.Sound where
  keys := h.keys.sublist (hsub.map _)
  codes := h.codes.sublist (hsub.map _)
  slots := fun e he => ⟨(h.slots e (hsub.subset he)).1, (h.slots e (hsub.subset he)).2.trans_le hle⟩
  total := htotal
  exps := fun e he => h.exps e (hsub.subset he)

theorem mem_insert {e : Int32 × SkillEntry} :
    e ∈ (s.insert slot entry).skills ↔ e ∈ s.skills ∧ e.1 ≠ slot ∨ e = (slot, entry) := by
  simp [insert, LastWins.insertLast]

theorem Sound.insert (h : s.Sound) (hslot : 0 ≤ slot.toInt ∧ slot.toInt < s.totalSlots.toInt)
    (hfree : ∀ e ∈ s.skills, e.1 ≠ slot → e.2.code ≠ entry.code) (hexp : finiteExp entry.exp = true) :
    (s.insert slot entry).Sound where
  keys := LastWins.nodup_insertLast h.keys
  codes := by
    rw [SkillSlots.insert, LastWins.insertLast, List.map_append, List.map_singleton]
    refine (h.codes.sublist (List.filter_sublist.map _)).append (List.nodup_singleton _) ?_
    rw [List.disjoint_singleton]
    intro hmem
    obtain ⟨e, he, hcode⟩ := List.mem_map.mp hmem
    obtain ⟨he, hne⟩ := List.mem_filter.mp he
    exact hfree e he (of_decide_eq_true hne) hcode
  slots := by
    intro e he
    cases mem_insert.mp he with
    | inl hold => exact h.slots e hold.1
    | inr hnew => exact hnew ▸ hslot
  total := h.total
  exps := by
    intro e he
    cases mem_insert.mp he with
    | inl hold => exact h.exps e hold.1
    | inr hnew => exact hnew ▸ hexp

theorem finiteExp_zero : finiteExp 0 = true := by decide

theorem find_eq_none : s.find code = none ↔ ∀ e ∈ s.skills, e.2.code ≠ code := by
  simp [find, List.find?_eq_none]

theorem Sound.handleSkillDelete (h : s.Sound) (window : Option String) (slot : Int32) :
    (s.handleSkillDelete window slot).Sound := by
  rw [SkillSlots.handleSkillDelete]
  split
  · exact h
  · exact h.mono List.filter_sublist le_rfl h.total

theorem Sound.handleSkillInstall (h : s.Sound) (window : Option String) (code : String) (slot : Int32) :
    (s.handleSkillInstall window code slot).Sound := by
  rw [SkillSlots.handleSkillInstall]
  split
  · exact h
  · rename_i skill _
    split
    · exact h
    · rename_i hok
      simp only [not_or, Bool.not_eq_true, Option.isSome_eq_false_iff, Option.isNone_iff_eq_none] at hok
      obtain ⟨hwindow, hslot, -, htotal, hfind, -⟩ := hok
      have hnonneg : 0 ≤ slot.toInt := by
        rw [not_not.mp hslot]
        exact Int32.le_iff_toInt_le.mp (Int32.not_lt.mp hwindow)
      have hlt : slot.toInt < s.totalSlots.toInt := Int32.lt_iff_toInt_lt.mp (Int32.not_le.mp htotal)
      exact h.insert ⟨hnonneg, hlt⟩ (fun e he _ => find_eq_none.mp hfind e he) finiteExp_zero

theorem toInt_add_one {n : Int32} (h : n.toInt < 34) : (n + 1).toInt = n.toInt + 1 := by
  have hlow := n.le_toInt
  rw [Int32.toInt_add]
  exact Int.bmod_eq_of_le (by simp; omega) (by simp; omega)

theorem Sound.handleBuySlot (h : s.Sound) (creds : Int64) : (s.handleBuySlot creds).Sound := by
  rw [SkillSlots.handleBuySlot]
  split
  · exact h
  · rename_i hok
    have hlt : s.totalSlots.toInt < 34 := Int32.lt_iff_toInt_lt.mp (Int32.not_le.mp (not_or.mp hok).2)
    have hadd := toInt_add_one hlt
    exact h.mono (List.Sublist.refl _) (by simp only [hadd]; omega) (by simp only [hadd]; omega)

theorem finiteExp_of_adminExp {x : UInt32} (h : adminExp x = true) : finiteExp x = true := by
  cases of_decide_eq_true h with
  | inl hzero => exact hzero ▸ rfl
  | inr hle =>
      have hnat : x.toNat ≤ 1269028617 := UInt32.le_iff_toNat_le.mp hle
      exact decide_eq_true (by omega)

/-- A command of which the slot is one of all, and the experience has a value. -/
theorem parseSkillCommand_spec {parseF32 : String → Option UInt32} {args : List String} {c : SkillCommand}
    (h : parseSkillCommand parseF32 args = some c) :
    (∀ slot ∈ c.slot, 0 ≤ slot.toInt ∧ slot.toInt < 34) ∧ finiteExp c.exp = true := by
  rw [parseSkillCommand.eq_def] at h
  split at h
  · rename_i target code levelRaw rest
    split at h
    · cases h
    · obtain ⟨level, -, h⟩ := Option.bind_eq_some_iff.mp h
      obtain ⟨slot, hslot, h⟩ := Option.bind_eq_some_iff.mp h
      obtain ⟨exp, hexp, rfl⟩ := Option.map_eq_some_iff.mp h
      constructor
      · intro n hn
        obtain rfl : slot = some n := hn
        split at hslot
        · cases hslot
        · obtain ⟨m, hm, hmn⟩ := Option.map_eq_some_iff.mp hslot
          obtain rfl := Option.some.inj hmn
          have hrange := of_decide_eq_true (Option.filter_eq_some_iff.mp hm).2
          exact ⟨Int32.le_iff_toInt_le.mp hrange.1, Int32.lt_iff_toInt_lt.mp hrange.2⟩
      · split at hexp
        · exact Option.some.inj hexp ▸ finiteExp_zero
        · exact finiteExp_of_adminExp (Option.filter_eq_some_iff.mp hexp).2
  · cases h

theorem clampTo_spec {n low high : Int32} (h : low.toInt ≤ high.toInt) : ∃ m, clampTo n low high = some m ∧
    low.toInt ≤ m.toInt ∧ m.toInt ≤ high.toInt ∧ (n.toInt ≤ high.toInt → n.toInt ≤ m.toInt) := by
  have hbounds : ¬ high < low := fun hlt => by have := Int32.lt_iff_toInt_lt.mp hlt; omega
  rw [clampTo, if_neg hbounds]
  refine ⟨_, rfl, ?_⟩
  split
  · rename_i hlow
    have := Int32.lt_iff_toInt_lt.mp hlow
    exact ⟨le_rfl, h, fun _ => by omega⟩
  · rename_i hlow
    have hlow := Int32.le_iff_toInt_le.mp (Int32.not_lt.mp hlow)
    split
    · rename_i hhigh
      have := Int32.lt_iff_toInt_lt.mp hhigh
      exact ⟨h, le_rfl, fun _ => by omega⟩
    · rename_i hhigh
      exact ⟨hlow, Int32.le_iff_toInt_le.mp (Int32.not_lt.mp hhigh), fun _ => le_rfl⟩

theorem chooseAdminSkillSlot_spec {explicitSlot : Option Int32} {chosen : Int32}
    (hexplicit : ∀ slot ∈ explicitSlot, 0 ≤ slot.toInt ∧ slot.toInt < 34)
    (h : s.chooseAdminSkillSlot code explicitSlot = some chosen) : 0 ≤ chosen.toInt ∧ chosen.toInt < 34 := by
  rw [chooseAdminSkillSlot, Option.or_eq_some_iff, Option.or_eq_some_iff] at h
  rcases h with hslot | ⟨-, hfound | ⟨-, hfree⟩⟩
  · exact hexplicit chosen hslot
  · obtain ⟨e, he, rfl⟩ := Option.map_eq_some_iff.mp hfound
    have hrange : 0 ≤ e.1 ∧ e.1 < maxSkillSlots ∧ e.2.code = code := by simpa using List.find?_some he
    exact ⟨Int32.le_iff_toInt_le.mp hrange.1, Int32.lt_iff_toInt_lt.mp hrange.2.1⟩
  · obtain ⟨total, htotal, hfind⟩ := Option.bind_eq_some_iff.mp hfree
    obtain ⟨m, hm, -, hle, -⟩ := @clampTo_spec s.totalSlots 0 maxSkillSlots (by decide)
    obtain rfl := Option.some.inj (hm.symm.trans htotal)
    obtain ⟨i, hi, rfl⟩ := List.mem_map.mp (List.mem_of_find?_eq_some hfind)
    have hi := List.mem_range.mp hi
    have hmax : maxSkillSlots.toInt = 34 := rfl
    rw [Int32.toInt_ofNat_of_lt (by omega)]
    omega

theorem applyAdminSkillSet_spec (s : SkillSlots) (skill : SkillType) (level : Int32) {slot : Option Int32} {exp : UInt32}
    (hslot : ∀ n ∈ slot, 0 ≤ n.toInt ∧ n.toInt < 34) (hexp : finiteExp exp = true) :
    ∃ t, s.applyAdminSkillSet skill level slot exp = some t ∧ (s.Sound → t.Sound) := by
  rw [applyAdminSkillSet]
  split
  · exact ⟨s, rfl, id⟩
  · rename_i chosen hchosen
    obtain ⟨hlow, hhigh⟩ := chooseAdminSkillSlot_spec hslot hchosen
    have hnext := toInt_add_one hhigh
    have hmax : maxSkillSlots.toInt = 34 := rfl
    obtain ⟨total, htotal, hchosenLt, hle, hgrows⟩ := @clampTo_spec s.totalSlots (chosen + 1) maxSkillSlots (by omega)
    rw [htotal]
    refine ⟨_, rfl, fun h => ?_⟩
    refine (h.mono List.filter_sublist (hgrows h.total) hle).insert ⟨hlow, by simp only; omega⟩ ?_ hexp
    intro e he hne
    exact (of_decide_eq_true (List.mem_filter.mp he).2).resolve_left hne

theorem adminSkill_spec (s : SkillSlots) (parseF32 : String → Option UInt32) (args : List String) :
    ∃ t, s.adminSkill parseF32 args = some t ∧ (s.Sound → t.Sound) := by
  rw [adminSkill]
  split
  · exact ⟨s, rfl, id⟩
  · rename_i command hcommand
    obtain ⟨hslot, hexp⟩ := parseSkillCommand_spec hcommand
    split
    · exact ⟨s, rfl, id⟩
    · exact s.applyAdminSkillSet_spec _ command.level hslot hexp

end SkillSlots

end OpenMines
