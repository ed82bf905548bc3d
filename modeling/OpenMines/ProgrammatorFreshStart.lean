import OpenMines.ProgrammatorPanics

namespace OpenMines

open Lib.CheckedInt

namespace ProgrammatorState

variable {codec : ProgramCodec} {s t : ProgrammatorState} {data : Source} {now : Nat}

/-- All of the state of a program but its times. -/
def control (s : ProgrammatorState) : ProgrammatorState := { s with delay := 0, startedAt := 0 }

/-- The control state that a start makes of a text, and of the one field that it does not write. -/
def started (parsed : Option (Functions × List String)) (macrosTemplate : Option Int32) : ProgrammatorState :=
  match parsed with
  | some (functions, order) =>
      { new 0 with running := true, currentProg := functions.resetAll, functionOrder := order, macrosTemplate }
  | none => { new 0 with macrosTemplate }

/-- What a start reads. -/
def parse (codec : ProgramCodec) (data : Source) : Checked (Option (Functions × List String)) :=
  if data.chars.head? = some '$' then parseText data.chars else parseNormal codec data.chars

theorem runProgram_control (codec : ProgramCodec) (s : ProgrammatorState) (data : Source) (now : Nat) :
    (s.runProgram codec data now).map control = (parse codec data).map fun parsed => started parsed s.macrosTemplate := by
  by_cases hhead : data.chars.head? = some '$'
  · rw [parse, runProgram, if_pos hhead, if_pos hhead]
    cases parseText data.chars with
    | none => rfl
    | some parsed => cases parsed <;> rfl
  · rw [parse, runProgram, if_neg hhead, if_neg hhead]
    cases parseNormal codec data.chars with
    | none => rfl
    | some parsed => cases parsed <;> rfl

theorem isSome_parse : (parse codec data).isSome ↔ ProgramSafe codec data.chars := by
  rw [← isSome_runProgram (s := new 0) 0]
  have hcontrol := congrArg Option.isSome (runProgram_control codec (new 0) data 0)
  rw [Option.isSome_map, Option.isSome_map] at hcontrol
  rw [hcontrol]

theorem started_macrosTemplate (parsed : Option (Functions × List String)) (macrosTemplate : Option Int32) :
    (started parsed macrosTemplate).macrosTemplate = macrosTemplate := by
  cases parsed <;> rfl

/-- Two states in which the same text is started are the same from then on just where the template of the macros is. -/
theorem runProgram_independent_iff (s₁ s₂ : ProgrammatorState) (now₁ now₂ : Nat) :
    (s₁.runProgram codec data now₁).map control = (s₂.runProgram codec data now₂).map control ↔
      (ProgramSafe codec data.chars → s₁.macrosTemplate = s₂.macrosTemplate) := by
  rw [runProgram_control, runProgram_control, ← isSome_parse]
  cases parse codec data with
  | none => exact iff_of_true rfl nofun
  | some parsed =>
      rw [Option.map_some, Option.map_some, Option.some_inj, Option.isSome_some, imp_iff_right rfl]
      constructor
      · intro hsame
        rw [← started_macrosTemplate parsed s₁.macrosTemplate, hsame, started_macrosTemplate]
      · intro hsame
        rw [hsame]

section Leak

def mineText : Source := ⟨"$MINE;".toList, by decide⟩

/-- A player that looks up, at a world with crystals where it says. -/
def besideCrystals (crystals : List (Int × Int)) (now : Nat) : ProgrammatorContext :=
  { Programmators.idlePlayer with
    pos := ⟨100, 100, 2⟩
    world := ⟨⟨1024, 1024, fun p => if crystals.contains p then 71 else 0, fun _ => 0, fun _ => 0⟩,
      Programmators.idlePlayer.world.cellDefs⟩
    now }

/-- The state of a player whose program has mined the crystal above it. -/
def hasMined : Checked ProgrammatorState := do
  let ready ← (new 0).runProgram Programmators.noCodec mineText 0
  return (← programmatorSystem ready (besideCrystals [(100, 99)] 0) 0).prog

/-- Whether the first step of the program digs. -/
def digsFirst (s : ProgrammatorState) : Checked Bool := do
  let ready ← s.runProgram Programmators.noCodec mineText 1000
  let ticked ← programmatorSystem ready (besideCrystals [(100, 101), (100, 99)] 1000) 1000
  return ticked.queue.any fun action => match action with | .dig .. => true | _ => false

/-- The program that ran before decides what the same text does first in the same world. -/
theorem earlier_program_leaks :
    (∃ s, hasMined = some s ∧ (s.runProgram Programmators.noCodec mineText 1000).map control ≠
      ((new 0).runProgram Programmators.noCodec mineText 1000).map control ∧ digsFirst s = some true) ∧
    digsFirst (new 0) = some false := by
  have hmined : hasMined.map macrosTemplate = some (some 2) := by decide
  have hdigs : hasMined.bind digsFirst = some true := by decide
  obtain ⟨s, hs, htemplate⟩ := Option.map_eq_some_iff.mp hmined
  rw [hs, Option.bind_some] at hdigs
  refine ⟨⟨s, hs, fun hsame => ?_, hdigs⟩, by decide⟩
  rw [runProgram_control, runProgram_control, htemplate] at hsame
  have hparsed : (parse Programmators.noCodec mineText).isSome := by decide
  obtain ⟨parsed, hparsed⟩ := Option.isSome_iff_exists.mp hparsed
  rw [hparsed, Option.map_some, Option.map_some, Option.some_inj] at hsame
  have hkept := congrArg macrosTemplate hsame
  rw [started_macrosTemplate, started_macrosTemplate] at hkept
  cases hkept

end Leak

end ProgrammatorState

end OpenMines
