import OpenMines.Lib.Run
import OpenMines.ProgrammatorSafety

namespace OpenMines

open Lib.CheckedInt Lib.Run

namespace Programmators

variable (codec : ProgramCodec)

/-- The condition on an event in the state before it. -/
def Safe (s : Programmators) : ProgrammatorEvent → Prop
  | .packet payload => PacketSafe payload
  | .run entity data _ => (s.states entity).isSome → ProgramSafe codec data.chars
  | .due entity dueAt ctx => ∀ prog, s.states entity = some prog → DueSafe prog ctx dueAt
  | .connect .. | .stop .. | .clear .. | .death .. => True

theorem isSome_step (s : Programmators) (e : ProgrammatorEvent) : (step codec s e).isSome ↔ Safe codec s e := by
  cases e with
  | packet payload =>
      rw [Safe, ← isSome_decodeProgPacket, step]
      cases decodeProgPacket payload <;> simp
  | run entity data now =>
      rw [Safe, step]
      cases hprog : s.states entity with
      | none => simp
      | some prog =>
          rw [Option.isSome_some, imp_iff_right rfl,
            ← ProgrammatorState.isSome_runProgram (s := prog) now]
          cases hrun : prog.runProgram codec data now <;> simp [hrun]
  | due entity dueAt ctx =>
      rw [Safe, step]
      cases hprog : s.states entity with
      | none => simp
      | some prog =>
          simp only [Option.some.injEq, forall_eq']
          rw [← isSome_programmatorSystem]
          cases hticked : programmatorSystem prog ctx dueAt <;> simp
  | connect | stop | clear | death => exact iff_of_true rfl trivial

/-- A run of the programs of all players ends without a panic just where every event meets its condition. -/
theorem no_panic_iff (s : Programmators) (es : List ProgrammatorEvent) :
    (run (step codec) s es).isSome ↔ Meets (step codec) (Safe codec) s es :=
  isSome_run_iff_meets (isSome_step codec) s es

def noCodec : ProgramCodec := ⟨fun _ => none, fun _ => none⟩

def noPrograms : Programmators := ⟨fun _ => none, [], [], []⟩

/-- A variable gets the least number and is divided by minus one. -/
def leastNumber : Source := ⟨"$(A=-2147483648)(DIV=-1)".toList, by decide⟩

def idlePlayer : ProgrammatorContext where
  player := 1
  session := some 1
  pos := ⟨100, 100, 0⟩
  health := 100
  maxHealth := 100
  crystals := Vector.replicate 6 0
  autoDig := false
  aggression := false
  geoCount := 0
  world := ⟨⟨1024, 1024, fun _ => 0, fun _ => 0, fun _ => 0⟩, fun _ => ⟨true, false, false, false⟩⟩
  pauseUnits := 7000
  pauseUnits_le := by decide
  directActionDelayUs := 333333
  minMoveDelayMs := 20
  randomDir := 0
  randomValue := 0
  now := 0

/-- A packet whose header has a negative length, and a program of two actions. -/
theorem panics : run (step noCodec) noPrograms [.packet [255, 255, 255, 255, 1, 0, 0, 0]] = none ∧
    run (step noCodec) noPrograms
      [.connect 0 0 none, .run 0 leastNumber 0, .due 0 0 idlePlayer, .due 0 0 idlePlayer] = none := by
  have hpacket : (run (step noCodec) noPrograms [.packet [255, 255, 255, 255, 1, 0, 0, 0]]).isNone = true := by
    decide
  have hprogram : (run (step noCodec) noPrograms
      [.connect 0 0 none, .run 0 leastNumber 0, .due 0 0 idlePlayer, .due 0 0 idlePlayer]).isNone = true := by
    decide
  exact ⟨Option.isNone_iff_eq_none.mp hpacket, Option.isNone_iff_eq_none.mp hprogram⟩

end Programmators

end OpenMines
