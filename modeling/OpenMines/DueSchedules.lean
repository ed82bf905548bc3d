import OpenMines.Lib.DeadlineMap
import OpenMines.ProgrammatorSchedule

namespace OpenMines

open Lib Lib.Refinement

abbrev HazardDueSchedule := DueSchedule Entity

/-- What a schedule answers; `schedule` answers nothing. -/
inductive DueAnswer
  | scheduled
  | isDue (due : Bool)
  | nextDueAt (dueAt : Option Nat)
  | popDue (due : List (Entity × Nat))
  deriving DecidableEq

/-- How often the entity is popped. -/
def DueAnswer.pops (entity : Entity) : DueAnswer → Nat
  | .popDue due => (due.map Prod.fst).count entity
  | _ => 0

section Hazard

inductive HazardDueOp
  | schedule (entity : Entity) (dueAt : Nat)
  | nextDueAt
  | popDue (now limit : Nat)

namespace HazardDueOp

/-- How often the entity is scheduled. -/
def schedules (entity : Entity) : HazardDueOp → Nat
  | .schedule e _ => if e = entity then 1 else 0
  | _ => 0

/-- On the schedule of the hazards. -/
def apply (s : HazardDueSchedule) : HazardDueOp → DueAnswer × HazardDueSchedule
  | .schedule entity dueAt => (.scheduled, s.scheduleEarliest entity dueAt)
  | .nextDueAt => (.nextDueAt s.nextDueAt.1, s.nextDueAt.2)
  | .popDue now limit => (.popDue (s.popDue now limit).1, (s.popDue now limit).2)

/-- On the map from the entities to their earliest deadlines. -/
noncomputable def applyMap (m : DeadlineMap Entity) : HazardDueOp → DueAnswer × DeadlineMap Entity
  | .schedule entity dueAt => (.scheduled, m.scheduleEarliest entity dueAt)
  | .nextDueAt => (.nextDueAt m.nextDueAt, m)
  | .popDue now limit => (.popDue (m.popDue now limit).1, (m.popDue now limit).2)

theorem apply_represents {s : HazardDueSchedule} {m : DeadlineMap Entity} (op : HazardDueOp)
    (h : s.Represents m) : (apply s op).1 = (applyMap m op).1 ∧ (apply s op).2.Represents (applyMap m op).2 := by
  cases op with
  | schedule entity dueAt => exact ⟨rfl, h.scheduleEarliest entity dueAt⟩
  | nextDueAt => exact ⟨congrArg DueAnswer.nextDueAt h.nextDueAt, h.discardStaleHead⟩
  | popDue now limit => exact ⟨congrArg DueAnswer.popDue h.popDue.1, h.popDue.2⟩

theorem pops_apply_le (entity : Entity) (s : HazardDueSchedule) (op : HazardDueOp) :
    (apply s op).1.pops entity + (apply s op).2.held entity ≤ op.schedules entity + s.held entity := by
  cases op with
  | schedule e dueAt => exact (Nat.zero_add _).le.trans (s.held_scheduleEarliest_le entity e dueAt)
  | nextDueAt => exact le_rfl
  | popDue now limit => exact (s.count_popDue_le entity).trans (Nat.le_add_left _ _)

end HazardDueOp

/-- The heap answers like the map, and pops an entity no more often than it is scheduled. -/
theorem hazardDueSchedule_refines (ops : List HazardDueOp) :
    answers HazardDueOp.apply .empty ops = answers HazardDueOp.applyMap .empty ops ∧
      ∀ entity, ((answers HazardDueOp.apply .empty ops).map (DueAnswer.pops entity)).sum ≤
        (ops.map (HazardDueOp.schedules entity)).sum := by
  refine ⟨answers_eq_of_refines (fun s m op h => op.apply_represents h) DueSchedule.represents_empty ops, ?_⟩
  intro entity
  exact sum_answers_le (fun s => DueSchedule.held s entity) (HazardDueOp.schedules entity) (DueAnswer.pops entity)
    (HazardDueOp.pops_apply_le entity) .empty ops

/-- The earliest of the three deadlines is popped, and the others are gone with it. -/
example : answers HazardDueOp.apply .empty [.schedule 1 20, .schedule 1 10, .schedule 1 30, .nextDueAt, .popDue 10 1,
    .nextDueAt] = [.scheduled, .scheduled, .scheduled, .nextDueAt (some 10), .popDue [(1, 10)], .nextDueAt none] := by
  decide

end Hazard

section Programmator

inductive ProgrammatorDueOp
  | schedule (entity : Entity) (dueAt : Nat)
  | isDue (now : Nat)
  | nextDueAt
  | popDue (now limit : Nat)

namespace ProgrammatorDueOp

def schedules (entity : Entity) : ProgrammatorDueOp → Nat
  | .schedule e _ => if e = entity then 1 else 0
  | _ => 0

def apply (s : ProgrammatorDueSchedule) : ProgrammatorDueOp → DueAnswer × ProgrammatorDueSchedule
  | .schedule entity dueAt => (.scheduled, s.schedule entity dueAt)
  | .isDue now => (.isDue (s.isDue now).1, (s.isDue now).2)
  | .nextDueAt => (.nextDueAt s.nextDueAt.1, s.nextDueAt.2)
  | .popDue now limit => (.popDue (s.popDue now limit).1, (s.popDue now limit).2)

/-- On the map from the entities to their last deadlines. -/
noncomputable def applyMap (m : DeadlineMap Entity) : ProgrammatorDueOp → DueAnswer × DeadlineMap Entity
  | .schedule entity dueAt => (.scheduled, m.schedule entity dueAt)
  | .isDue now => (.isDue (m.isDue now), m)
  | .nextDueAt => (.nextDueAt m.nextDueAt, m)
  | .popDue now limit => (.popDue (m.popDue now limit).1, (m.popDue now limit).2)

theorem apply_represents {s : ProgrammatorDueSchedule} {m : DeadlineMap Entity} (op : ProgrammatorDueOp)
    (h : s.Represents m) : (apply s op).1 = (applyMap m op).1 ∧ (apply s op).2.Represents (applyMap m op).2 := by
  cases op with
  | schedule entity dueAt => exact ⟨rfl, h.schedule entity dueAt⟩
  | isDue now => exact ⟨congrArg DueAnswer.isDue h.isDue, h.discardStaleHead⟩
  | nextDueAt => exact ⟨congrArg DueAnswer.nextDueAt h.nextDueAt, h.discardStaleHead⟩
  | popDue now limit => exact ⟨congrArg DueAnswer.popDue h.popDue.1, h.popDue.2⟩

theorem pops_apply_le (entity : Entity) (s : ProgrammatorDueSchedule) (op : ProgrammatorDueOp) :
    (apply s op).1.pops entity + (apply s op).2.held entity ≤ op.schedules entity + s.held entity := by
  cases op with
  | schedule e dueAt => exact (Nat.zero_add _).le.trans (s.held_schedule_le entity e dueAt)
  | isDue now => exact le_rfl
  | nextDueAt => exact le_rfl
  | popDue now limit => exact (s.count_popDue_le entity).trans (Nat.le_add_left _ _)

end ProgrammatorDueOp

theorem programmatorDueSchedule_refines (ops : List ProgrammatorDueOp) :
    answers ProgrammatorDueOp.apply .empty ops = answers ProgrammatorDueOp.applyMap .empty ops ∧
      ∀ entity, ((answers ProgrammatorDueOp.apply .empty ops).map (DueAnswer.pops entity)).sum ≤
        (ops.map (ProgrammatorDueOp.schedules entity)).sum := by
  refine ⟨answers_eq_of_refines (fun s m op h => op.apply_represents h) DueSchedule.represents_empty ops, ?_⟩
  intro entity
  exact sum_answers_le (fun s => DueSchedule.held s entity) (ProgrammatorDueOp.schedules entity)
    (DueAnswer.pops entity) (ProgrammatorDueOp.pops_apply_le entity) .empty ops

end Programmator

end OpenMines
