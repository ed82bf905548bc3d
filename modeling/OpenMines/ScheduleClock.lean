import Mathlib.Data.List.Basic
import Mathlib.Order.Bounds.Basic
import Mathlib.Order.Lattice.Nat

namespace OpenMines

inductive ScheduleActivity
  | always
  | onlinePlayers
  | dueCrafting
  | dueGuns
  | dueProgrammator
  | dueHazards
  | activeGranular
  | activeAlive
  deriving DecidableEq

/-- Instants and durations are numbers of nanoseconds. -/
structure ScheduleWorkload where
  onlineCount : Nat
  craftingDue : Bool
  gunsDue : Bool
  programmatorDue : Bool
  hazardDueAt : Option Nat
  granularWorkAt : Option Nat
  aliveWorkAt : Option Nat

structure ScheduleCandidate where
  activity : ScheduleActivity
  interval : Nat

/-- A schedule whose interval is zero is switched off. -/
def configuredCandidate (schedules : List (ScheduleActivity × UInt64)) (index : Nat) : Option ScheduleCandidate :=
  schedules[index]?.bind fun schedule =>
    if schedule.2 ≠ 0 then some ⟨schedule.1, schedule.2.toNat * 1000000⟩ else none

def scheduleDueButIdle (workload : ScheduleWorkload) : ScheduleActivity → Bool
  | .always => false
  | .onlinePlayers => workload.onlineCount = 0
  | .dueCrafting => !workload.craftingDue
  | .dueGuns => !workload.gunsDue
  | .dueProgrammator => !workload.programmatorDue
  | .dueHazards => workload.hazardDueAt.isNone
  | .activeGranular => workload.granularWorkAt.isNone
  | .activeAlive => workload.aliveWorkAt.isNone

/-- The activities that have a queue of their own, and no interval. -/
def ScheduleActivity.hasQueue (activity : ScheduleActivity) : Bool :=
  activity = .dueCrafting || activity = .dueGuns || activity = .dueProgrammator || activity = .dueHazards

def ScheduleActivity.queueDue (activity : ScheduleActivity) (workload : ScheduleWorkload) : Bool :=
  (activity = .dueCrafting && workload.craftingDue) || (activity = .dueGuns && workload.gunsDue) ||
    (activity = .dueProgrammator && workload.programmatorDue) ||
    (activity = .dueHazards && workload.hazardDueAt.isSome)

/-- The activities that rest at once when there is no work. -/
def ScheduleActivity.resting (activity : ScheduleActivity) (workload : ScheduleWorkload) : Bool :=
  (activity = .activeGranular || activity = .activeAlive) &&
    ((activity = .activeGranular && workload.granularWorkAt.isNone) ||
      (activity = .activeAlive && workload.aliveWorkAt.isNone))

structure ScheduleClock where
  lastRuns : List Nat
  deriving DecidableEq

namespace ScheduleClock

section Definitions

variable (clock : ScheduleClock)

def resize (len now : Nat) : ScheduleClock :=
  ⟨clock.lastRuns.take len ++ List.replicate (len - clock.lastRuns.length) now⟩

def syncLen (len now : Nat) : ScheduleClock := clock.resize len now

def lastRun (idx : Nat) : Nat := clock.lastRuns.getD idx 0

/-- The clock reaches as far as the index. -/
def lastRunMut (idx now : Nat) : ScheduleClock :=
  if clock.lastRuns.length ≤ idx then clock.resize (idx + 1) now else clock

def setLastRun (idx now : Nat) : ScheduleClock := ⟨(clock.lastRunMut idx now).lastRuns.set idx now⟩

/-- The round of `select_due` for one index. -/
def selectOne (now : Nat) (workload : ScheduleWorkload) (candidateAt : Nat → Option ScheduleCandidate)
    (acc : List Nat × ScheduleClock) (idx : Nat) : List Nat × ScheduleClock :=
  match candidateAt idx with
  | none => acc
  | some schedule =>
      if schedule.activity.hasQueue then
        if schedule.activity.queueDue workload then (acc.1 ++ [idx], acc.2) else acc
      else if schedule.activity.resting workload then (acc.1, acc.2.setLastRun idx now)
      else
        let clock := acc.2.lastRunMut idx now
        if now - clock.lastRun idx < schedule.interval then (acc.1, clock)
        else if scheduleDueButIdle workload schedule.activity then (acc.1, clock.setLastRun idx now)
        else (acc.1 ++ [idx], clock)

def selectDue (totalLen now : Nat) (workload : ScheduleWorkload) (candidateAt : Nat → Option ScheduleCandidate) :
    List Nat × ScheduleClock :=
  (List.range totalLen).foldl (selectOne now workload candidateAt) ([], clock.syncLen totalLen now)

/-- The sum, unless it is past the last instant. -/
def checkedAdd (last instant duration : Nat) : Option Nat :=
  if instant + duration ≤ last then some (instant + duration) else none

/-- The loop of `next_deadline`; it ends at the first index that is due now. -/
def nextFrom (last now : Nat) (workload : ScheduleWorkload) (candidateAt : Nat → Option ScheduleCandidate) :
    List Nat → ScheduleClock → Option Nat → Option Nat × ScheduleClock
  | [], clock, next => (next, clock)
  | idx :: idxs, clock, next =>
      match candidateAt idx with
      | none => nextFrom last now workload candidateAt idxs clock next
      | some schedule =>
          if schedule.activity.hasQueue then
            if schedule.activity.queueDue workload then (some now, clock)
            else nextFrom last now workload candidateAt idxs clock next
          else if schedule.activity.resting workload then
            nextFrom last now workload candidateAt idxs (clock.setLastRun idx now) next
          else
            let clock := clock.lastRunMut idx now
            if scheduleDueButIdle workload schedule.activity then
              nextFrom last now workload candidateAt idxs (clock.setLastRun idx now) next
            else
              let deadline := (checkedAdd last (clock.lastRun idx) schedule.interval).getD now
              nextFrom last now workload candidateAt idxs clock (some (next.elim deadline fun d => min d deadline))

def nextDeadline (last totalLen now : Nat) (workload : ScheduleWorkload)
    (candidateAt : Nat → Option ScheduleCandidate) : Option Nat × ScheduleClock :=
  nextFrom last now workload candidateAt (List.range totalLen) (clock.syncLen totalLen now) none

end Definitions

end ScheduleClock

structure WaitInputs where
  commandReady : Bool
  completionReady : Bool
  persistenceBacklogReady : Bool
  dueDeadline : Option Nat
  scheduleDeadline : Option Nat
  botsRenderDeadline : Option Nat
  playerFlushDeadline : Option Nat
  buildingFlushDeadline : Option Nat

inductive WaitPlan
  | immediate
  | untilInstant (deadline : Nat)
  | indefinite
  deriving DecidableEq

def WaitInputs.deadlines (inputs : WaitInputs) : List Nat :=
  [inputs.dueDeadline, inputs.scheduleDeadline, inputs.botsRenderDeadline, inputs.playerFlushDeadline,
    inputs.buildingFlushDeadline].filterMap id

def planWait (now : Nat) (inputs : WaitInputs) : WaitPlan :=
  if inputs.commandReady || inputs.completionReady || inputs.persistenceBacklogReady then .immediate
  else
    match inputs.deadlines.min? with
    | some deadline => if deadline ≤ now then .immediate else .untilInstant deadline
    | none => .indefinite

def earlierDeadline (scheduleDeadline queueDeadline : Option Nat) : Option Nat :=
  match queueDeadline with
  | some deadline => some (scheduleDeadline.elim deadline fun d => min d deadline)
  | none => scheduleDeadline

/-- The end of `next_wait_plan`: the schedules wait no longer than for the queues of the crafting, of the programs
and of the hazards. -/
def nextWaitPlan (now : Nat) (inputs : WaitInputs) (scheduleDeadline craftingDeadline programmatorDueAt
    hazardDueAt : Option Nat) : WaitPlan :=
  planWait now { inputs with
    scheduleDeadline := earlierDeadline (earlierDeadline (earlierDeadline scheduleDeadline craftingDeadline)
      (programmatorDueAt.filter (now < ·))) (hazardDueAt.filter (now < ·)) }

section Wait

variable {now deadline : Nat} {inputs : WaitInputs} {scheduleDeadline queueDeadline : Option Nat}

theorem WaitInputs.mem_deadlines {d : Nat} : d ∈ inputs.deadlines ↔
    d ∈ inputs.dueDeadline ∨ d ∈ inputs.scheduleDeadline ∨ d ∈ inputs.botsRenderDeadline ∨
      d ∈ inputs.playerFlushDeadline ∨ d ∈ inputs.buildingFlushDeadline := by
  simp [deadlines, eq_comm]

theorem planWait_eq_untilInstant (h : planWait now inputs = .untilInstant deadline) :
    now < deadline ∧ ∀ d ∈ inputs.deadlines, deadline ≤ d := by
  rw [planWait] at h
  split at h
  · cases h
  · split at h
    · rename_i d hmin
      split at h
      · cases h
      · rename_i hlater
        cases h
        exact ⟨Nat.lt_of_not_le hlater, (List.min?_eq_some_iff.mp hmin).2⟩
    · cases h

theorem planWait_eq_indefinite (h : planWait now inputs = .indefinite) : inputs.deadlines = [] := by
  rw [planWait] at h
  split at h
  · cases h
  · split at h
    · split at h
      · cases h
      · cases h
    · rename_i hnone
      exact List.min?_eq_none_iff.mp hnone

theorem planWait_eq_immediate (h : planWait now inputs = .immediate) :
    (inputs.commandReady || inputs.completionReady || inputs.persistenceBacklogReady) = true ∨
      ∃ d ∈ inputs.deadlines, d ≤ now := by
  rw [planWait] at h
  split at h
  · rename_i hready
    exact .inl hready
  · split at h
    · rename_i d hmin
      split at h
      · rename_i hle
        exact .inr ⟨d, (List.min?_eq_some_iff.mp hmin).1, hle⟩
      · cases h
    · cases h

theorem mem_earlierDeadline {d : Nat} (h : d ∈ earlierDeadline scheduleDeadline queueDeadline) :
    d ∈ scheduleDeadline ∨ d ∈ queueDeadline := by
  cases queueDeadline with
  | none => exact .inl h
  | some q =>
      cases scheduleDeadline with
      | none => exact .inr h
      | some e =>
          obtain rfl : min e q = d := Option.some.inj h
          rcases min_choice e q with he | hq
          · exact .inl (congrArg some he.symm)
          · exact .inr (congrArg some hq.symm)

theorem exists_earlierDeadline_le {d : Nat} (h : d ∈ scheduleDeadline) (queueDeadline : Option Nat) :
    ∃ e ∈ earlierDeadline scheduleDeadline queueDeadline, e ≤ d := by
  cases queueDeadline with
  | none => exact ⟨d, h, le_rfl⟩
  | some q =>
      obtain rfl : scheduleDeadline = some d := h
      exact ⟨min d q, rfl, min_le_left d q⟩

end Wait

namespace ScheduleClock

variable {last now idx : Nat} {workload : ScheduleWorkload} {candidateAt : Nat → Option ScheduleCandidate}
  {clock clock' clock'' : ScheduleClock} {schedule : ScheduleCandidate}

/-- The candidate has an interval, and there is work for it. -/
def Waits (workload : ScheduleWorkload) (schedule : ScheduleCandidate) : Prop :=
  schedule.activity.hasQueue = false ∧ scheduleDueButIdle workload schedule.activity = false

instance : Decidable (Waits workload schedule) := inferInstanceAs (Decidable (_ ∧ _))

/-- The candidate has a queue of its own, which is due. -/
def Ready (workload : ScheduleWorkload) (schedule : ScheduleCandidate) : Prop :=
  schedule.activity.hasQueue = true ∧ schedule.activity.queueDue workload = true

/-- The clock selects the schedule. -/
def Selected (now : Nat) (workload : ScheduleWorkload) (candidateAt : Nat → Option ScheduleCandidate)
    (clock : ScheduleClock) (idx : Nat) : Prop :=
  ∃ schedule, candidateAt idx = some schedule ∧ (Ready workload schedule ∨
    Waits workload schedule ∧ schedule.interval ≤ now - clock.lastRun idx)

/-- The candidates that wait keep their last runs. -/
structure Keeps (workload : ScheduleWorkload) (candidateAt : Nat → Option ScheduleCandidate)
    (clock clock' : ScheduleClock) : Prop where
  length : clock'.lastRuns.length = clock.lastRuns.length
  lastRun : ∀ idx schedule, candidateAt idx = some schedule → Waits workload schedule →
    clock'.lastRun idx = clock.lastRun idx

theorem Keeps.refl (clock : ScheduleClock) : Keeps workload candidateAt clock clock :=
  ⟨rfl, fun _ _ _ _ => rfl⟩

theorem Keeps.trans (h : Keeps workload candidateAt clock clock') (h' : Keeps workload candidateAt clock' clock'') :
    Keeps workload candidateAt clock clock'' where
  length := h'.length.trans h.length
  lastRun idx schedule hidx hwaits :=
    (h'.lastRun idx schedule hidx hwaits).trans (h.lastRun idx schedule hidx hwaits)

theorem Keeps.selected_iff (h : Keeps workload candidateAt clock clock') (now idx : Nat) :
    Selected now workload candidateAt clock' idx ↔ Selected now workload candidateAt clock idx := by
  apply exists_congr
  intro schedule
  apply and_congr_right
  intro hidx
  apply or_congr_right
  apply and_congr_right
  intro hwaits
  rw [h.lastRun idx schedule hidx hwaits]

theorem lastRunMut_eq (hidx : idx < clock.lastRuns.length) (now : Nat) : clock.lastRunMut idx now = clock :=
  if_neg (Nat.not_le_of_lt hidx)

theorem keeps_setLastRun (hidx : idx < clock.lastRuns.length) (now : Nat)
    (hrests : ∀ schedule, candidateAt idx = some schedule → ¬ Waits workload schedule) :
    Keeps workload candidateAt clock (clock.setLastRun idx now) := by
  rw [setLastRun, lastRunMut_eq hidx]
  refine ⟨List.length_set, fun j schedule hj hwaits => ?_⟩
  have hne : idx ≠ j := by
    rintro rfl
    exact hrests schedule hj hwaits
  show (clock.lastRuns.set idx now).getD j 0 = clock.lastRuns.getD j 0
  rw [List.getD_eq_getElem?_getD, List.getD_eq_getElem?_getD, List.getElem?_set_ne hne]

theorem idle_of_resting (h : schedule.activity.resting workload = true) :
    scheduleDueButIdle workload schedule.activity = true := by
  cases hactivity : schedule.activity <;> rw [hactivity] at h <;>
    simp_all [ScheduleActivity.resting, scheduleDueButIdle]

theorem length_syncLen (clock : ScheduleClock) (len now : Nat) :
    (clock.syncLen len now).lastRuns.length = len := by
  rw [syncLen, resize, List.length_append, List.length_take, List.length_replicate]
  omega

variable (now workload candidateAt) in
theorem selectOne_spec (hidx : idx < clock.lastRuns.length) (due : List Nat) :
    (∀ j, j ∈ (selectOne now workload candidateAt (due, clock) idx).1 ↔
      j ∈ due ∨ j = idx ∧ Selected now workload candidateAt clock idx) ∧
    Keeps workload candidateAt clock (selectOne now workload candidateAt (due, clock) idx).2 := by
  have hkept (h : ¬ Selected now workload candidateAt clock idx) (j : Nat) :
      j ∈ due ↔ j ∈ due ∨ j = idx ∧ Selected now workload candidateAt clock idx := by
    simp [h]
  have htaken (h : Selected now workload candidateAt clock idx) (j : Nat) :
      j ∈ due ++ [idx] ↔ j ∈ due ∨ j = idx ∧ Selected now workload candidateAt clock idx := by
    simp [h]
  cases hcandidate : candidateAt idx with
  | none =>
      have hnot : ¬ Selected now workload candidateAt clock idx := by
        rintro ⟨schedule, hschedule, -⟩
        rw [hcandidate] at hschedule
        cases hschedule
      rw [selectOne, hcandidate]
      exact ⟨hkept hnot, .refl clock⟩
  | some schedule =>
      have hselected : Selected now workload candidateAt clock idx ↔ Ready workload schedule ∨
          Waits workload schedule ∧ schedule.interval ≤ now - clock.lastRun idx := by
        constructor
        · rintro ⟨schedule', hschedule, h⟩
          obtain rfl := Option.some.inj (hcandidate.symm.trans hschedule)
          exact h
        · exact fun h => ⟨schedule, hcandidate, h⟩
      have hrests (hidle : scheduleDueButIdle workload schedule.activity = true) (schedule' : ScheduleCandidate)
          (hschedule : candidateAt idx = some schedule') : ¬ Waits workload schedule' := by
        obtain rfl := Option.some.inj (hcandidate.symm.trans hschedule)
        intro hwaits
        exact absurd (hidle.symm.trans hwaits.2) (by decide)
      rw [selectOne, hcandidate]
      dsimp only
      rw [lastRunMut_eq hidx]
      by_cases hqueue : schedule.activity.hasQueue = true
      · rw [if_pos hqueue]
        have hnot : ¬ Waits workload schedule := fun hwaits => absurd (hqueue.symm.trans hwaits.1) (by decide)
        by_cases hdue : schedule.activity.queueDue workload = true
        · rw [if_pos hdue]
          exact ⟨htaken (hselected.mpr (.inl ⟨hqueue, hdue⟩)), .refl clock⟩
        · rw [if_neg hdue]
          refine ⟨hkept fun h => ?_, .refl clock⟩
          rcases hselected.mp h with hready | hwaits
          · exact hdue hready.2
          · exact hnot hwaits.1
      · rw [if_neg hqueue]
        have hready : ¬ Ready workload schedule := fun h => hqueue h.1
        have hwaits (hidle : ¬ scheduleDueButIdle workload schedule.activity = true) : Waits workload schedule :=
          ⟨Bool.eq_false_iff.mpr hqueue, Bool.eq_false_iff.mpr hidle⟩
        have hidleNot (hidle : scheduleDueButIdle workload schedule.activity = true) :
            ¬ Selected now workload candidateAt clock idx := fun h =>
          (hselected.mp h).elim hready fun h => hrests hidle schedule hcandidate h.1
        by_cases hresting : schedule.activity.resting workload = true
        · rw [if_pos hresting]
          have hidle := idle_of_resting hresting
          exact ⟨hkept (hidleNot hidle), keeps_setLastRun hidx now (hrests hidle)⟩
        · rw [if_neg hresting]
          by_cases hearly : now - clock.lastRun idx < schedule.interval
          · rw [if_pos hearly]
            refine ⟨hkept fun h => ?_, .refl clock⟩
            rcases hselected.mp h with h | h
            · exact hready h
            · exact absurd h.2 (Nat.not_le_of_lt hearly)
          · rw [if_neg hearly]
            by_cases hidle : scheduleDueButIdle workload schedule.activity = true
            · rw [if_pos hidle]
              exact ⟨hkept (hidleNot hidle), keeps_setLastRun hidx now (hrests hidle)⟩
            · rw [if_neg hidle]
              exact ⟨htaken (hselected.mpr (.inr ⟨hwaits hidle, Nat.le_of_not_lt hearly⟩)), .refl clock⟩

theorem mem_range_syncLen (clock : ScheduleClock) (len now : Nat) :
    ∀ idx ∈ List.range len, idx < (clock.syncLen len now).lastRuns.length := by
  intro idx hidx
  rw [length_syncLen]
  exact List.mem_range.mp hidx

variable (now workload candidateAt) in
theorem foldl_selectOne {idxs : List Nat} (hidxs : ∀ idx ∈ idxs, idx < clock.lastRuns.length) (due : List Nat) :
    (∀ j, j ∈ (idxs.foldl (selectOne now workload candidateAt) (due, clock)).1 ↔
      j ∈ due ∨ j ∈ idxs ∧ Selected now workload candidateAt clock j) ∧
    Keeps workload candidateAt clock (idxs.foldl (selectOne now workload candidateAt) (due, clock)).2 := by
  induction idxs generalizing clock due with
  | nil => exact ⟨fun j => by simp, .refl clock⟩
  | cons idx idxs ih =>
      obtain ⟨hidx, hrest⟩ := List.forall_mem_cons.mp hidxs
      obtain ⟨hmem, hkeeps⟩ := selectOne_spec now workload candidateAt hidx due
      rw [List.foldl_cons]
      generalize selectOne now workload candidateAt (due, clock) idx = r at hmem hkeeps
      obtain ⟨hmemRest, hkeepsRest⟩ := ih (fun j hj => hkeeps.length.symm ▸ hrest j hj) r.1
      refine ⟨fun j => ?_, hkeeps.trans hkeepsRest⟩
      have hsame : (j = idx ∧ Selected now workload candidateAt clock idx) ↔
          (j = idx ∧ Selected now workload candidateAt clock j) :=
        and_congr_right fun hj => by rw [hj]
      rw [hmemRest j, hmem j, hkeeps.selected_iff now j, List.mem_cons, or_assoc, or_and_right, hsame]

/-- What is selected, and what the clock keeps. -/
theorem selectDue_spec (clock : ScheduleClock) (totalLen now : Nat) (workload : ScheduleWorkload)
    (candidateAt : Nat → Option ScheduleCandidate) :
    (∀ j, j ∈ (clock.selectDue totalLen now workload candidateAt).1 ↔
      j < totalLen ∧ Selected now workload candidateAt (clock.syncLen totalLen now) j) ∧
    Keeps workload candidateAt (clock.syncLen totalLen now)
      (clock.selectDue totalLen now workload candidateAt).2 := by
  obtain ⟨hmem, hkeeps⟩ := foldl_selectOne now workload candidateAt (mem_range_syncLen clock totalLen now) []
  refine ⟨fun j => (hmem j).trans ?_, hkeeps⟩
  rw [List.mem_range]
  exact or_iff_right List.not_mem_nil

/-- When the interval of a candidate that waits is over. -/
def deadline (last now : Nat) (clock : ScheduleClock) (idx : Nat) (schedule : ScheduleCandidate) : Nat :=
  (checkedAdd last (clock.lastRun idx) schedule.interval).getD now

/-- The deadlines of the candidates that wait. -/
def Deadlines (last now : Nat) (workload : ScheduleWorkload) (candidateAt : Nat → Option ScheduleCandidate)
    (clock : ScheduleClock) (idxs : List Nat) : Set Nat :=
  {d | ∃ idx ∈ idxs, ∃ schedule, candidateAt idx = some schedule ∧ Waits workload schedule ∧
    clock.deadline last now idx schedule = d}

/-- What the loop of `next_deadline` comes to. -/
inductive NextCases (last now : Nat) (workload : ScheduleWorkload) (candidateAt : Nat → Option ScheduleCandidate)
    (idxs : List Nat) (clock : ScheduleClock) (next : Option Nat) : Option Nat → Prop
  | ready (idx : Nat) (hidx : idx ∈ idxs) (schedule : ScheduleCandidate) (hschedule : candidateAt idx = some schedule)
      (h : Ready workload schedule) : NextCases last now workload candidateAt idxs clock next (some now)
  | least (hready : ∀ idx ∈ idxs, ∀ schedule, candidateAt idx = some schedule → ¬ Ready workload schedule) (d : Nat)
      (h : IsLeast ({d | next = some d} ∪ Deadlines last now workload candidateAt clock idxs) d) :
      NextCases last now workload candidateAt idxs clock next (some d)
  | never (hready : ∀ idx ∈ idxs, ∀ schedule, candidateAt idx = some schedule → ¬ Ready workload schedule)
      (h : {d | next = some d} ∪ Deadlines last now workload candidateAt clock idxs = ∅) :
      NextCases last now workload candidateAt idxs clock next none

theorem Keeps.deadlines_eq (h : Keeps workload candidateAt clock clock') (last now : Nat) (idxs : List Nat) :
    Deadlines last now workload candidateAt clock' idxs = Deadlines last now workload candidateAt clock idxs := by
  ext d
  apply exists_congr
  intro idx
  apply and_congr_right
  intro _
  apply exists_congr
  intro schedule
  apply and_congr_right
  intro hschedule
  apply and_congr_right
  intro hwaits
  rw [deadline, deadline, h.lastRun idx schedule hschedule hwaits]

theorem deadlines_cons_of_not {idxs : List Nat} (last now : Nat)
    (hrests : ∀ schedule, candidateAt idx = some schedule → ¬ Waits workload schedule) :
    Deadlines last now workload candidateAt clock (idx :: idxs) =
      Deadlines last now workload candidateAt clock idxs := by
  ext d
  constructor
  · rintro ⟨j, hj, schedule, hschedule, hwaits, hd⟩
    rcases List.mem_cons.mp hj with rfl | hj
    · exact absurd hwaits (hrests schedule hschedule)
    · exact ⟨j, hj, schedule, hschedule, hwaits, hd⟩
  · rintro ⟨j, hj, hrest⟩
    exact ⟨j, List.mem_cons_of_mem _ hj, hrest⟩

theorem deadlines_cons_of_waits {idxs : List Nat} (last now : Nat) (hschedule : candidateAt idx = some schedule)
    (hwaits : Waits workload schedule) :
    Deadlines last now workload candidateAt clock (idx :: idxs) =
      insert (clock.deadline last now idx schedule) (Deadlines last now workload candidateAt clock idxs) := by
  ext d
  constructor
  · rintro ⟨j, hj, schedule', hschedule', hrest⟩
    rcases List.mem_cons.mp hj with rfl | hj
    · obtain rfl := Option.some.inj (hschedule.symm.trans hschedule')
      exact .inl hrest.2.symm
    · exact .inr ⟨j, hj, schedule', hschedule', hrest⟩
  · rintro (rfl | ⟨j, hj, hrest⟩)
    · exact ⟨idx, List.mem_cons_self, schedule, hschedule, hwaits, rfl⟩
    · exact ⟨j, List.mem_cons_of_mem _ hj, hrest⟩

theorem isLeast_of_min {next : Option Nat} {first d : Nat} {D : Set Nat}
    (h : IsLeast ({d | some (next.elim first fun e => min e first) = some d} ∪ D) d) :
    IsLeast ({d | next = some d} ∪ insert first D) d := by
  obtain ⟨hmem, hlower⟩ := h
  have hmin : d ≤ next.elim first fun e => min e first := hlower (.inl rfl)
  constructor
  · rcases hmem with heq | hd
    · obtain rfl := Option.some.inj heq
      cases next with
      | none => exact .inr (.inl rfl)
      | some e =>
          rcases min_choice e first with he | hfirst
          · exact .inl (congrArg some he.symm)
          · exact .inr (.inl hfirst)
    · exact .inr (.inr hd)
  · intro x hx
    rcases hx with hnext | rfl | hx
    · obtain rfl : next = some x := hnext
      exact hmin.trans (min_le_left _ _)
    · cases next with
      | none => exact hmin
      | some e => exact hmin.trans (min_le_right _ _)
    · exact hlower (.inr hx)

section Next

variable {idxs : List Nat} {next next' result : Option Nat}

theorem NextCases.cons_rests (h : NextCases last now workload candidateAt idxs clock' next result)
    (hkeeps : Keeps workload candidateAt clock clock')
    (hready : ∀ schedule, candidateAt idx = some schedule → ¬ Ready workload schedule)
    (hrests : ∀ schedule, candidateAt idx = some schedule → ¬ Waits workload schedule) :
    NextCases last now workload candidateAt (idx :: idxs) clock next result := by
  have hset : Deadlines last now workload candidateAt clock (idx :: idxs) =
      Deadlines last now workload candidateAt clock' idxs := by
    rw [deadlines_cons_of_not last now hrests, hkeeps.deadlines_eq]
  cases h with
  | ready j hj schedule hschedule h => exact .ready j (List.mem_cons_of_mem _ hj) schedule hschedule h
  | least hnot d h => exact .least (List.forall_mem_cons.mpr ⟨hready, hnot⟩) d (hset ▸ h)
  | never hnot h => exact .never (List.forall_mem_cons.mpr ⟨hready, hnot⟩) (hset ▸ h)

theorem NextCases.cons_waits (hschedule : candidateAt idx = some schedule) (hwaits : Waits workload schedule)
    (h : NextCases last now workload candidateAt idxs clock
      (some (next.elim (clock.deadline last now idx schedule) fun d => min d (clock.deadline last now idx schedule)))
      result) :
    NextCases last now workload candidateAt (idx :: idxs) clock next result := by
  have hready (schedule' : ScheduleCandidate) (hschedule' : candidateAt idx = some schedule') :
      ¬ Ready workload schedule' := by
    obtain rfl := Option.some.inj (hschedule.symm.trans hschedule')
    exact fun h => absurd (h.1.symm.trans hwaits.1) (by decide)
  cases h with
  | ready j hj schedule hschedule h => exact .ready j (List.mem_cons_of_mem _ hj) schedule hschedule h
  | least hnot d h =>
      refine .least (List.forall_mem_cons.mpr ⟨hready, hnot⟩) d ?_
      rw [deadlines_cons_of_waits last now hschedule hwaits]
      exact isLeast_of_min h
  | never hnot h =>
      have hfirst := Set.eq_empty_iff_forall_notMem.mp (Set.union_empty_iff.mp h).1
      exact absurd rfl (hfirst _)

theorem nextFrom_spec (hidxs : ∀ idx ∈ idxs, idx < clock.lastRuns.length) :
    NextCases last now workload candidateAt idxs clock next
      (nextFrom last now workload candidateAt idxs clock next).1 ∧
    Keeps workload candidateAt clock (nextFrom last now workload candidateAt idxs clock next).2 := by
  induction idxs generalizing clock next with
  | nil =>
      refine ⟨?_, .refl clock⟩
      have hnone : Deadlines last now workload candidateAt clock [] = ∅ := by
        ext d
        simp [Deadlines]
      cases next with
      | none => exact .never (by simp) (by rw [hnone]; simp)
      | some d => exact .least (by simp) d (by rw [hnone]; simp [IsLeast, lowerBounds])
  | cons idx idxs ih =>
      obtain ⟨hidx, hrest⟩ := List.forall_mem_cons.mp hidxs
      cases hcandidate : candidateAt idx with
      | none =>
          have hno (schedule : ScheduleCandidate) : candidateAt idx ≠ some schedule := by
            rw [hcandidate]
            exact (Option.some_ne_none schedule).symm
          obtain ⟨hcases, hkeeps⟩ := @ih clock next hrest
          rw [nextFrom, hcandidate]
          exact ⟨hcases.cons_rests (.refl clock) (fun schedule h => absurd h (hno schedule))
            fun schedule h => absurd h (hno schedule), hkeeps⟩
      | some schedule =>
          have honly {P : ScheduleCandidate → Prop} (h : P schedule) (schedule' : ScheduleCandidate)
              (hschedule : candidateAt idx = some schedule') : P schedule' :=
            Option.some.inj (hcandidate.symm.trans hschedule) ▸ h
          rw [nextFrom, hcandidate]
          dsimp only
          rw [lastRunMut_eq hidx]
          by_cases hqueue : schedule.activity.hasQueue = true
          · rw [if_pos hqueue]
            by_cases hdue : schedule.activity.queueDue workload = true
            · rw [if_pos hdue]
              exact ⟨.ready idx List.mem_cons_self schedule hcandidate ⟨hqueue, hdue⟩, .refl clock⟩
            · rw [if_neg hdue]
              obtain ⟨hcases, hkeeps⟩ := @ih clock next hrest
              have hready : ¬ Ready workload schedule := fun h => hdue h.2
              have hnot : ¬ Waits workload schedule := fun h => absurd (hqueue.symm.trans h.1) (by decide)
              exact ⟨hcases.cons_rests (.refl clock) (honly hready) (honly hnot), hkeeps⟩
          · rw [if_neg hqueue]
            have hready : ¬ Ready workload schedule := fun h => hqueue h.1
            have hrests (hidle : scheduleDueButIdle workload schedule.activity = true) :
                NextCases last now workload candidateAt (idx :: idxs) clock next
                    (nextFrom last now workload candidateAt idxs (clock.setLastRun idx now) next).1 ∧
                  Keeps workload candidateAt clock
                    (nextFrom last now workload candidateAt idxs (clock.setLastRun idx now) next).2 := by
              have hnot : ¬ Waits workload schedule := fun h => absurd (hidle.symm.trans h.2) (by decide)
              have hkeeps := keeps_setLastRun hidx now (honly hnot)
              obtain ⟨hcases, hkeepsRest⟩ :=
                @ih (clock.setLastRun idx now) next fun j hj => hkeeps.length.symm ▸ hrest j hj
              exact ⟨hcases.cons_rests hkeeps (honly hready) (honly hnot), hkeeps.trans hkeepsRest⟩
            by_cases hresting : schedule.activity.resting workload = true
            · rw [if_pos hresting]
              exact hrests (idle_of_resting hresting)
            · rw [if_neg hresting]
              by_cases hidle : scheduleDueButIdle workload schedule.activity = true
              · rw [if_pos hidle]
                exact hrests hidle
              · rw [if_neg hidle]
                have hwaits : Waits workload schedule := ⟨Bool.eq_false_iff.mpr hqueue, Bool.eq_false_iff.mpr hidle⟩
                obtain ⟨hcases, hkeeps⟩ := @ih clock _ hrest
                exact ⟨.cons_waits hcandidate hwaits hcases, hkeeps⟩

end Next

theorem nextDeadline_spec (last : Nat) (clock : ScheduleClock) (totalLen now : Nat) (workload : ScheduleWorkload)
    (candidateAt : Nat → Option ScheduleCandidate) :
    NextCases last now workload candidateAt (List.range totalLen) (clock.syncLen totalLen now) none
      (clock.nextDeadline last totalLen now workload candidateAt).1 ∧
    Keeps workload candidateAt (clock.syncLen totalLen now)
      (clock.nextDeadline last totalLen now workload candidateAt).2 :=
  nextFrom_spec (mem_range_syncLen clock totalLen now)

/-- The intervals of the candidates that wait end at an instant, and one of zero length has ended. -/
def Steady (last : Nat) (clock : ScheduleClock) (totalLen now : Nat) (workload : ScheduleWorkload)
    (candidateAt : Nat → Option ScheduleCandidate) : Prop :=
  ∀ idx < totalLen, ∀ schedule ∈ candidateAt idx, Waits workload schedule →
    (clock.syncLen totalLen now).lastRun idx + schedule.interval ≤ last ∧
      (0 < schedule.interval ∨ (clock.syncLen totalLen now).lastRun idx ≤ now)

instance {totalLen : Nat} : Decidable (Steady last clock totalLen now workload candidateAt) :=
  inferInstanceAs (Decidable (∀ idx < totalLen, ∀ schedule ∈ candidateAt idx, _))

/-- No configured schedule that is switched on has an interval of zero length. -/
theorem steady_configured {schedules : List (ScheduleActivity × UInt64)} {totalLen : Nat}
    (h : ∀ idx < totalLen, ∀ schedule ∈ configuredCandidate schedules idx,
      (clock.syncLen totalLen now).lastRun idx + schedule.interval ≤ last) :
    Steady last clock totalLen now workload (configuredCandidate schedules) := by
  intro idx hidx schedule hschedule _
  refine ⟨h idx hidx schedule hschedule, .inl ?_⟩
  obtain ⟨configured, -, hon⟩ := Option.bind_eq_some_iff.mp hschedule
  split at hon
  · rename_i hinterval
    obtain rfl := Option.some.inj hon
    have hpos : configured.2.toNat ≠ 0 := fun hzero => hinterval (UInt64.toNat_inj.mp hzero)
    show 0 < configured.2.toNat * 1000000
    omega
  · cases hon

/-- The clock after it has selected at each of the instants. -/
def selectRun (totalLen : Nat) (workload : ScheduleWorkload) (candidateAt : Nat → Option ScheduleCandidate)
    (clock : ScheduleClock) (instants : List Nat) : ScheduleClock :=
  instants.foldl (fun clock t => (clock.selectDue totalLen t workload candidateAt).2) clock

theorem syncLen_eq {len : Nat} (h : clock.lastRuns.length = len) (now : Nat) : clock.syncLen len now = clock := by
  subst h
  rw [syncLen, resize, List.take_length, Nat.sub_self, List.replicate_zero, List.append_nil]

section Agreement

variable {totalLen : Nat}

/-- Where the last runs are kept, so is what is selected. -/
theorem Keeps.mem_selectDue (h : Keeps workload candidateAt (clock.syncLen totalLen now) clock') (t j : Nat) :
    j ∈ (clock'.selectDue totalLen t workload candidateAt).1 ↔
      j < totalLen ∧ Selected t workload candidateAt (clock.syncLen totalLen now) j := by
  rw [(clock'.selectDue_spec totalLen t workload candidateAt).1,
    syncLen_eq (h.length.trans (length_syncLen clock totalLen now)), h.selected_iff]

theorem Keeps.selectRun (h : Keeps workload candidateAt (clock.syncLen totalLen now) clock') (instants : List Nat) :
    Keeps workload candidateAt (clock.syncLen totalLen now)
      (selectRun totalLen workload candidateAt clock' instants) := by
  induction instants generalizing clock' with
  | nil => exact h
  | cons t instants ih =>
      refine ih (h.trans ?_)
      have hkeeps := (clock'.selectDue_spec totalLen t workload candidateAt).2
      rwa [syncLen_eq (h.length.trans (length_syncLen clock totalLen now))] at hkeeps

theorem Steady.deadline_eq (h : Steady last clock totalLen now workload candidateAt) (hidx : idx < totalLen)
    (hschedule : candidateAt idx = some schedule) (hwaits : Waits workload schedule) :
    (clock.syncLen totalLen now).deadline last now idx schedule =
      (clock.syncLen totalLen now).lastRun idx + schedule.interval := by
  rw [deadline, checkedAdd, if_pos (h idx hidx schedule hschedule hwaits).1, Option.getD_some]

/-- A candidate that waits is due from its deadline on. -/
theorem Steady.due_iff (h : Steady last clock totalLen now workload candidateAt) (hidx : idx < totalLen)
    (hschedule : candidateAt idx = some schedule) (hwaits : Waits workload schedule) {t : Nat}
    (ht : t = now ∨ now < (clock.syncLen totalLen now).deadline last now idx schedule) :
    schedule.interval ≤ t - (clock.syncLen totalLen now).lastRun idx ↔
      (clock.syncLen totalLen now).deadline last now idx schedule ≤ t := by
  rw [h.deadline_eq hidx hschedule hwaits] at ht ⊢
  have hsteady := (h idx hidx schedule hschedule hwaits).2
  omega

theorem Steady.selected_now_iff (h : Steady last clock totalLen now workload candidateAt) {next : Option Nat}
    (hcases : NextCases last now workload candidateAt (List.range totalLen) (clock.syncLen totalLen now) none next) :
    (∃ d ∈ next, d ≤ now) ↔
      ∃ idx < totalLen, Selected now workload candidateAt (clock.syncLen totalLen now) idx := by
  cases hcases with
  | ready idx hidx schedule hschedule hready =>
      exact iff_of_true ⟨now, rfl, le_rfl⟩ ⟨idx, List.mem_range.mp hidx, schedule, hschedule, .inl hready⟩
  | least hready d hleast =>
      constructor
      · rintro ⟨d', hd', hle⟩
        obtain rfl := Option.some.inj hd'
        rcases hleast.1 with hnone | ⟨idx, hidx, schedule, hschedule, hwaits, rfl⟩
        · exact absurd hnone.symm (Option.some_ne_none _)
        · have hidx := List.mem_range.mp hidx
          exact ⟨idx, hidx, schedule, hschedule,
            .inr ⟨hwaits, (h.due_iff hidx hschedule hwaits (.inl rfl)).mpr hle⟩⟩
      · rintro ⟨idx, hidx, schedule, hschedule, hready' | ⟨hwaits, hdue⟩⟩
        · exact absurd hready' (hready idx (List.mem_range.mpr hidx) schedule hschedule)
        · have hle := (h.due_iff hidx hschedule hwaits (.inl rfl)).mp hdue
          exact ⟨d, rfl, (hleast.2 (.inr ⟨idx, List.mem_range.mpr hidx, schedule, hschedule, hwaits, rfl⟩)).trans hle⟩
  | never hready hempty =>
      refine iff_of_false (fun ⟨d, hd, _⟩ => absurd hd.symm (Option.some_ne_none d)) ?_
      rintro ⟨idx, hidx, schedule, hschedule, hready' | ⟨hwaits, -⟩⟩
      · exact hready idx (List.mem_range.mpr hidx) schedule hschedule hready'
      · exact Set.eq_empty_iff_forall_notMem.mp hempty _
          (.inr ⟨idx, List.mem_range.mpr hidx, schedule, hschedule, hwaits, rfl⟩)

/-- A deadline in the future is the first instant at which something is selected. -/
theorem Steady.selected_iff (h : Steady last clock totalLen now workload candidateAt) {d : Nat} (hd : now < d)
    (hcases : NextCases last now workload candidateAt (List.range totalLen) (clock.syncLen totalLen now) none (some d)) :
    (∀ t < d, ∀ idx < totalLen, ¬ Selected t workload candidateAt (clock.syncLen totalLen now) idx) ∧
      ∃ idx < totalLen, Selected d workload candidateAt (clock.syncLen totalLen now) idx := by
  cases hcases with
  | ready => exact absurd hd (Nat.lt_irrefl now)
  | least hready d hleast =>
      have hlater (idx : Nat) (hidx : idx < totalLen) (schedule : ScheduleCandidate)
          (hschedule : candidateAt idx = some schedule) (hwaits : Waits workload schedule) :
          d ≤ (clock.syncLen totalLen now).deadline last now idx schedule :=
        hleast.2 (.inr ⟨idx, List.mem_range.mpr hidx, schedule, hschedule, hwaits, rfl⟩)
      constructor
      · rintro t ht idx hidx ⟨schedule, hschedule, hready' | ⟨hwaits, hdue⟩⟩
        · exact hready idx (List.mem_range.mpr hidx) schedule hschedule hready'
        · have hle := hlater idx hidx schedule hschedule hwaits
          have hpast := (h.due_iff hidx hschedule hwaits (.inr (hd.trans_le hle))).mp hdue
          exact absurd (hle.trans hpast) (Nat.not_le_of_lt ht)
      · rcases hleast.1 with hnone | ⟨idx, hidx, schedule, hschedule, hwaits, heq⟩
        · exact absurd hnone.symm (Option.some_ne_none _)
        · have hidx := List.mem_range.mp hidx
          refine ⟨idx, hidx, schedule, hschedule, .inr ⟨hwaits, ?_⟩⟩
          exact (h.due_iff hidx hschedule hwaits (.inr (heq ▸ hd))).mpr heq.le

theorem not_selected_of_never
    (hcases : NextCases last now workload candidateAt (List.range totalLen) (clock.syncLen totalLen now) none none)
    (t : Nat) (hidx : idx < totalLen) : ¬ Selected t workload candidateAt (clock.syncLen totalLen now) idx := by
  cases hcases with
  | never hready hempty =>
      rintro ⟨schedule, hschedule, hready' | ⟨hwaits, -⟩⟩
      · exact hready idx (List.mem_range.mpr hidx) schedule hschedule hready'
      · exact Set.eq_empty_iff_forall_notMem.mp hempty _
          (.inr ⟨idx, List.mem_range.mpr hidx, schedule, hschedule, hwaits, rfl⟩)

theorem Keeps.selectDue_eq_nil (h : Keeps workload candidateAt (clock.syncLen totalLen now) clock') (t : Nat) :
    (clock'.selectDue totalLen t workload candidateAt).1 = [] ↔
      ∀ idx < totalLen, ¬ Selected t workload candidateAt (clock.syncLen totalLen now) idx := by
  rw [List.eq_nil_iff_forall_not_mem]
  apply forall_congr'
  intro idx
  rw [h.mem_selectDue, not_and]

theorem Keeps.selectDue_ne_nil (h : Keeps workload candidateAt (clock.syncLen totalLen now) clock') (t : Nat) :
    (clock'.selectDue totalLen t workload candidateAt).1 ≠ [] ↔
      ∃ idx < totalLen, Selected t workload candidateAt (clock.syncLen totalLen now) idx := by
  rw [Ne, h.selectDue_eq_nil]
  simp only [not_forall, not_not, exists_prop]

theorem selectDue_ne_nil (clock : ScheduleClock) (totalLen now : Nat) (workload : ScheduleWorkload)
    (candidateAt : Nat → Option ScheduleCandidate) :
    (clock.selectDue totalLen now workload candidateAt).1 ≠ [] ↔
      ∃ idx < totalLen, Selected now workload candidateAt (clock.syncLen totalLen now) idx := by
  rw [Ne, List.eq_nil_iff_forall_not_mem]
  simp only [not_forall, not_not, (clock.selectDue_spec totalLen now workload candidateAt).1]

/-- Before a wake at an instant nothing is selected, whatever the other inputs are. -/
theorem Steady.not_selected_of_wait (h : Steady last clock totalLen now workload candidateAt) {next : Option Nat}
    (hcases : NextCases last now workload candidateAt (List.range totalLen) (clock.syncLen totalLen now) none next)
    {t : Nat} (ht : ∀ d ∈ next, now < d ∧ t < d) (hidx : idx < totalLen) :
    ¬ Selected t workload candidateAt (clock.syncLen totalLen now) idx := by
  cases next with
  | none => exact not_selected_of_never hcases t hidx
  | some d => exact (h.selected_iff (ht d rfl).1 hcases).1 t (ht d rfl).2 idx hidx

/-- The deadline of the schedules is an instant at which they select, and the loop neither sleeps past it nor wakes
for nothing. -/
theorem nextDeadline_agrees (h : Steady last clock totalLen now workload candidateAt) (next : Option Nat)
    (clock' : ScheduleClock) (hnext : clock.nextDeadline last totalLen now workload candidateAt = (next, clock')) :
    ((∃ d ∈ next, d ≤ now) ↔ (clock.selectDue totalLen now workload candidateAt).1 ≠ []) ∧
    (∀ instants, ∀ d ∈ next, now < d →
      (∀ t < d, ((selectRun totalLen workload candidateAt clock' instants).selectDue totalLen t workload
        candidateAt).1 = []) ∧
      ((selectRun totalLen workload candidateAt clock' instants).selectDue totalLen d workload candidateAt).1 ≠ []) ∧
    (next = none → ∀ instants t,
      ((selectRun totalLen workload candidateAt clock' instants).selectDue totalLen t workload candidateAt).1 = []) ∧
    ∀ inputs craftingDeadline programmatorDueAt hazardDueAt,
      (∀ deadline, nextWaitPlan now inputs next craftingDeadline programmatorDueAt hazardDueAt =
          .untilInstant deadline →
        ∀ t < deadline, (clock'.selectDue totalLen t workload candidateAt).1 = []) ∧
      (nextWaitPlan now inputs next craftingDeadline programmatorDueAt hazardDueAt = .indefinite →
        ∀ t, (clock'.selectDue totalLen t workload candidateAt).1 = []) ∧
      (nextWaitPlan now inputs next craftingDeadline programmatorDueAt hazardDueAt = .immediate →
        (inputs.commandReady || inputs.completionReady || inputs.persistenceBacklogReady) = true ∨
        (∃ d ∈ { inputs with scheduleDeadline := craftingDeadline }.deadlines, d ≤ now) ∨
        (clock.selectDue totalLen now workload candidateAt).1 ≠ []) := by
  obtain ⟨hcases, hkeeps⟩ := clock.nextDeadline_spec last totalLen now workload candidateAt
  rw [hnext] at hcases hkeeps
  dsimp only at hcases hkeeps
  have hnow : (∃ d ∈ next, d ≤ now) ↔ (clock.selectDue totalLen now workload candidateAt).1 ≠ [] :=
    (h.selected_now_iff hcases).trans (clock.selectDue_ne_nil totalLen now workload candidateAt).symm
  refine ⟨hnow, fun instants d hd hlt => ?_, fun hnone instants t => ?_, fun inputs craftingDeadline
    programmatorDueAt hazardDueAt => ?_⟩
  · obtain rfl : next = some d := hd
    obtain ⟨hbefore, hat⟩ := h.selected_iff hlt hcases
    exact ⟨fun t ht => ((hkeeps.selectRun instants).selectDue_eq_nil t).mpr (hbefore t ht),
      ((hkeeps.selectRun instants).selectDue_ne_nil d).mpr hat⟩
  · subst hnone
    exact ((hkeeps.selectRun instants).selectDue_eq_nil t).mpr fun idx hidx => not_selected_of_never hcases t hidx
  · have hplanned (d : Nat) (hd : d ∈ next) : ∃ e ∈ WaitInputs.deadlines { inputs with
        scheduleDeadline := earlierDeadline (earlierDeadline (earlierDeadline next craftingDeadline)
          (programmatorDueAt.filter (now < ·))) (hazardDueAt.filter (now < ·)) }, e ≤ d := by
      obtain ⟨e₁, he₁, hle₁⟩ := exists_earlierDeadline_le hd craftingDeadline
      obtain ⟨e₂, he₂, hle₂⟩ := exists_earlierDeadline_le he₁ (programmatorDueAt.filter (now < ·))
      obtain ⟨e₃, he₃, hle₃⟩ := exists_earlierDeadline_le he₂ (hazardDueAt.filter (now < ·))
      refine ⟨e₃, ?_, hle₃.trans (hle₂.trans hle₁)⟩
      exact WaitInputs.mem_deadlines.mpr (.inr (.inl he₃))
    refine ⟨fun deadline hplan t ht => ?_, fun hplan t => ?_, fun hplan => ?_⟩
    · obtain ⟨hlater, hfirst⟩ := planWait_eq_untilInstant hplan
      refine (hkeeps.selectDue_eq_nil t).mpr fun idx hidx => h.not_selected_of_wait hcases (fun d hd => ?_) hidx
      obtain ⟨e, he, hle⟩ := hplanned d hd
      exact ⟨hlater.trans_le ((hfirst e he).trans hle), ht.trans_le ((hfirst e he).trans hle)⟩
    · refine (hkeeps.selectDue_eq_nil t).mpr fun idx hidx => h.not_selected_of_wait hcases (fun d hd => ?_) hidx
      obtain ⟨e, he, -⟩ := hplanned d hd
      rw [planWait_eq_indefinite hplan] at he
      exact absurd he List.not_mem_nil
    · rcases planWait_eq_immediate hplan with hready | ⟨d, hd, hle⟩
      · exact .inl hready
      · have hfuture (queue : Option Nat) : d ∉ queue.filter (now < ·) := by
          intro hmem
          exact absurd hle (Nat.not_le_of_lt (of_decide_eq_true (Option.mem_filter_iff.mp hmem).2))
        rcases WaitInputs.mem_deadlines.mp hd with hdue | hschedule | hrest
        · exact .inr (.inl ⟨d, WaitInputs.mem_deadlines.mpr (.inl hdue), hle⟩)
        · have hnext := ((mem_earlierDeadline hschedule).resolve_right (hfuture hazardDueAt))
          rcases mem_earlierDeadline ((mem_earlierDeadline hnext).resolve_right (hfuture programmatorDueAt)) with
            hnext | hcrafting
          · exact .inr (.inr (hnow.mp ⟨d, hnext, hle⟩))
          · exact .inr (.inl ⟨d, WaitInputs.mem_deadlines.mpr (.inr (.inl hcrafting)), hle⟩)
        · exact .inr (.inl ⟨d, WaitInputs.mem_deadlines.mpr (.inr (.inr hrest)), hle⟩)

end Agreement

/-- One player is online, and there is no other work. -/
def onePlayer : ScheduleWorkload := ⟨1, false, false, false, none, none, none⟩

/-- One schedule runs each millisecond, and the other one is switched off. -/
theorem nextDeadline_agrees_oneSwitchedOff :
    ((⟨[0, 400000]⟩ : ScheduleClock).selectDue 2 999999 onePlayer
      (configuredCandidate [(.onlinePlayers, 1), (.always, 0)])).1 = [] := by
  have hsteady : Steady 2000000 ⟨[0]⟩ 2 400000 onePlayer
      (configuredCandidate [(.onlinePlayers, 1), (.always, 0)]) := by
    decide
  have h := nextDeadline_agrees hsteady (some 1000000) ⟨[0, 400000]⟩ (by decide)
  exact (h.2.1 [] 1000000 rfl (by decide)).1 999999 (by decide)

/-- The last instant of a clock with seconds of 64 bits. -/
def lastInstant : Nat := 18446744073709551615999999999

/-- An interval that ends past the last instant, and one of zero length after a run in the future: the loop wakes at
once and selects nothing, and waits although the schedule is selected. -/
theorem nextDeadline_disagrees :
    ((⟨[lastInstant]⟩ : ScheduleClock).nextDeadline lastInstant 1 0 onePlayer fun _ => some ⟨.always, 1⟩).1 = some 0 ∧
      ((⟨[lastInstant]⟩ : ScheduleClock).selectDue 1 0 onePlayer fun _ => some ⟨.always, 1⟩).1 = [] ∧
      ((⟨[10]⟩ : ScheduleClock).nextDeadline lastInstant 1 5 onePlayer fun _ => some ⟨.always, 0⟩).1 = some 10 ∧
      ((⟨[10]⟩ : ScheduleClock).selectDue 1 5 onePlayer fun _ => some ⟨.always, 0⟩).1 = [0] := by
  decide

end ScheduleClock

end OpenMines
