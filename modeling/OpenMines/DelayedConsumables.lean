import OpenMines.BrokenBuilding
import OpenMines.CellWorld
import OpenMines.Lib.DelayQueue

namespace OpenMines

open Lib

inductive DelayedConsumableKind
  | boom
  | protector
  | raz
  deriving DecidableEq

namespace DelayedConsumableKind

def fromItem (itemId : Int32) : Option DelayedConsumableKind :=
  if itemId = 5 then some boom
  else if itemId = 6 then some protector
  else if itemId = 7 then some raz
  else none

/-- In nanoseconds. -/
def delay : DelayedConsumableKind → Nat
  | boom => 1000000000
  | protector => 2000000000
  | raz => 5000000000

def packOffset : DelayedConsumableKind → UInt8
  | boom => 0
  | protector => 1
  | raz => 2

def requiresGunAccess : DelayedConsumableKind → Bool
  | boom | protector => true
  | raz => false

theorem delay_pos (kind : DelayedConsumableKind) : 0 < kind.delay := by
  cases kind <;> decide

end DelayedConsumableKind

/-- `DueAction`, with the player that pays. -/
inductive DelayedAction
  | boom (center : WorldPos) (rngSeed : UInt64)
  | protector (center : WorldPos) (triggerPlayerId : PlayerId)
  | raz (center : WorldPos) (triggerPlayerId : PlayerId)
  deriving DecidableEq

namespace DelayedAction

def center : DelayedAction → WorldPos
  | boom center _ | protector center _ | raz center _ => center

def ofKind (center : WorldPos) (sequence : Nat) (player : PlayerId) : DelayedConsumableKind → DelayedAction
  | .boom => boom center (.ofNat sequence)
  | .protector => protector center player
  | .raz => raz center player

@[simp] theorem center_ofKind (p : WorldPos) (sequence : Nat) (player : PlayerId) (kind : DelayedConsumableKind) :
    (ofKind p sequence player kind).center = p := by
  cases kind <;> rfl

end DelayedAction

abbrev ScheduledDueAction := DelayQueue.Entry DelayedAction

/-! ### The queue -/

structure DueActionQueue where
  actions : List ScheduledDueAction
  capacity : Nat
  reserved : Nat
  nextSequence : Nat

namespace DueActionQueue

variable (q : DueActionQueue)

def sequenceMax : Nat := 18446744073709551615

/-- The number of the reservation, and the queue with it. -/
def tryReserve : Option (Nat × DueActionQueue) :=
  if q.capacity ≤ q.actions.length + q.reserved then none
  else if q.nextSequence = sequenceMax then none
  else some (q.nextSequence, { q with nextSequence := q.nextSequence + 1, reserved := q.reserved + 1 })

/-- A reservation is dropped. -/
def release : DueActionQueue := { q with reserved := q.reserved - 1 }

def publish (scheduled : ScheduledDueAction) : DueActionQueue :=
  { q with actions := DelayQueue.insert scheduled q.actions, reserved := q.reserved - 1 }

def popDue (now : Nat) : Option (ScheduledDueAction × DueActionQueue) :=
  (DelayQueue.popDue now q.actions).map fun popped => (popped.1, { q with actions := popped.2 })

end DueActionQueue

/-! ### The use of an item, and the phase that applies what is due -/

/-- What the use of an item asks of the rest of the server, and what an action does there at an instant. -/
structure Surroundings (W : Type) where
  position : W → PlayerId → Option (WorldPos × Int32)
  clanId : W → PlayerId → Option (Option Int32)
  hasFlags : W → PlayerId → Bool
  validCoord : W → WorldPos → Bool
  hasBuildingOrigin : W → WorldPos → Bool
  canPlaceOver : W → WorldPos → Bool
  accessGun : W → WorldPos → Int32 → Bool
  apply : DelayedAction → Nat → W → W

structure UserInventory where
  selected : Int32
  items : Int32 → Int

def UserInventory.debit (inv : UserInventory) (item : Int32) : UserInventory :=
  { inv with items := Function.update inv.items item (inv.items item - 1) }

/-- The state that the delayed items share, with the clock; `world` is the rest of the server. -/
structure ConsumableState (W : Type) where
  now : Nat
  world : W
  inventories : PlayerId → Option UserInventory
  lastInventoryUse : PlayerId → Option Nat
  consumablePacks : WorldPos → Option (UInt8 × UInt8)
  queue : DueActionQueue

namespace ConsumableState

variable {W : Type} (S : Surroundings W) (s : ConsumableState W)

/-- 400 ms. -/
def inventoryUseGate : Nat := 400000000

/-- The gate of the cooldown, which also a use that then fails passes. -/
def passGate (player : PlayerId) : ConsumableState W × Bool :=
  match s.lastInventoryUse player with
  | none => (s, false)
  | some last =>
    if inventoryUseGate ≤ s.now - last then
      ({ s with lastInventoryUse := Function.update s.lastInventoryUse player (some s.now) }, true)
    else (s, false)

/-- The cell in front of the player, when the item can be used there. -/
def useTarget (player : PlayerId) (inv : UserInventory) (kind : DelayedConsumableKind) : Option WorldPos :=
  if inv.selected < 0 ∨ inv.items inv.selected ≤ 0 then none
  else
    (S.position s.world player).bind fun p =>
      let front := facing p.1 p.2
      if !S.validCoord s.world front || S.hasBuildingOrigin s.world front then none
      else if !CellWorld.isExemptItem inv.selected && !S.canPlaceOver s.world front then none
      else if kind.requiresGunAccess then
        (S.clanId s.world player).bind fun clanId =>
          if S.accessGun s.world front (clanId.getD 0) then some front else none
      else some front

/-- `consume_inventory_item_effect` -/
def consumeInventoryItem (player : PlayerId) (item : Int32) : Option (ConsumableState W) :=
  if !S.hasFlags s.world player then none
  else
    (s.inventories player).bind fun inv =>
      if inv.items item ≤ 0 then none
      else some { s with inventories := Function.update s.inventories player (some (inv.debit item)) }

/-- The checks after the gate, and the payment. -/
def payForUse (player : PlayerId) (inv : UserInventory) (kind : DelayedConsumableKind) :
    Option (WorldPos × ConsumableState W) :=
  (s.useTarget S player inv kind).bind fun front =>
    (s.consumeInventoryItem S player inv.selected).map fun paid => (front, paid)

/-- `handle_inventory_use_sync_nonbuilding` for the delayed items, with what it admits; each way out after the
reservation that does not publish drops it. The clock goes on until the publication. -/
def handleInventoryUse (player : PlayerId) (publishedAfter : Nat) : ConsumableState W × Option ScheduledDueAction :=
  match s.inventories player with
  | none => (s, none)
  | some inv =>
    match DelayedConsumableKind.fromItem inv.selected with
    | none => (s, none)
    | some kind =>
      match s.queue.tryReserve with
      | none => (s, none)
      | some (sequence, queue) =>
        let gated := passGate { s with queue } player
        match if gated.2 then gated.1.payForUse S player inv kind else none with
        | none => ({ gated.1 with queue := gated.1.queue.release }, none)
        | some (front, paid) =>
          let published := paid.now + publishedAfter
          let scheduled : ScheduledDueAction :=
            ⟨published + kind.delay, sequence, .ofKind front sequence player kind⟩
          ({ paid with
            now := published
            consumablePacks := Function.update paid.consumablePacks front (some (66, kind.packOffset))
            queue := paid.queue.publish scheduled }, some scheduled)

/-- `apply_boom`, `apply_protector` and `apply_raz`: each of them clears the overlay of its cell. -/
def applyDue (scheduled : ScheduledDueAction) : ConsumableState W :=
  { s with
    world := S.apply scheduled.action s.now s.world
    consumablePacks := Function.update s.consumablePacks scheduled.action.center none }

/-- The loop of `run_due_action_phase_at`, with what is left of the batch budget and what it has executed;
`inTime` tells whether the time budget lasts. -/
def drainDue (eligibleAt : Nat) (inTime : Nat → Bool) :
    Nat → Nat → ConsumableState W → List ScheduledDueAction × ConsumableState W
  | 0, _, s => ([], s)
  | left + 1, executed, s =>
    if executed = 0 ∨ inTime executed then
      match s.queue.popDue eligibleAt with
      | none => ([], s)
      | some (scheduled, queue) =>
        let rest := drainDue eligibleAt inTime left (executed + 1) (applyDue S { s with queue } scheduled)
        (scheduled :: rest.1, rest.2)
    else ([], s)

/-- The phase of a tick, with what it has applied. -/
def runDueActionPhase (batchBudget : Nat) (inTime : Nat → Bool) : List ScheduledDueAction × ConsumableState W :=
  drainDue S s.now inTime batchBudget 0 s

/-! ### What a use does -/

/-- A use that fails takes at most the time of the cooldown and a number. -/
structure Refuses (s t : ConsumableState W) : Prop where
  inventories : t.inventories = s.inventories
  packs : t.consumablePacks = s.consumablePacks
  world : t.world = s.world
  now : t.now = s.now
  actions : t.queue.actions = s.queue.actions
  reserved : t.queue.reserved = s.queue.reserved
  capacity : t.queue.capacity = s.queue.capacity
  sequence : s.queue.nextSequence ≤ t.queue.nextSequence

/-- A use that is admitted, of an item that may be used on the cell, takes one of the item, and puts one action in the
queue and its overlay on the cell. -/
structure Admits (S : Surroundings W) (s t : ConsumableState W) (player : PlayerId) (scheduled : ScheduledDueAction) : Prop where
  paid : ∃ inv kind, s.inventories player = some inv ∧ DelayedConsumableKind.fromItem inv.selected = some kind ∧
    s.useTarget S player inv kind = some scheduled.action.center ∧ 0 < inv.items inv.selected ∧
    scheduled.dueAt = t.now + kind.delay ∧
    t.inventories = Function.update s.inventories player (some (inv.debit inv.selected)) ∧
    t.consumablePacks = Function.update s.consumablePacks scheduled.action.center (some (66, kind.packOffset))
  world : t.world = s.world
  now : s.now ≤ t.now
  room : s.queue.actions.length + s.queue.reserved < s.queue.capacity
  actions : t.queue.actions = DelayQueue.insert scheduled s.queue.actions
  reserved : t.queue.reserved = s.queue.reserved
  capacity : t.queue.capacity = s.queue.capacity
  sequence : scheduled.sequence = s.queue.nextSequence ∧ t.queue.nextSequence = s.queue.nextSequence + 1

variable {S s}

theorem passGate_eq (s : ConsumableState W) (player : PlayerId) :
    ∃ last, (s.passGate player).1 = { s with lastInventoryUse := last } := by
  rw [passGate]
  split
  · exact ⟨_, rfl⟩
  · split <;> exact ⟨_, rfl⟩

theorem payForUse_eq_some {t : ConsumableState W} {player : PlayerId} {inv : UserInventory} {kind : DelayedConsumableKind}
    {front : WorldPos} (h : s.payForUse S player inv kind = some (front, t)) (hinv : s.inventories player = some inv) :
    s.useTarget S player inv kind = some front ∧ 0 < inv.items inv.selected ∧
      t = { s with inventories := Function.update s.inventories player (some (inv.debit inv.selected)) } := by
  obtain ⟨p, htarget, h⟩ := Option.bind_eq_some_iff.mp h
  obtain ⟨paid, hpaid, hpair⟩ := Option.map_eq_some_iff.mp h
  obtain ⟨rfl, rfl⟩ := Prod.mk.inj hpair
  rw [consumeInventoryItem] at hpaid
  split at hpaid
  · cases hpaid
  · rw [hinv, Option.bind_some] at hpaid
    split at hpaid
    · cases hpaid
    · rename_i hcount
      exact ⟨htarget, Int.not_le.mp hcount, (Option.some.inj hpaid).symm⟩

theorem tryReserve_eq_some {q q' : DueActionQueue} {n : Nat} (h : q.tryReserve = some (n, q')) :
    q.actions.length + q.reserved < q.capacity ∧ n = q.nextSequence ∧
      q' = { q with nextSequence := q.nextSequence + 1, reserved := q.reserved + 1 } := by
  rw [DueActionQueue.tryReserve] at h
  split at h
  · cases h
  · rename_i hroom
    split at h
    · cases h
    · obtain ⟨rfl, rfl⟩ := Prod.mk.inj (Option.some.inj h)
      exact ⟨Nat.not_le.mp hroom, rfl, rfl⟩

theorem handleInventoryUse_spec (S : Surroundings W) (s : ConsumableState W) (player : PlayerId) (publishedAfter : Nat) :
    (∃ t, s.handleInventoryUse S player publishedAfter = (t, none) ∧ s.Refuses t) ∨
      ∃ t scheduled, s.handleInventoryUse S player publishedAfter = (t, some scheduled) ∧ Admits S s t player scheduled := by
  have hunchanged : s.Refuses s := ⟨rfl, rfl, rfl, rfl, rfl, rfl, rfl, Nat.le_refl _⟩
  rw [handleInventoryUse]
  split
  · exact .inl ⟨s, rfl, hunchanged⟩
  · rename_i inv hinv
    split
    · exact .inl ⟨s, rfl, hunchanged⟩
    · rename_i kind hkind
      split
      · exact .inl ⟨s, rfl, hunchanged⟩
      · rename_i sequence queue hreserve
        obtain ⟨hroom, rfl, rfl⟩ := tryReserve_eq_some hreserve
        obtain ⟨last, hgate⟩ := passGate_eq
          { s with queue := ⟨s.queue.actions, s.queue.capacity, s.queue.reserved + 1, s.queue.nextSequence + 1⟩ } player
        dsimp only
        rw [hgate]
        split
        · exact .inl ⟨_, rfl, rfl, rfl, rfl, rfl, rfl, Nat.add_sub_cancel _ _, rfl, Nat.le_succ _⟩
        · rename_i front paid hpaid
          split at hpaid
          · obtain ⟨htarget, hcount, rfl⟩ := payForUse_eq_some hpaid hinv
            refine .inr ⟨_, _, rfl, ⟨inv, kind, hinv, hkind, ?_, hcount, rfl, rfl, ?_⟩, rfl, Nat.le_add_right _ _, hroom, rfl,
              Nat.add_sub_cancel _ _, rfl, rfl, rfl⟩
            · rw [DelayedAction.center_ofKind]
              exact htarget
            · rw [DelayedAction.center_ofKind]
          · cases hpaid

/-! ### What a phase does -/

/-- The loop takes the first actions from the queue, one after the other, and clears their overlays. -/
structure Drains (S : Surroundings W) (s t : ConsumableState W) (done : List ScheduledDueAction) : Prop where
  actions : s.queue.actions = done ++ t.queue.actions
  packs : ∀ p, t.consumablePacks p = if ∃ a ∈ done, a.action.center = p then none else s.consumablePacks p
  world : t.world = done.foldl (fun w a => S.apply a.action s.now w) s.world
  inventories : t.inventories = s.inventories
  now : t.now = s.now
  reserved : t.queue.reserved = s.queue.reserved
  capacity : t.queue.capacity = s.queue.capacity
  sequence : t.queue.nextSequence = s.queue.nextSequence

theorem popDue_eq_some {q q' : DueActionQueue} {now : Nat} {a : ScheduledDueAction} (h : q.popDue now = some (a, q')) :
    q.actions = a :: q'.actions ∧ a.dueAt ≤ now ∧ q'.reserved = q.reserved ∧ q'.capacity = q.capacity ∧
      q'.nextSequence = q.nextSequence := by
  obtain ⟨⟨b, rest⟩, hpop, heq⟩ := Option.map_eq_some_iff.mp h
  obtain ⟨rfl, rfl⟩ := Prod.mk.inj heq
  obtain ⟨hactions, hdue⟩ := DelayQueue.popDue_eq_some.mp hpop
  exact ⟨hactions, hdue, rfl, rfl, rfl⟩

theorem popDue_eq_none {q : DueActionQueue} {now : Nat} (h : q.popDue now = none) {a : ScheduledDueAction}
    (ha : q.actions[0]? = some a) : now < a.dueAt := by
  have hpop := Option.map_eq_none_iff.mp h
  cases hactions : q.actions with
  | nil =>
      rw [hactions] at ha
      cases ha
  | cons b bs =>
      rw [hactions] at ha hpop
      obtain rfl := Option.some.inj ha
      by_contra hle
      rw [DelayQueue.popDue, if_neg hle] at hpop
      cases hpop

theorem Drains.cons {t : ConsumableState W} {a : ScheduledDueAction} {q : DueActionQueue} {done : List ScheduledDueAction}
    {now : Nat} (hpop : s.queue.popDue now = some (a, q)) (h : Drains S (applyDue S { s with queue := q } a) t done) :
    Drains S s t (a :: done) := by
  obtain ⟨hactions, -, hreserved, hcapacity, hsequence⟩ := popDue_eq_some hpop
  refine ⟨?_, fun p => ?_, ?_, h.inventories, h.now, h.reserved.trans hreserved, h.capacity.trans hcapacity,
    h.sequence.trans hsequence⟩
  · rw [hactions, List.cons_append, ← h.actions]
    rfl
  · have hiff : (∃ b ∈ a :: done, b.action.center = p) ↔ a.action.center = p ∨ ∃ b ∈ done, b.action.center = p :=
      List.exists_mem_cons_iff _ _ _
    have hfirst : (applyDue S { s with queue := q } a).consumablePacks p =
        if a.action.center = p then none else s.consumablePacks p := by
      by_cases hp : a.action.center = p
      · rw [if_pos hp, ← hp]
        exact Function.update_self _ _ _
      · rw [if_neg hp]
        exact Function.update_of_ne (Ne.symm hp) _ _
    rw [h.packs p, hfirst, ← ite_or]
    exact if_congr (hiff.trans or_comm).symm rfl rfl
  · rw [h.world, List.foldl_cons]
    rfl

theorem drains_drainDue (S : Surroundings W) (eligibleAt : Nat) (inTime : Nat → Bool) (left executed : Nat)
    (s : ConsumableState W) : Drains S s (drainDue S eligibleAt inTime left executed s).2
      (drainDue S eligibleAt inTime left executed s).1 := by
  have hidle (u : ConsumableState W) : Drains S u u [] := ⟨rfl, fun p => by simp, rfl, rfl, rfl, rfl, rfl, rfl⟩
  induction left generalizing executed s with
  | zero => exact hidle s
  | succ left ih =>
      rw [drainDue]
      split
      · split
        · exact hidle s
        · rename_i a q hpop
          exact (ih (executed + 1) _).cons hpop
      · exact hidle s

/-- How far the loop comes: up to a place below the batch budget up to which all is due and the time lasts. -/
theorem lt_length_drainDue {eligibleAt : Nat} {inTime : Nat → Bool} {left executed : Nat} {s : ConsumableState W} {i : Nat} :
    i < (drainDue S eligibleAt inTime left executed s).1.length ↔ i < left ∧ ∀ j ≤ i,
      (executed + j = 0 ∨ inTime (executed + j)) ∧ ∃ a, s.queue.actions[j]? = some a ∧ a.dueAt ≤ eligibleAt := by
  induction left generalizing executed s i with
  | zero => exact iff_of_false (Nat.not_lt_zero i) fun h => Nat.not_lt_zero i h.1
  | succ left ih =>
      rw [drainDue]
      split
      · rename_i htime
        split
        · rename_i hpop
          refine iff_of_false (Nat.not_lt_zero i) fun ⟨_, h⟩ => ?_
          obtain ⟨-, a, ha, hdue⟩ := h 0 (Nat.zero_le i)
          exact absurd (popDue_eq_none hpop ha) (Nat.not_lt.mpr hdue)
        · rename_i a q hpop
          obtain ⟨hactions, hdue, -, -, -⟩ := popDue_eq_some hpop
          cases i with
          | zero =>
              refine iff_of_true (Nat.succ_pos _) ⟨Nat.succ_pos _, fun j hj => ?_⟩
              obtain rfl := Nat.le_zero.mp hj
              exact ⟨htime, a, by rw [hactions]; rfl, hdue⟩
          | succ i =>
              rw [List.length_cons, Nat.succ_lt_succ_iff, ih, Nat.succ_lt_succ_iff]
              refine and_congr_right fun _ => ⟨fun h j hj => ?_, fun h j hj => ?_⟩
              · cases j with
                | zero => exact ⟨htime, a, by rw [hactions]; rfl, hdue⟩
                | succ j =>
                    obtain ⟨hj', b, hb, hbdue⟩ := h j (Nat.le_of_succ_le_succ hj)
                    rw [Nat.add_assoc, Nat.add_comm 1 j] at hj'
                    exact ⟨hj', b, by rw [hactions]; exact hb, hbdue⟩
              · obtain ⟨hj', b, hb, hbdue⟩ := h (j + 1) (Nat.succ_le_succ hj)
                rw [hactions] at hb
                rw [Nat.add_assoc, Nat.add_comm 1 j]
                exact ⟨hj', b, hb, hbdue⟩
      · rename_i htime
        refine iff_of_false (Nat.not_lt_zero i) fun ⟨_, h⟩ => ?_
        exact htime (h 0 (Nat.zero_le i)).1

end ConsumableState

end OpenMines
