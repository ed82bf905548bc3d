import Mathlib.Data.List.AList
import Mathlib.Data.List.Sort
import OpenMines.HubBundle
import OpenMines.PlayerRow

namespace OpenMines

/-- The sessions with an outbox, and the players near a chunk with their sessions. -/
structure Hub where
  outbox : SessionId → Bool
  nearbyPlayerSessions : UInt32 × UInt32 → List (PlayerId × SessionId)

/-- Packets in the order in which they go to outboxes. -/
abbrev Sent := List (SessionId × List UInt8)

inductive BroadcastEffect
  | direct (session : SessionId) (data : List UInt8)
  | cellUpdate (x y : Int32)
  | blockUpdate (x y : Int32)
  | nearby (chunk : UInt32 × UInt32) (data : List UInt8) (exclude : Option PlayerId)

structure MovementFanout where
  player : PlayerId
  recipients : List SessionId
  data : List UInt8
  deriving DecidableEq

/-- The events; of those that are handed on one by one, `other` holds all but the plain fanout. -/
inductive PresentationEvent (ε : Type)
  | movementFanout (m : MovementFanout)
  | worldEffects (effects : List BroadcastEffect)
  | fanout (recipients : List SessionId) (data : List UInt8)
  | other (event : ε)

/-- The sessions, and the rest of the game that deliveries read and write. -/
structure Presented (ρ : Type) where
  hub : Hub
  rest : ρ

/-- What the deliveries send that have a source of their own. -/
structure Deliveries (ρ ε : Type) where
  cellUpdate : Hub → ρ → Int32 → Int32 → ρ × Sent
  blockUpdate : Hub → ρ → Int32 → Int32 → ρ × Sent
  other : Presented ρ → ε → Presented ρ × Sent

namespace Hub

variable (hub : Hub)

def send (session : SessionId) (data : List UInt8) : Sent := if hub.outbox session then [(session, data)] else []

def fanout (recipients : List SessionId) (data : List UInt8) : Sent := recipients.flatMap fun session => hub.send session data

/-- The sessions near a chunk, but for the player that is left out. -/
def recipients (chunk : UInt32 × UInt32) (exclude : Option PlayerId) : List SessionId :=
  ((hub.nearbyPlayerSessions chunk).filter fun r => some r.1 ≠ exclude).map Prod.snd

def broadcastToNearby (chunk : UInt32 × UInt32) (data : List UInt8) (exclude : Option PlayerId) : Sent :=
  hub.fanout (hub.recipients chunk exclude) data

end Hub

section Movement

/-- The last movement of each player, with its place in the burst. -/
abbrev Latest := AList fun _ : PlayerId => Nat × List SessionId × List UInt8

/-- An event of the queue, and whether it is there when the worker asks without waiting. -/
abbrev Arrival (ε : Type) := PresentationEvent ε × Bool

variable {ε : Type}

def collectMovement : Latest → Nat → List (Arrival ε) → Latest × List (Arrival ε)
  | latest, sequence, (.movementFanout m, true) :: queue =>
      collectMovement (latest.insert m.player (sequence, m.recipients, m.data)) (sequence + 1) queue
  | latest, _, queue => (latest, queue)

/-- The updates of an uninterrupted burst, by the last of each player; a barrier stays in front of the queue. -/
def coalesceMovementBurst (first : MovementFanout) (queue : List (Arrival ε)) :
    List (List SessionId × List UInt8) × List (Arrival ε) :=
  let (latest, barrier) := collectMovement (AList.singleton first.player (0, first.recipients, first.data)) 1 queue
  (((latest.entries.map Sigma.snd).mergeSort fun a b => a.1 ≤ b.1).map Prod.snd, barrier)

end Movement

section WorldEffects

variable {ρ ε : Type} (d : Deliveries ρ ε) (hub : Hub)

abbrev HbBatches := AList fun _ : SessionId => List UInt8

def queueHb (batches : HbBatches) (session : SessionId) (payload : List UInt8) : HbBatches :=
  batches.insert session ((batches.lookup session).getD [] ++ payload)

/-- A session without an outbox is passed over. -/
def flushHb : List (Σ _ : SessionId, List UInt8) → Except String Sent
  | [] => .ok []
  | ⟨session, payload⟩ :: batches =>
      if hub.outbox session then do
        let data ← encodeHbBundle payload
        return (session, data) :: (← flushHb batches)
      else flushHb batches

def flushHbBatches (batches : HbBatches) : Except String Sent := flushHb hub batches.entries

structure EffectsState (ρ : Type) where
  rest : ρ
  hbBatches : HbBatches
  sent : Sent

def EffectsState.barrier (s : EffectsState ρ) (rest : ρ) (sent : Sent) : Except String (EffectsState ρ) := do
  return { rest, hbBatches := ∅, sent := s.sent ++ (← flushHbBatches hub s.hbBatches) ++ sent }

def deliverWorldEffect (s : EffectsState ρ) : BroadcastEffect → Except String (EffectsState ρ)
  | .direct session data => s.barrier hub s.rest (hub.send session data)
  | .cellUpdate x y =>
      let (rest, sent) := d.cellUpdate hub s.rest x y
      s.barrier hub rest sent
  | .blockUpdate x y =>
      let (rest, sent) := d.blockUpdate hub s.rest x y
      s.barrier hub rest sent
  | .nearby chunk data exclude =>
      match hbPayload data with
      | none => s.barrier hub s.rest (hub.broadcastToNearby chunk data exclude)
      | some payload =>
          .ok { s with
            hbBatches := (hub.recipients chunk exclude).foldl (fun batches r => queueHb batches r payload) s.hbBatches }

def deliverWorldEffects (rest : ρ) (effects : List BroadcastEffect) : Except String (ρ × Sent) := do
  let s ← effects.foldlM (deliverWorldEffect d hub) { rest, hbBatches := ∅, sent := [] }
  return (s.rest, s.sent ++ (← flushHbBatches hub s.hbBatches))

def worldEffectCoalesceLimit : Nat := 32

/-- The effects of the streams that follow, so many of them at most. -/
def coalesceWorldEffectBurst : Nat → List BroadcastEffect → List (Arrival ε) → List BroadcastEffect × List (Arrival ε)
  | left + 1, effects, (.worldEffects next, true) :: queue => coalesceWorldEffectBurst left (effects ++ next) queue
  | _, effects, queue => (effects, queue)

end WorldEffects

section Queue

variable {ρ ε : Type}

theorem length_collectMovement (latest : Latest) (sequence : Nat) (queue : List (Arrival ε)) :
    (collectMovement latest sequence queue).2.length ≤ queue.length := by
  fun_induction collectMovement latest sequence queue with
  | case1 latest sequence m queue ih => exact ih.trans (Nat.le_succ _)
  | case2 => exact Nat.le_refl _

theorem length_coalesceWorldEffectBurst (left : Nat) (effects : List BroadcastEffect) (queue : List (Arrival ε)) :
    (coalesceWorldEffectBurst left effects queue).2.length ≤ queue.length := by
  fun_induction coalesceWorldEffectBurst left effects queue with
  | case1 left effects next queue ih => exact ih.trans (Nat.le_succ _)
  | case2 => exact Nat.le_refl _

/-- The worker, over the events of a whole run. -/
def runDelivery (d : Deliveries ρ ε) (s : Presented ρ) : List (Arrival ε) → Except String Sent
  | [] => .ok []
  | (.movementFanout m, _) :: queue => do
      let sent ← runDelivery d s (coalesceMovementBurst m queue).2
      return (coalesceMovementBurst m queue).1.flatMap (fun f => s.hub.fanout f.1 f.2) ++ sent
  | (.worldEffects effects, _) :: queue => do
      let (rest, sent) ← deliverWorldEffects d s.hub s.rest
        (coalesceWorldEffectBurst (worldEffectCoalesceLimit - 1) effects queue).1
      let after ← runDelivery d { s with rest } (coalesceWorldEffectBurst (worldEffectCoalesceLimit - 1) effects queue).2
      return sent ++ after
  | (.fanout recipients data, _) :: queue => do
      return s.hub.fanout recipients data ++ (← runDelivery d s queue)
  | (.other event, _) :: queue => do
      return (d.other s event).2 ++ (← runDelivery d (d.other s event).1 queue)
  termination_by queue => queue.length
  decreasing_by
    all_goals simp only [List.length_cons]
    · exact Nat.lt_succ_of_le (length_collectMovement _ _ queue)
    · exact Nat.lt_succ_of_le (length_coalesceWorldEffectBurst _ _ queue)
    · exact Nat.lt_succ_self _
    · exact Nat.lt_succ_self _

end Queue

end OpenMines
