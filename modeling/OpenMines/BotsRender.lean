import Mathlib.Data.List.Dedup
import Mathlib.Data.List.Sort
import OpenMines.PackOverlay

namespace OpenMines

structure BotsRenderDue where
  dueAt : Nat
  playerId : PlayerId
  sessionToken : SessionId
  deriving DecidableEq

namespace BotsRenderDue

/-- Which entry of the heap comes first. -/
def Before (a b : BotsRenderDue) : Prop :=
  a.dueAt < b.dueAt ∨ a.dueAt = b.dueAt ∧ (a.playerId.toInt < b.playerId.toInt ∨
    a.playerId = b.playerId ∧ a.sessionToken ≤ b.sessionToken)

instance : DecidableRel Before := fun a b =>
  inferInstanceAs (Decidable (a.dueAt < b.dueAt ∨ a.dueAt = b.dueAt ∧ (a.playerId.toInt < b.playerId.toInt ∨
    a.playerId = b.playerId ∧ a.sessionToken ≤ b.sessionToken)))

end BotsRenderDue

/-- The heap, the earliest entry first. -/
abbrev BotsRenderSchedule := List BotsRenderDue

namespace BotsRenderSchedule

def schedule (s : BotsRenderSchedule) (due : BotsRenderDue) : BotsRenderSchedule :=
  s.orderedInsert BotsRenderDue.Before due

/-- The entries that are due, at most `limit` of them, without those of sessions that are not active any more. -/
def takeDue (active : PlayerId → Option SessionId) (now : Nat) :
    BotsRenderSchedule → Nat → List BotsRenderDue × BotsRenderSchedule
  | s, 0 => ([], s)
  | [], _ + 1 => ([], [])
  | due :: rest, limit + 1 =>
      if now < due.dueAt then ([], due :: rest)
      else if active due.playerId = some due.sessionToken then
        (due :: (takeDue active now rest limit).1, (takeDue active now rest limit).2)
      else takeDue active now rest (limit + 1)

/-- An entry of a session that is not active any more is dropped. -/
def reschedule (active : PlayerId → Option SessionId) (s : BotsRenderSchedule) (due : BotsRenderDue)
    (nextAt : Nat) : BotsRenderSchedule :=
  if active due.playerId = some due.sessionToken then s.schedule { due with dueAt := nextAt } else s

end BotsRenderSchedule

structure BotsRenderObserver where
  due : BotsRenderDue
  center : ChunkPos

structure BotsRenderSnapshotItem where
  playerId : Option PlayerId
  packet : List UInt8

structure BotsRenderBatchResult where
  completed : List BotsRenderDue
  deferred : List BotsRenderDue
  observersSent : Nat
  bytesEnqueued : Nat
  deliveries : List (SessionId × PlayerId × Except String (List UInt8))

/-- A sum of two lengths of 64 bits. -/
def usizeSaturatingAdd (a b : Nat) : Nat := min (a + b) 18446744073709551615

namespace OverlayWorld

variable (s : OverlayWorld)

/-- A player whose session is still its own, and the chunk that it is in. -/
def botsRenderObserver (due : BotsRenderDue) : Option BotsRenderObserver :=
  match s.bot due.playerId with
  | none => none
  | some player =>
      if s.session due.playerId = some due.sessionToken then some ⟨due, chunkPos player.pos⟩ else none

def botsRenderItems (c : ChunkPos) : List BotsRenderSnapshotItem :=
  (s.playersInChunk c).filterMap (fun player => (s.bot player).map fun bot => ⟨some player, bot.packet.bytes⟩) ++
    (s.botspotsInChunk c).map fun spot => ⟨none, spot.spotPacket.bytes⟩

def visibleChunks (c : ChunkPos) : List ChunkPos := visibleChunksAround s.chunksW s.chunksH c

def neededChunks (observers : List BotsRenderObserver) : List ChunkPos :=
  (observers.flatMap fun observer => s.visibleChunks observer.center).dedup

def chunkCache (observers : List BotsRenderObserver) (c : ChunkPos) : Option (List BotsRenderSnapshotItem) :=
  ((s.neededChunks observers).find? fun needed => needed = c).map s.botsRenderItems

/-- What an observer is shown: all that is in the chunks that it sees, itself apart. -/
def shownItems (cache : ChunkPos → Option (List BotsRenderSnapshotItem)) (observer : BotsRenderObserver) :
    List BotsRenderSnapshotItem :=
  (((s.visibleChunks observer.center).filterMap cache).flatten).filter fun item =>
    item.playerId ≠ some observer.due.playerId

/-- The loop over the observers, which the budget can end. -/
def renderObservers (cache : ChunkPos → Option (List BotsRenderSnapshotItem)) (byteBudget : Nat) :
    List BotsRenderObserver → BotsRenderBatchResult → BotsRenderBatchResult
  | [], result => result
  | observer :: observers, result =>
      let payload := (s.shownItems cache observer).flatMap BotsRenderSnapshotItem.packet
      let wireLen := usizeSaturatingAdd payload.length 7
      if 0 < result.observersSent ∧ byteBudget < usizeSaturatingAdd result.bytesEnqueued wireLen then
        { result with
          deferred := result.deferred ++ (observer :: observers).map BotsRenderObserver.due }
      else
        renderObservers cache byteBudget observers
          { (if 0 < payload.length then
              { result with
                deliveries := result.deliveries ++
                  [(observer.due.sessionToken, observer.due.playerId, encodeHbBundle payload)]
                observersSent := result.observersSent + 1
                bytesEnqueued := usizeSaturatingAdd result.bytesEnqueued wireLen }
            else result) with
            completed := result.completed ++ [observer.due] }

def botsRenderBatch (due : List BotsRenderDue) (byteBudget : Nat) : BotsRenderBatchResult :=
  let observers := due.filterMap s.botsRenderObserver
  s.renderObservers (s.chunkCache observers) byteBudget observers
    { completed := []
      deferred := due.filter fun due => s.botsRenderObserver due = none
      observersSent := 0
      bytesEnqueued := 0
      deliveries := [] }

end OverlayWorld

namespace OverlayWorld

variable (s : OverlayWorld) {cache : ChunkPos → Option (List BotsRenderSnapshotItem)} {byteBudget : Nat}
  {observers : List BotsRenderObserver} {result : BotsRenderBatchResult}

theorem due_of_botsRenderObserver {due : BotsRenderDue} {observer : BotsRenderObserver}
    (h : s.botsRenderObserver due = some observer) : observer.due = due := by
  rw [botsRenderObserver] at h
  split at h
  · cases h
  · split at h
    · cases h
      rfl
    · cases h

/-- The entries are those of the observers and those without one. -/
theorem observers_perm (due : List BotsRenderDue) :
    ((due.filter fun due => s.botsRenderObserver due = none) ++
      (due.filterMap s.botsRenderObserver).map BotsRenderObserver.due).Perm due := by
  induction due with
  | nil => exact .refl []
  | cons first due ih =>
      cases hfirst : s.botsRenderObserver first with
      | none =>
          rw [List.filter_cons_of_pos (by simpa using hfirst), List.filterMap_cons_none hfirst]
          exact ih.cons first
      | some observer =>
          rw [List.filter_cons_of_neg (by simp [hfirst]), List.filterMap_cons_some hfirst, List.map_cons,
            s.due_of_botsRenderObserver hfirst]
          exact List.perm_middle.trans (ih.cons first)

/-- Each entry is completed or deferred: by induction on the observers, what is left goes with the deferred ones. -/
theorem renderObservers_perm (cache : ChunkPos → Option (List BotsRenderSnapshotItem)) (byteBudget : Nat)
    (observers : List BotsRenderObserver) (result : BotsRenderBatchResult) :
    ((s.renderObservers cache byteBudget observers result).completed ++
      (s.renderObservers cache byteBudget observers result).deferred).Perm
      (result.completed ++ (result.deferred ++ observers.map BotsRenderObserver.due)) := by
  induction observers generalizing result with
  | nil =>
      rw [List.map_nil, List.append_nil]
      exact .refl _
  | cons observer observers ih =>
      rw [renderObservers]
      dsimp only
      split
      · exact .refl _
      · refine (ih _).trans ?_
        dsimp only
        rw [List.append_assoc]
        refine List.Perm.append_left _ ?_
        rw [List.map_cons]
        split
        · exact (@List.perm_middle _ observer.due result.deferred _).symm
        · exact (@List.perm_middle _ observer.due result.deferred _).symm

/-- The budget is exceeded by the first observer only. -/
def Bounded (byteBudget : Nat) (result : BotsRenderBatchResult) : Prop :=
  (result.observersSent = 0 → result.bytesEnqueued = 0) ∧
    (byteBudget < result.bytesEnqueued → result.observersSent = 1)

theorem bounded_renderObservers (observers : List BotsRenderObserver) (h : Bounded byteBudget result) :
    Bounded byteBudget (s.renderObservers cache byteBudget observers result) := by
  induction observers generalizing result with
  | nil => exact h
  | cons observer observers ih =>
      rw [renderObservers]
      dsimp only
      split
      · exact h
      · rename_i hgoes
        refine ih ?_
        split
        · rw [not_and_or] at hgoes
          refine ⟨fun hzero => absurd hzero (Nat.succ_ne_zero _), fun hover => ?_⟩
          rcases hgoes with hfirst | hfits
          · show result.observersSent + 1 = 1
            omega
          · exact absurd hover hfits
        · exact h

/-- The batch completes or defers each entry, and only a single view exceeds the budget. -/
theorem botsRenderBatch_spec (due : List BotsRenderDue) (byteBudget : Nat) :
    ((s.botsRenderBatch due byteBudget).completed ++ (s.botsRenderBatch due byteBudget).deferred).Perm due ∧
      (byteBudget < (s.botsRenderBatch due byteBudget).bytesEnqueued →
        (s.botsRenderBatch due byteBudget).observersSent = 1) := by
  constructor
  · refine (s.renderObservers_perm _ byteBudget _ _).trans ?_
    rw [List.nil_append]
    exact s.observers_perm due
  · exact (s.bounded_renderObservers _ ⟨fun _ => rfl, fun hover => absurd hover (Nat.not_lt_zero _)⟩).2

end OverlayWorld

end OpenMines
