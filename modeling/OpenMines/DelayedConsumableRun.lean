import OpenMines.DelayedConsumables
import OpenMines.Lib.Run

namespace OpenMines

open Lib Lib.Run Lib.DelayQueue

/-- The shared state, with all that has been admitted, and all that has been applied and when. -/
structure ConsumableRun (W : Type) extends ConsumableState W where
  admitted : List ScheduledDueAction
  applied : List (Nat × ScheduledDueAction)

/-- Each event comes some time after the one before; `elsewhere` is any work of the rest of the server. -/
inductive ConsumableEvent (W : Type)
  | use (player : PlayerId) (elapsed publishedAfter : Nat)
  | phase (elapsed batchBudget : Nat) (inTime : Nat → Bool)
  | elsewhere (elapsed : Nat) (world : W) (inventories : PlayerId → Option UserInventory)
      (lastInventoryUse : PlayerId → Option Nat)

namespace ConsumableRun

variable {W : Type} (S : Surroundings W) (r : ConsumableRun W)

def wait (elapsed : Nat) : ConsumableState W := { r.toConsumableState with now := r.now + elapsed }

def next : ConsumableEvent W → ConsumableRun W
  | .use player elapsed publishedAfter =>
    let used := (r.wait elapsed).handleInventoryUse S player publishedAfter
    ⟨used.1, r.admitted ++ used.2.toList, r.applied⟩
  | .phase elapsed batchBudget inTime =>
    let drained := (r.wait elapsed).runDueActionPhase S batchBudget inTime
    ⟨drained.2, r.admitted, r.applied ++ drained.1.map fun a => (r.now + elapsed, a)⟩
  | .elsewhere elapsed world inventories lastInventoryUse =>
    ⟨{ r.wait elapsed with
      world
      inventories
      lastInventoryUse }, r.admitted, r.applied⟩

def step (e : ConsumableEvent W) : Option (ConsumableRun W) := some (r.next S e)

def start (capacity now : Nat) (world : W) (inventories : PlayerId → Option UserInventory)
    (lastInventoryUse : PlayerId → Option Nat) : ConsumableRun W where
  now := now
  world := world
  inventories := inventories
  lastInventoryUse := lastInventoryUse
  consumablePacks := fun _ => none
  queue := ⟨[], capacity, 0, 0⟩
  admitted := []
  applied := []

/-- Each admitted action is applied or pending, and that once; none is applied before it is due, nor after one that
comes later; and the queue holds no reservation, and no more than it may. -/
structure Exact : Prop where
  once : (r.applied.map Prod.snd ++ r.queue.actions).Perm r.admitted
  distinct : (r.admitted.map Entry.sequence).Nodup
  timely : ∀ done ∈ r.applied, done.2.dueAt ≤ done.1
  ordered : (r.applied.map Prod.snd ++ r.queue.actions).Pairwise Before
  idle : r.queue.reserved = 0
  room : r.queue.actions.length ≤ r.queue.capacity

structure Sound : Prop extends r.Exact where
  past : ∀ done ∈ r.applied, done.1 ≤ r.now
  fresh : ∀ a ∈ r.admitted, a.sequence < r.queue.nextSequence

/-- A cell has an overlay just when an admitted action of it has not been applied. -/
def Overlays : Prop :=
  ∀ p, (r.consumablePacks p).isSome ↔ ∃ a ∈ r.admitted, a ∉ r.applied.map Prod.snd ∧ a.action.center = p

/-- What an event does: a use is refused or admits one action, and a phase applies what it takes from the queue. -/
def Outcome : ConsumableEvent W → Prop
  | .use player elapsed publishedAfter =>
    let t := r.next S (.use player elapsed publishedAfter)
    (t.admitted = r.admitted ∧ (r.wait elapsed).Refuses t.toConsumableState) ∨
      ∃ a, t.admitted = r.admitted ++ [a] ∧ ConsumableState.Admits S (r.wait elapsed) t.toConsumableState player a
  | .phase elapsed batchBudget inTime =>
    let t := r.next S (.phase elapsed batchBudget inTime)
    ∃ done, t.applied = r.applied ++ done.map (fun a => (r.now + elapsed, a)) ∧
      ConsumableState.Drains S (r.wait elapsed) t.toConsumableState done
  | .elsewhere _ _ _ _ => True

/-- A phase at or after an instant, that applies at least one action when one is due. -/
def Ready (dueAt : Nat) : ConsumableEvent W → Bool
  | .phase elapsed batchBudget _ => decide (dueAt ≤ r.now + elapsed ∧ 0 < batchBudget)
  | _ => false

def readyPhases (dueAt : Nat) : ConsumableRun W → List (ConsumableEvent W) → Nat
  | _, [] => 0
  | r, e :: es => (if r.Ready dueAt e then 1 else 0) + readyPhases dueAt (r.next S e) es

/-- What is pending has been applied after as many phases as the queue has places. -/
def Live : Prop :=
  ∀ a ∈ r.queue.actions, ∀ es t, run (step S) r es = some t → r.queue.capacity ≤ readyPhases S a.dueAt r es →
    a ∈ t.applied.map Prod.snd

/-- The place of the queue up to which a phase comes. -/
def Reached (elapsed batchBudget : Nat) (inTime : Nat → Bool) (i : Nat) : Prop :=
  i < batchBudget ∧ ∀ j ≤ i, (j = 0 ∨ inTime j) ∧ ∃ a, r.queue.actions[j]? = some a ∧ a.dueAt ≤ r.now + elapsed

/-- No action that a phase applies has the cell of one that it leaves. -/
def Clears : ConsumableEvent W → Prop
  | .phase elapsed batchBudget inTime =>
    ∀ i j a b, r.queue.actions[i]? = some a → r.queue.actions[j]? = some b →
      r.Reached elapsed batchBudget inTime i → ¬ r.Reached elapsed batchBudget inTime j →
      a.action.center ≠ b.action.center
  | _ => True

section Steps

variable {S r} {t : ConsumableRun W} {a : ScheduledDueAction} {player : PlayerId} {elapsed : Nat}

theorem outcome (e : ConsumableEvent W) : r.Outcome S e := by
  cases e with
  | use player elapsed publishedAfter =>
      rcases ConsumableState.handleInventoryUse_spec S (r.wait elapsed) player publishedAfter with
        ⟨t, ht, hrefuses⟩ | ⟨t, a, ht, hadmits⟩
      · refine .inl ⟨?_, ?_⟩
        · rw [next, ht]
          exact List.append_nil _
        · rw [next, ht]
          exact hrefuses
      · refine .inr ⟨a, ?_, ?_⟩
        · rw [next, ht]
          rfl
        · rw [next, ht]
          exact hadmits
  | phase elapsed batchBudget inTime =>
      exact ⟨((r.wait elapsed).runDueActionPhase S batchBudget inTime).1, rfl, ConsumableState.drains_drainDue _ _ _ _ _ _⟩
  | elsewhere => trivial

theorem Sound.congr (h : r.Sound) (hadmitted : t.admitted = r.admitted) (happlied : t.applied = r.applied)
    (hactions : t.queue.actions = r.queue.actions) (hreserved : t.queue.reserved = r.queue.reserved)
    (hcapacity : t.queue.capacity = r.queue.capacity) (hsequence : r.queue.nextSequence ≤ t.queue.nextSequence)
    (hnow : r.now ≤ t.now) : t.Sound where
  once := by
    rw [hadmitted, happlied, hactions]
    exact h.once
  distinct := hadmitted ▸ h.distinct
  timely := happlied ▸ h.timely
  ordered := by
    rw [happlied, hactions]
    exact h.ordered
  idle := hreserved.trans h.idle
  room := by
    rw [hactions, hcapacity]
    exact h.room
  past := fun done hdone => (h.past done (happlied ▸ hdone)).trans hnow
  fresh := fun a ha => (h.fresh a (hadmitted ▸ ha)).trans_le hsequence

theorem Sound.mem_admitted (h : r.Sound) (ha : a ∈ r.queue.actions) : a ∈ r.admitted :=
  h.once.mem_iff.mp (List.mem_append_right _ ha)

theorem Sound.admit (h : r.Sound) (hadmitted : t.admitted = r.admitted ++ [a]) (happlied : t.applied = r.applied)
    (hadmits : ConsumableState.Admits S (r.wait elapsed) t.toConsumableState player a) : t.Sound := by
  obtain ⟨inv, kind, -, -, -, -, hdue, -, -⟩ := hadmits.paid
  have hpos := kind.delay_pos
  have hnow : r.now + elapsed ≤ t.now := hadmits.now
  have hactions : t.queue.actions = DelayQueue.insert a r.queue.actions := hadmits.actions
  have hsequence : a.sequence = r.queue.nextSequence := hadmits.sequence.1
  have hnext : t.queue.nextSequence = r.queue.nextSequence + 1 := hadmits.sequence.2
  have hlt : ∀ b ∈ r.admitted, b.sequence < a.sequence := fun b hb => hsequence ▸ h.fresh b hb
  have hfresh : Fresh a.sequence r.queue.actions := fun b hb => (hlt b (h.mem_admitted hb)).ne
  have hperm : t.queue.actions.Perm (a :: r.queue.actions) := hactions ▸ perm_insert hfresh
  obtain ⟨hdone, hpending, hcross⟩ := List.pairwise_append.mp h.ordered
  constructor
  · constructor
    · rw [happlied, hadmitted]
      have hfirst : (r.applied.map Prod.snd ++ t.queue.actions).Perm (a :: (r.applied.map Prod.snd ++ r.queue.actions)) :=
        (hperm.append_left _).trans List.perm_middle
      exact hfirst.trans ((h.once.cons a).trans (List.perm_append_singleton a r.admitted).symm)
    · rw [hadmitted, List.map_append, List.map_singleton]
      refine h.distinct.append (List.nodup_singleton _) (List.disjoint_singleton.mpr fun hmem => ?_)
      obtain ⟨b, hb, heq⟩ := List.mem_map.mp hmem
      exact (hlt b hb).ne heq
    · exact happlied ▸ h.timely
    · rw [happlied, List.pairwise_append, hactions]
      refine ⟨hdone, pairwise_insert hfresh hpending, fun b hb c hc => ?_⟩
      cases List.mem_cons.mp ((perm_insert hfresh).mem_iff.mp hc) with
      | inl heq =>
          obtain ⟨done, hmem, rfl⟩ := List.mem_map.mp hb
          have htimely := h.timely done hmem
          have hpast := h.past done hmem
          exact heq ▸ .inl (by omega)
      | inr hmem => exact hcross b hb c hmem
    · exact hadmits.reserved.trans h.idle
    · have hroom : r.queue.actions.length + r.queue.reserved < r.queue.capacity := hadmits.room
      have hcapacity : t.queue.capacity = r.queue.capacity := hadmits.capacity
      rw [hperm.length_eq, List.length_cons, hcapacity]
      omega
  · intro done hmem
    have := h.past done (happlied ▸ hmem)
    omega
  · intro b hb
    rw [hadmitted] at hb
    cases List.mem_append.mp hb with
    | inl hold =>
        have := hlt b hold
        omega
    | inr hnew =>
        obtain rfl := List.mem_singleton.mp hnew
        omega

theorem lt_length_iff_reached {batchBudget : Nat} {inTime : Nat → Bool} {i : Nat} :
    i < ((r.wait elapsed).runDueActionPhase S batchBudget inTime).1.length ↔ r.Reached elapsed batchBudget inTime i := by
  rw [ConsumableState.runDueActionPhase, ConsumableState.lt_length_drainDue, Reached]
  simp only [Nat.zero_add]
  rfl

theorem drains (S : Surroundings W) (r : ConsumableRun W) (elapsed batchBudget : Nat) (inTime : Nat → Bool) :
    ConsumableState.Drains S (r.wait elapsed) ((r.wait elapsed).runDueActionPhase S batchBudget inTime).2
      ((r.wait elapsed).runDueActionPhase S batchBudget inTime).1 :=
  ConsumableState.drains_drainDue _ _ _ _ _ _

theorem dueAt_le_of_mem {batchBudget : Nat} {inTime : Nat → Bool}
    (ha : a ∈ ((r.wait elapsed).runDueActionPhase S batchBudget inTime).1) : a.dueAt ≤ r.now + elapsed := by
  obtain ⟨i, hi⟩ := List.mem_iff_getElem?.mp ha
  have hlt := (List.getElem?_eq_some_iff.mp hi).1
  obtain ⟨-, b, hb, hdue⟩ := (lt_length_iff_reached.mp hlt).2 i le_rfl
  have hactions : r.queue.actions = _ ++ _ := (drains S r elapsed batchBudget inTime).actions
  rw [hactions, List.getElem?_append_left hlt, hi] at hb
  exact Option.some.inj hb ▸ hdue

theorem Sound.next (h : r.Sound) (e : ConsumableEvent W) : (r.next S e).Sound := by
  cases e with
  | use player elapsed publishedAfter =>
      rcases r.outcome (S := S) (.use player elapsed publishedAfter) with ⟨hadmitted, hrefuses⟩ | ⟨a, hadmitted, hadmits⟩
      · refine h.congr hadmitted rfl hrefuses.actions hrefuses.reserved hrefuses.capacity hrefuses.sequence ?_
        rw [hrefuses.now]
        exact Nat.le_add_right _ _
      · exact h.admit hadmitted rfl hadmits
  | phase elapsed batchBudget inTime =>
      have hdrains := drains S r elapsed batchBudget inTime
      have hactions : r.queue.actions = _ ++ _ := hdrains.actions
      have hnow : (r.next S (.phase elapsed batchBudget inTime)).now = r.now + elapsed := hdrains.now
      have happlied : (r.next S (.phase elapsed batchBudget inTime)).applied.map Prod.snd ++
          (r.next S (.phase elapsed batchBudget inTime)).queue.actions = r.applied.map Prod.snd ++ r.queue.actions := by
        rw [hactions, ConsumableRun.next, List.map_append, List.map_map, List.append_assoc]
        exact congrArg (fun done => _ ++ (done ++ _)) (List.map_id _)
      constructor
      · constructor
        · rw [happlied]
          exact h.once
        · exact h.distinct
        · intro done hdone
          cases List.mem_append.mp hdone with
          | inl hold => exact h.timely done hold
          | inr hnew =>
              obtain ⟨a, ha, rfl⟩ := List.mem_map.mp hnew
              exact dueAt_le_of_mem ha
        · rw [happlied]
          exact h.ordered
        · exact hdrains.reserved.trans h.idle
        · have hroom := h.room
          have hcapacity : (r.next S (.phase elapsed batchBudget inTime)).queue.capacity = r.queue.capacity :=
            hdrains.capacity
          rw [hactions, List.length_append] at hroom
          rw [hcapacity]
          exact (Nat.le_add_left _ _).trans hroom
      · intro done hdone
        rw [hnow]
        cases List.mem_append.mp hdone with
        | inl hold => exact (h.past done hold).trans (Nat.le_add_right _ _)
        | inr hnew =>
            obtain ⟨a, ha, rfl⟩ := List.mem_map.mp hnew
            exact le_rfl
      · intro a ha
        exact (h.fresh a ha).trans_le hdrains.sequence.ge
  | elsewhere elapsed world inventories lastInventoryUse =>
      exact h.congr rfl rfl rfl rfl rfl le_rfl (Nat.le_add_right _ _)

end Steps

/-! ### The overlays -/

section Overlays

variable {S r} {t : ConsumableRun W} {a : ScheduledDueAction} {player : PlayerId} {elapsed : Nat}

theorem Sound.pending_iff (h : r.Sound) :
    a ∈ r.admitted ∧ a ∉ r.applied.map Prod.snd ↔ a ∈ r.queue.actions := by
  constructor
  · rintro ⟨hadmitted, hnot⟩
    exact (List.mem_append.mp (h.once.mem_iff.mpr hadmitted)).resolve_left hnot
  · intro ha
    refine ⟨h.mem_admitted ha, fun hdone => ?_⟩
    exact Before.irrefl a ((List.pairwise_append.mp h.ordered).2.2 a hdone a ha)

theorem Sound.overlays_iff (h : r.Sound) :
    r.Overlays ↔ ∀ p, (r.consumablePacks p).isSome ↔ ∃ a ∈ r.queue.actions, a.action.center = p := by
  refine forall_congr' fun p => iff_congr Iff.rfl (exists_congr fun a => ?_)
  rw [← and_assoc, h.pending_iff]

theorem Sound.overlays_congr (h : r.Sound) (hr : r.Overlays) (ht : t.Sound)
    (hpacks : t.consumablePacks = r.consumablePacks) (hactions : t.queue.actions = r.queue.actions) : t.Overlays := by
  rw [ht.overlays_iff, hpacks, hactions]
  exact h.overlays_iff.mp hr

theorem Sound.overlays_admit (h : r.Sound) (hr : r.Overlays) (ht : t.Sound)
    (hadmits : ConsumableState.Admits S (r.wait elapsed) t.toConsumableState player a) : t.Overlays := by
  obtain ⟨inv, kind, -, -, -, -, -, -, hpacks⟩ := hadmits.paid
  have hsequence : a.sequence = r.queue.nextSequence := hadmits.sequence.1
  have hfresh : Fresh a.sequence r.queue.actions := fun b hb => hsequence ▸ (h.fresh b (h.mem_admitted hb)).ne
  rw [ht.overlays_iff]
  intro p
  have hmem : (∃ b ∈ t.queue.actions, b.action.center = p) ↔
      a.action.center = p ∨ ∃ b ∈ r.queue.actions, b.action.center = p := by
    have hperm : t.queue.actions.Perm (a :: r.queue.actions) := hadmits.actions ▸ perm_insert hfresh
    simp only [hperm.mem_iff]
    exact List.exists_mem_cons_iff _ _ _
  rw [hmem, hpacks]
  by_cases hp : a.action.center = p
  · subst hp
    rw [Function.update_self]
    exact iff_of_true rfl (.inl rfl)
  · rw [Function.update_of_ne (Ne.symm hp), or_iff_right hp]
    exact h.overlays_iff.mp hr p

theorem clears_iff {batchBudget : Nat} {inTime : Nat → Bool} :
    r.Clears (.phase elapsed batchBudget inTime) ↔
      ∀ a ∈ ((r.wait elapsed).runDueActionPhase S batchBudget inTime).1,
        ∀ b ∈ (r.next S (.phase elapsed batchBudget inTime)).queue.actions, a.action.center ≠ b.action.center := by
  have hactions : r.queue.actions = _ ++ _ := (drains S r elapsed batchBudget inTime).actions
  constructor
  · intro h a ha b hb
    obtain ⟨i, hi⟩ := List.mem_iff_getElem?.mp ha
    obtain ⟨j, hj⟩ := List.mem_iff_getElem?.mp hb
    have hlt := (List.getElem?_eq_some_iff.mp hi).1
    have hdone : r.queue.actions[i]? = some a := by
      rw [hactions, List.getElem?_append_left hlt]
      exact hi
    have hleft : r.queue.actions[((r.wait elapsed).runDueActionPhase S batchBudget inTime).1.length + j]? = some b := by
      rw [hactions, List.getElem?_append_right (Nat.le_add_right _ j), Nat.add_sub_cancel_left]
      exact hj
    refine h i _ a b hdone hleft (lt_length_iff_reached.mp hlt) fun hreached => ?_
    exact Nat.not_lt.mpr (Nat.le_add_right _ j) (lt_length_iff_reached.mpr hreached)
  · intro h i j a b hi hj hreached hnot
    have hlt := lt_length_iff_reached (S := S).mpr hreached
    have hle := Nat.not_lt.mp fun hlt => hnot ((lt_length_iff_reached (S := S)).mp hlt)
    rw [hactions, List.getElem?_append_left hlt] at hi
    rw [hactions, List.getElem?_append_right hle] at hj
    exact h a (List.mem_of_getElem? hi) b (List.mem_of_getElem? hj)

theorem Sound.overlays_phase (h : r.Sound) (hr : r.Overlays) {batchBudget : Nat} {inTime : Nat → Bool} :
    (r.next S (.phase elapsed batchBudget inTime)).Overlays ↔ r.Clears (.phase elapsed batchBudget inTime) := by
  have hdrains := drains S r elapsed batchBudget inTime
  have hactions : r.queue.actions = _ ++ _ := hdrains.actions
  have hold := h.overlays_iff.mp hr
  rw [(h.next (.phase elapsed batchBudget inTime)).overlays_iff, clears_iff]
  constructor
  · intro hnew a ha b hb heq
    have hsome := (hnew b.action.center).mpr ⟨b, hb, rfl⟩
    have hpack := hdrains.packs b.action.center
    rw [if_pos ⟨a, ha, heq⟩] at hpack
    rw [ConsumableRun.next, hpack] at hsome
    cases hsome
  · intro hclears p
    have hpack : (r.next S (.phase elapsed batchBudget inTime)).consumablePacks p = _ := hdrains.packs p
    rw [hpack]
    split
    · rename_i hdone
      obtain ⟨a, ha, rfl⟩ := hdone
      exact iff_of_false (by simp) fun ⟨b, hb, heq⟩ => hclears a ha b hb heq.symm
    · rename_i hnone
      have hpacks : (r.wait elapsed).consumablePacks p = r.consumablePacks p := rfl
      rw [hpacks, hold p, hactions]
      simp only [List.mem_append, or_and_right, exists_or]
      exact or_iff_right hnone

theorem Sound.overlays_next (h : r.Sound) (hr : r.Overlays) (e : ConsumableEvent W) :
    (r.next S e).Overlays ↔ r.Clears e := by
  have hnext := h.next (S := S) e
  cases e with
  | use player elapsed publishedAfter =>
      refine iff_of_true ?_ trivial
      rcases r.outcome (S := S) (.use player elapsed publishedAfter) with ⟨-, hrefuses⟩ | ⟨a, -, hadmits⟩
      · exact h.overlays_congr hr hnext hrefuses.packs hrefuses.actions
      · exact h.overlays_admit hr hnext hadmits
  | phase elapsed batchBudget inTime => exact h.overlays_phase hr
  | elsewhere => exact iff_of_true (h.overlays_congr hr hnext rfl rfl) trivial

end Overlays

/-! ### What is pending is applied -/

section Progress

variable {S r} {t : ConsumableRun W} {a : ScheduledDueAction} {es : List (ConsumableEvent W)}

theorem capacity_next (e : ConsumableEvent W) : (r.next S e).queue.capacity = r.queue.capacity := by
  cases e with
  | use player elapsed publishedAfter =>
      rcases r.outcome (S := S) (.use player elapsed publishedAfter) with ⟨-, hrefuses⟩ | ⟨a, -, hadmits⟩
      · exact hrefuses.capacity
      · exact hadmits.capacity
  | phase elapsed batchBudget inTime => exact (drains S r elapsed batchBudget inTime).capacity
  | elsewhere => rfl

theorem now_le_next (e : ConsumableEvent W) : r.now ≤ (r.next S e).now := by
  cases e with
  | use player elapsed publishedAfter =>
      rcases r.outcome (S := S) (.use player elapsed publishedAfter) with ⟨-, hrefuses⟩ | ⟨a, -, hadmits⟩
      · exact (Nat.le_add_right _ _).trans hrefuses.now.ge
      · exact (Nat.le_add_right _ _).trans hadmits.now
  | phase elapsed batchBudget inTime =>
      exact (Nat.le_add_right _ _).trans (drains S r elapsed batchBudget inTime).now.ge
  | elsewhere => exact Nat.le_add_right _ _

theorem mem_applied_next (ha : a ∈ r.applied.map Prod.snd) (e : ConsumableEvent W) :
    a ∈ (r.next S e).applied.map Prod.snd := by
  cases e with
  | use | elsewhere => exact ha
  | phase => exact List.map_append ▸ List.mem_append_left _ ha

theorem mem_applied_run (ha : a ∈ r.applied.map Prod.snd) (h : run (step S) r es = some t) :
    a ∈ t.applied.map Prod.snd := by
  refine run_preserves (P := fun u => a ∈ u.applied.map Prod.snd) ha (fun e _ u v hu hv => ?_) h
  obtain rfl := Option.some.inj hv
  exact mem_applied_next hu e

theorem Sound.exists_drained (h : r.Sound) (ha : a ∈ r.queue.actions) {elapsed batchBudget : Nat} {inTime : Nat → Bool}
    (hready : a.dueAt ≤ r.now + elapsed ∧ 0 < batchBudget) :
    ∃ b, b ∈ ((r.wait elapsed).runDueActionPhase S batchBudget inTime).1 := by
  have hsorted := (List.pairwise_append.mp h.ordered).2.1
  obtain ⟨⟨c, rest⟩, hpop⟩ := Option.isSome_iff_exists.mp (isSome_popDue hsorted ha hready.1)
  obtain ⟨hactions, hdue⟩ := popDue_eq_some.mp hpop
  have hreached : r.Reached elapsed batchBudget inTime 0 := by
    refine ⟨hready.2, fun j hj => ?_⟩
    obtain rfl := Nat.le_zero.mp hj
    exact ⟨.inl rfl, c, by rw [hactions]; rfl, hdue⟩
  exact List.length_pos_iff_exists_mem.mp (lt_length_iff_reached.mpr hreached)

/-- What is ahead of a pending action when it is due, is less after each phase that comes, and never more. -/
theorem Sound.pending_next (h : r.Sound) (ha : a ∈ r.queue.actions) (e : ConsumableEvent W) :
    a ∈ (r.next S e).applied.map Prod.snd ∨ a ∈ (r.next S e).queue.actions ∧
      (a.dueAt ≤ r.now ∨ r.Ready a.dueAt e = true → a.dueAt ≤ (r.next S e).now ∧
        ahead a (r.next S e).queue.actions + (if r.Ready a.dueAt e then 1 else 0) ≤ ahead a r.queue.actions) := by
  have hlater (hdue : a.dueAt ≤ r.now) : a.dueAt ≤ (r.next S e).now := hdue.trans (now_le_next e)
  cases e with
  | use player elapsed publishedAfter =>
      rcases r.outcome (S := S) (.use player elapsed publishedAfter) with ⟨-, hrefuses⟩ | ⟨b, -, hadmits⟩
      · have hactions : _ = r.queue.actions := hrefuses.actions
        refine .inr ⟨hactions ▸ ha, fun hdue => ?_⟩
        have hdue := hdue.resolve_right (Bool.false_ne_true)
        refine ⟨hlater hdue, ?_⟩
        rw [hactions]
        exact le_rfl
      · obtain ⟨inv, kind, -, -, -, -, hbdue, -, -⟩ := hadmits.paid
        have hsequence : b.sequence = r.queue.nextSequence := hadmits.sequence.1
        have hfresh : Fresh b.sequence r.queue.actions :=
          fun c hc => hsequence ▸ (h.fresh c (h.mem_admitted hc)).ne
        have hperm : (r.next S (.use player elapsed publishedAfter)).queue.actions.Perm (b :: r.queue.actions) :=
          hadmits.actions ▸ perm_insert hfresh
        refine .inr ⟨hperm.mem_iff.mpr (List.mem_cons_of_mem _ ha), fun hdue => ?_⟩
        have hdue := hdue.resolve_right (Bool.false_ne_true)
        have hnot : ¬ Before b a := by
          have hnow := hlater hdue
          have hpos := kind.delay_pos
          rw [Before]
          omega
        refine ⟨hlater hdue, ?_⟩
        rw [ahead_perm hperm, ahead_cons_of_not_before hnot]
        exact le_rfl
  | phase elapsed batchBudget inTime =>
      have hdrains := drains S r elapsed batchBudget inTime
      have hactions : r.queue.actions = _ ++ _ := hdrains.actions
      rw [hactions] at ha
      cases List.mem_append.mp ha with
      | inl hdone =>
          refine .inl ?_
          rw [ConsumableRun.next, List.map_append, List.map_map]
          exact List.mem_append_right _ (List.mem_map.mpr ⟨a, hdone, rfl⟩)
      | inr hleft =>
          refine .inr ⟨hleft, fun hdue => ⟨?_, ?_⟩⟩
          · cases hdue with
            | inl hdue => exact hlater hdue
            | inr hready => exact (of_decide_eq_true hready).1.trans hdrains.now.ge
          · have hleftQueue : ahead a r.queue.actions = _ := hactions ▸ ahead_append
            have hnextQueue : (r.next S (.phase elapsed batchBudget inTime)).queue.actions = _ := rfl
            rw [hleftQueue, hnextQueue, Nat.add_comm]
            refine Nat.add_le_add_right ?_ _
            split
            · rename_i hready
              obtain ⟨b, hb⟩ := h.exists_drained (S := S) (hactions ▸ ha) (of_decide_eq_true hready)
              have hsorted := (List.pairwise_append.mp h.ordered).2.1
              rw [hactions] at hsorted
              exact ahead_pos ⟨b, hb, (List.pairwise_append.mp hsorted).2.2 b hb a hleft⟩
            · exact Nat.zero_le _
  | elsewhere elapsed world inventories lastInventoryUse =>
      exact .inr ⟨ha, fun hdue => ⟨hlater (hdue.resolve_right (Bool.false_ne_true)), le_rfl⟩⟩

theorem run_step_cons {e : ConsumableEvent W} (h : run (step S) r (e :: es) = some t) :
    run (step S) (r.next S e) es = some t := by
  obtain ⟨u, hu, ht⟩ := run_cons_eq_some.mp h
  exact Option.some.inj hu ▸ ht

/-- Of the phases that come when an action is due, each takes away one of those that are ahead of it. -/
theorem Sound.applied_of_ahead_lt (h : r.Sound) (ha : a ∈ r.queue.actions) (hdue : a.dueAt ≤ r.now)
    (ht : run (step S) r es = some t) (hphases : ahead a r.queue.actions < readyPhases S a.dueAt r es) :
    a ∈ t.applied.map Prod.snd := by
  induction es generalizing r with
  | nil => exact absurd hphases (Nat.not_lt_zero _)
  | cons e es ih =>
      have hrest := run_step_cons ht
      cases h.pending_next (S := S) ha e with
      | inl happlied => exact mem_applied_run happlied hrest
      | inr hpending =>
          obtain ⟨hmem, hahead⟩ := hpending
          obtain ⟨hnow, hless⟩ := hahead (.inl hdue)
          rw [readyPhases] at hphases
          exact ih (h.next e) hmem hnow hrest (by omega)

theorem Sound.live (h : r.Sound) : r.Live S := by
  intro a ha es t ht hphases
  induction es generalizing r with
  | nil =>
      have hlength := List.length_pos_of_mem ha
      have hroom := h.room
      exact absurd (hlength.trans_le (hroom.trans hphases)) (Nat.lt_irrefl 0)
  | cons e es ih =>
      have hrest := run_step_cons ht
      cases h.pending_next (S := S) ha e with
      | inl happlied => exact mem_applied_run happlied hrest
      | inr hpending =>
          obtain ⟨hmem, hahead⟩ := hpending
          rw [readyPhases] at hphases
          by_cases hready : r.Ready a.dueAt e = true
          · obtain ⟨hnow, hless⟩ := hahead (.inr hready)
            have hlength := ahead_lt_length ha
            have hroom := h.room
            rw [if_pos hready] at hphases hless
            exact (h.next e).applied_of_ahead_lt hmem hnow hrest (by omega)
          · rw [if_neg hready, Nat.zero_add] at hphases
            exact ih (h.next e) hmem hrest ((capacity_next e).symm ▸ hphases)

theorem sound_start (capacity now : Nat) (world : W) (inventories : PlayerId → Option UserInventory)
    (lastInventoryUse : PlayerId → Option Nat) : (start capacity now world inventories lastInventoryUse).Sound where
  once := List.Perm.refl _
  distinct := List.nodup_nil
  timely := fun _ h => absurd h List.not_mem_nil
  ordered := List.Pairwise.nil
  idle := rfl
  room := Nat.zero_le _
  past := fun _ h => absurd h List.not_mem_nil
  fresh := fun _ h => absurd h List.not_mem_nil

theorem exists_run (S : Surroundings W) (r : ConsumableRun W) (es : List (ConsumableEvent W)) :
    ∃ t, run (step S) r es = some t := by
  induction es generalizing r with
  | nil => exact ⟨r, rfl⟩
  | cons e es ih =>
      obtain ⟨t, ht⟩ := ih (r.next S e)
      exact ⟨t, run_cons_eq_some.mpr ⟨_, rfl, ht⟩⟩

end Progress

/-- In every state of a run, each use that is admitted takes one item and puts one action in the queue and a use that is
refused takes none, each admitted action is applied once, when it is due and in its turn, and after as many phases as the
queue has places; and the overlays are those of the pending actions, just when no phase applies an action of a cell
and leaves another one of it. -/
theorem consumables_kept_iff (S : Surroundings W) (capacity now : Nat) (world : W)
    (inventories : PlayerId → Option UserInventory) (lastInventoryUse : PlayerId → Option Nat)
    (es : List (ConsumableEvent W)) :
    (∀ n r, run (step S) (start capacity now world inventories lastInventoryUse) (es.take n) = some r →
      r.Exact ∧ r.Live S ∧ (∀ e, r.Outcome S e) ∧ r.Overlays) ↔
      Meets (step S) Clears (start capacity now world inventories lastInventoryUse) es := by
  have hstart := sound_start capacity now world inventories lastInventoryUse
  have hempty : (start capacity now world inventories lastInventoryUse).Overlays :=
    hstart.overlays_iff.mpr fun p => iff_of_false Bool.false_ne_true fun ⟨a, ha, _⟩ => List.not_mem_nil ha
  have hstep : ∀ e (u v : ConsumableRun W), u.Sound ∧ u.Overlays → step S u e = some v →
      (v.Sound ∧ v.Overlays ↔ u.Clears e) := by
    rintro e u v ⟨hu, hover⟩ hv
    obtain rfl := Option.some.inj hv
    exact (and_iff_right (hu.next e)).trans (hu.overlays_next hover e)
  obtain ⟨t, ht⟩ := exists_run S (start capacity now world inventories lastInventoryUse) es
  rw [meets_iff_forall_take (P := fun u => u.Sound ∧ u.Overlays) ⟨hstart, hempty⟩ hstep ht]
  refine forall_congr' fun n => forall_congr' fun r => imp_congr_right fun hr => ?_
  have hsound : r.Sound := by
    refine run_preserves hstart (fun e _ u v hu hv => ?_) hr
    obtain rfl := Option.some.inj hv
    exact hu.next e
  exact ⟨fun ⟨_, _, _, hover⟩ => ⟨hsound, hover⟩, fun ⟨_, hover⟩ => ⟨hsound.toExact, hsound.live, r.outcome, hover⟩⟩

end ConsumableRun

end OpenMines
