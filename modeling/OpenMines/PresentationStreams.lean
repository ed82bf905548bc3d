import OpenMines.Presentation

namespace OpenMines

/-- The packets of one session. -/
def stream (session : SessionId) (sent : Sent) : List (List UInt8) := (sent.filter fun p => p.1 = session).map Prod.snd

/-- Consecutive `HB` frames may be one frame, with their payloads one after the other. -/
inductive Merged : List (List UInt8) → List (List UInt8) → Prop
  | nil : Merged [] []
  | keep {xs ys : List (List UInt8)} (data : List UInt8) (h : Merged xs ys) : Merged (data :: xs) (data :: ys)
  | merge {xs ys : List (List UInt8)} (frames payloads : List (List UInt8)) (frame : List UInt8) (hne : frames ≠ [])
      (hframes : frames.map hbPayload = payloads.map some) (hframe : hbPayload frame = some payloads.flatten)
      (h : Merged xs ys) : Merged (frames ++ xs) (frame :: ys)

section Reference

variable {ρ ε : Type} (d : Deliveries ρ ε) (hub : Hub)

def deliverEffect (rest : ρ) : BroadcastEffect → ρ × Sent
  | .direct session data => (rest, hub.send session data)
  | .cellUpdate x y => d.cellUpdate hub rest x y
  | .blockUpdate x y => d.blockUpdate hub rest x y
  | .nearby chunk data exclude => (rest, hub.broadcastToNearby chunk data exclude)

def deliverEffects (rest : ρ) : List BroadcastEffect → ρ × Sent
  | [] => (rest, [])
  | effect :: effects =>
      ((deliverEffects (deliverEffect d hub rest effect).1 effects).1,
        (deliverEffect d hub rest effect).2 ++ (deliverEffects (deliverEffect d hub rest effect).1 effects).2)

/-- Every event, and every effect of a stream, is delivered by itself. -/
def deliverEach (s : Presented ρ) : List (PresentationEvent ε) → Sent
  | [] => []
  | .movementFanout m :: events => s.hub.fanout m.recipients m.data ++ deliverEach s events
  | .worldEffects effects :: events =>
      (deliverEffects d s.hub s.rest effects).2 ++
        deliverEach { s with rest := (deliverEffects d s.hub s.rest effects).1 } events
  | .fanout recipients data :: events => s.hub.fanout recipients data ++ deliverEach s events
  | .other event :: events => (d.other s event).2 ++ deliverEach (d.other s event).1 events

end Reference

section Streams

variable {xs ys zs ws : List (List UInt8)} {session : SessionId} {hub : Hub}

@[simp] theorem stream_nil : stream session [] = [] := rfl

@[simp] theorem stream_append (sent after : Sent) :
    stream session (sent ++ after) = stream session sent ++ stream session after := by
  rw [stream, List.filter_append, List.map_append]
  rfl

theorem stream_send_self {data : List UInt8} (h : hub.outbox session = true) : stream session (hub.send session data) = [data] := by
  rw [Hub.send, if_pos h, stream, List.filter_cons_of_pos (by simp)]
  rfl

theorem stream_send_closed {data : List UInt8} (h : hub.outbox session = false) : hub.send session data = [] := by
  rw [Hub.send, h]
  rfl

theorem stream_send_of_ne {r : SessionId} {data : List UInt8} (h : r ≠ session) : stream session (hub.send r data) = [] := by
  rw [Hub.send]
  split
  · rw [stream, List.filter_cons_of_neg (by simpa using h)]
    rfl
  · rfl

theorem Merged.refl (xs : List (List UInt8)) : Merged xs xs := by
  induction xs with
  | nil => exact .nil
  | cons x xs ih => exact .keep x ih

theorem Merged.append (hxs : Merged xs ys) (hzs : Merged zs ws) : Merged (xs ++ zs) (ys ++ ws) := by
  induction hxs with
  | nil => exact hzs
  | keep data _ ih => exact .keep data ih
  | merge frames payloads frame hne hframes hframe _ ih =>
      rw [List.append_assoc, List.cons_append]
      exact .merge frames payloads frame hne hframes hframe ih

end Streams

section Batches

variable {ρ ε : Type} {d : Deliveries ρ ε} {hub : Hub} {session : SessionId}

/-- The frames of a session that wait, and the payload that is collected of them. -/
inductive Batched : List (List UInt8) → Option (List UInt8) → Prop
  | empty : Batched [] none
  | collected {frames payloads : List (List UInt8)} (hne : frames ≠ []) (h : frames.map hbPayload = payloads.map some) :
      Batched frames (some payloads.flatten)

theorem Batched.queue {frames : List (List UInt8)} {payload : Option (List UInt8)} (h : Batched frames payload)
    {data next : List UInt8} (hdata : hbPayload data = some next) :
    Batched (frames ++ [data]) (some (payload.getD [] ++ next)) := by
  cases h with
  | empty =>
      have hsingle : next = [next].flatten := by simp
      rw [Option.getD_none, List.nil_append, List.nil_append, hsingle]
      exact .collected (List.cons_ne_nil _ _) (by rw [List.map_singleton, hdata]; rfl)
  | @collected _ payloads hne h =>
      have hflatten : (payloads ++ [next]).flatten = payloads.flatten ++ next := by simp
      rw [Option.getD_some, ← hflatten]
      refine .collected (List.append_ne_nil_of_left_ne_nil hne _) ?_
      rw [List.map_append, List.map_append, h, List.map_singleton, hdata]
      rfl

/-- What has been sent, and what waits, is what each effect by itself would have sent. -/
def Agrees (hub : Hub) (sent : Sent) (s : EffectsState ρ) : Prop :=
  ∀ session, (hub.outbox session = false → Merged (stream session sent) (stream session s.sent)) ∧
    (hub.outbox session = true → ∃ before frames, stream session sent = before ++ frames ∧
      Merged before (stream session s.sent) ∧ Batched frames (s.hbBatches.lookup session))

theorem exists_of_bind_ok {α β : Type} {x : Except String α} {f : α → Except String β} {b : β} (h : x >>= f = .ok b) :
    ∃ a, x = .ok a ∧ f a = .ok b := by
  cases x with
  | error => cases h
  | ok a => exact ⟨a, rfl, h⟩

theorem stream_cons_self (data : List UInt8) (out : Sent) : stream session ((session, data) :: out) = data :: stream session out := by
  rw [stream, List.filter_cons_of_pos (by simp)]
  rfl

theorem stream_cons_of_ne {key : SessionId} (h : key ≠ session) (data : List UInt8) (out : Sent) :
    stream session ((key, data) :: out) = stream session out := by
  rw [stream, List.filter_cons_of_neg (by simpa using h)]
  rfl

theorem stream_flushHb {entries : List (Σ _ : SessionId, List UInt8)} {out : Sent} (hnodup : entries.NodupKeys)
    (h : flushHb hub entries = .ok out) :
    (hub.outbox session = false → stream session out = []) ∧
    (hub.outbox session = true → entries.dlookup session = none → stream session out = []) ∧
    ∀ payload, hub.outbox session = true → entries.dlookup session = some payload →
      ∃ frame, hbPayload frame = some payload ∧ stream session out = [frame] := by
  induction entries generalizing out with
  | nil =>
      cases h
      exact ⟨fun _ => rfl, fun _ _ => rfl, nofun⟩
  | cons entry entries ih =>
      obtain ⟨key, payload⟩ := entry
      obtain ⟨hkey, hrest⟩ := List.nodupKeys_cons.mp hnodup
      rw [flushHb] at h
      by_cases hopen : hub.outbox key = true
      · rw [if_pos hopen] at h
        obtain ⟨data, hdata, h⟩ := exists_of_bind_ok h
        obtain ⟨rest, hout, h⟩ := exists_of_bind_ok h
        cases h
        obtain ⟨hclosed, hnone, hsome⟩ := ih hrest hout
        by_cases hsame : key = session
        · subst hsame
          have hempty : stream key rest = [] := hnone hopen (List.dlookup_eq_none.mpr hkey)
          refine ⟨fun hnot => ?_, fun _ hlookup => ?_, fun found _ hlookup => ?_⟩
          · rw [hopen] at hnot
            cases hnot
          · rw [List.dlookup_cons_eq] at hlookup
            cases hlookup
          · rw [List.dlookup_cons_eq] at hlookup
            obtain rfl := Option.some.inj hlookup
            exact ⟨data, hbPayload_encodeHbBundle hdata, by rw [stream_cons_self, hempty]⟩
        · rw [stream_cons_of_ne hsame, List.dlookup_cons_ne _ _ (Ne.symm hsame)]
          exact ⟨hclosed, hnone, hsome⟩
      · rw [if_neg hopen] at h
        obtain ⟨hclosed, hnone, hsome⟩ := ih hrest h
        by_cases hsame : key = session
        · subst hsame
          exact ⟨hclosed, fun hnot => absurd hnot hopen, fun _ hnot => absurd hnot hopen⟩
        · rw [List.dlookup_cons_ne _ _ (Ne.symm hsame)]
          exact ⟨hclosed, hnone, hsome⟩

/-- After the batches nothing waits. -/
theorem Agrees.flush {sent out : Sent} {s : EffectsState ρ} (h : Agrees hub sent s)
    (hout : flushHbBatches hub s.hbBatches = .ok out) (session : SessionId) :
    Merged (stream session sent) (stream session (s.sent ++ out)) := by
  obtain ⟨hclosed, hopen⟩ := h session
  obtain ⟨hout_closed, hout_none, hout_some⟩ : (hub.outbox session = false → stream session out = []) ∧ _ :=
    stream_flushHb s.hbBatches.nodupKeys hout
  rw [stream_append]
  cases hbox : hub.outbox session with
  | false =>
      rw [hout_closed hbox, List.append_nil]
      exact hclosed hbox
  | true =>
      obtain ⟨before, frames, hsent, hbefore, hframes⟩ := hopen hbox
      rw [hsent]
      generalize hlookup : s.hbBatches.lookup session = found at hframes
      cases hframes with
      | empty =>
          rw [hout_none hbox hlookup]
          exact hbefore.append .nil
      | @collected _ payloads hne hpayloads =>
          obtain ⟨frame, hframe, hstream⟩ := hout_some _ hbox hlookup
          have hmerge := Merged.merge frames payloads frame hne hpayloads hframe .nil
          rw [List.append_nil] at hmerge
          rw [hstream]
          exact hbefore.append hmerge

theorem Agrees.barrier {sent : Sent} {s t : EffectsState ρ} (h : Agrees hub sent s) {rest : ρ} (more : Sent)
    (hbarrier : s.barrier hub rest more = .ok t) : Agrees hub (sent ++ more) t ∧ t.rest = rest := by
  obtain ⟨out, hout, hbarrier⟩ := exists_of_bind_ok hbarrier
  cases hbarrier
  have hmerged : ∀ session, Merged (stream session (sent ++ more)) (stream session (s.sent ++ out ++ more)) := by
    intro session
    rw [stream_append, stream_append (s.sent ++ out)]
    exact (h.flush hout session).append (.refl _)
  exact ⟨fun session => ⟨fun _ => hmerged session,
    fun _ => ⟨_, [], (List.append_nil _).symm, hmerged session, .empty⟩⟩, rfl⟩

theorem Agrees.queueOne {sent : Sent} {s : EffectsState ρ} (h : Agrees hub sent s) (r : SessionId) {data payload : List UInt8}
    (hdata : hbPayload data = some payload) :
    Agrees hub (sent ++ hub.send r data) { s with hbBatches := queueHb s.hbBatches r payload } := by
  intro session
  obtain ⟨hclosed, hopen⟩ := h session
  rw [stream_append]
  by_cases hsame : r = session
  · subst hsame
    refine ⟨fun hbox => ?_, fun hbox => ?_⟩
    · rw [stream_send_closed hbox, stream_nil, List.append_nil]
      exact hclosed hbox
    · obtain ⟨before, frames, hsent, hbefore, hframes⟩ := hopen hbox
      refine ⟨before, frames ++ [data], ?_, hbefore, ?_⟩
      · rw [stream_send_self hbox, hsent, List.append_assoc]
      · dsimp only
        rw [queueHb, AList.lookup_insert]
        exact hframes.queue hdata
  · rw [stream_send_of_ne hsame, List.append_nil]
    refine ⟨hclosed, fun hbox => ?_⟩
    dsimp only
    rw [queueHb, AList.lookup_insert_ne (Ne.symm hsame)]
    exact hopen hbox

theorem Agrees.queueAll {sent : Sent} {s : EffectsState ρ} (h : Agrees hub sent s) (recipients : List SessionId)
    {data payload : List UInt8} (hdata : hbPayload data = some payload) :
    Agrees hub (sent ++ hub.fanout recipients data)
      { s with hbBatches := recipients.foldl (fun batches r => queueHb batches r payload) s.hbBatches } := by
  induction recipients generalizing sent s with
  | nil =>
      rw [Hub.fanout, List.flatMap_nil, List.append_nil]
      exact h
  | cons r recipients ih =>
      have hqueued := ih (h.queueOne r hdata)
      rw [List.append_assoc] at hqueued
      exact hqueued

theorem Agrees.effect {sent : Sent} {s t : EffectsState ρ} (h : Agrees hub sent s) (effect : BroadcastEffect)
    (heffect : deliverWorldEffect d hub s effect = .ok t) :
    Agrees hub (sent ++ (deliverEffect d hub s.rest effect).2) t ∧ t.rest = (deliverEffect d hub s.rest effect).1 := by
  cases effect with
  | direct session data => exact h.barrier _ heffect
  | cellUpdate x y => exact h.barrier _ heffect
  | blockUpdate x y => exact h.barrier _ heffect
  | nearby chunk data exclude =>
      rw [deliverWorldEffect] at heffect
      cases hdata : hbPayload data with
      | none =>
          rw [hdata] at heffect
          exact h.barrier _ heffect
      | some payload =>
          rw [hdata] at heffect
          cases heffect
          exact ⟨h.queueAll _ hdata, rfl⟩

theorem Agrees.effects {sent : Sent} {s t : EffectsState ρ} (h : Agrees hub sent s) (effects : List BroadcastEffect)
    (heffects : effects.foldlM (deliverWorldEffect d hub) s = .ok t) :
    Agrees hub (sent ++ (deliverEffects d hub s.rest effects).2) t ∧ t.rest = (deliverEffects d hub s.rest effects).1 := by
  induction effects generalizing sent s with
  | nil =>
      cases heffects
      rw [deliverEffects, List.append_nil]
      exact ⟨h, rfl⟩
  | cons effect effects ih =>
      obtain ⟨s', heffect, heffects⟩ := exists_of_bind_ok heffects
      obtain ⟨hnext, hrest⟩ := h.effect effect heffect
      obtain ⟨hlast, hlastRest⟩ := ih hnext heffects
      rw [hrest, List.append_assoc] at hlast
      rw [hrest] at hlastRest
      exact ⟨hlast, hlastRest⟩

theorem deliverWorldEffects_merged {rest rest' : ρ} {effects : List BroadcastEffect} {out : Sent}
    (h : deliverWorldEffects d hub rest effects = .ok (rest', out)) :
    rest' = (deliverEffects d hub rest effects).1 ∧
      ∀ session, Merged (stream session (deliverEffects d hub rest effects).2) (stream session out) := by
  obtain ⟨s, heffects, h⟩ := exists_of_bind_ok h
  obtain ⟨flushed, hflushed, h⟩ := exists_of_bind_ok h
  cases h
  have hstart : Agrees hub [] ({ rest, hbBatches := ∅, sent := [] } : EffectsState ρ) :=
    fun session => ⟨fun _ => .nil, fun _ => ⟨[], [], rfl, .nil, .empty⟩⟩
  obtain ⟨hagrees, hrest⟩ := hstart.effects effects heffects
  exact ⟨hrest, hagrees.flush hflushed⟩

end Batches

section Movement

variable {ε : Type} {xs : List MovementFanout} {latest : Latest} {sequence : Nat}

/-- An update, and whether no later one of the burst is of its player. -/
def marks : List MovementFanout → List (MovementFanout × Bool)
  | [] => []
  | m :: xs => (m, xs.all fun later => later.player ≠ m.player) :: marks xs

/-- The last updates of the players. -/
def lasts (xs : List MovementFanout) : List MovementFanout := ((marks xs).filter Prod.snd).map Prod.fst

theorem marks_fst (xs : List MovementFanout) : (marks xs).map Prod.fst = xs := by
  induction xs with
  | nil => rfl
  | cons m xs ih => rw [marks, List.map_cons, ih]

theorem lasts_cons (m : MovementFanout) (xs : List MovementFanout) :
    lasts (m :: xs) = if xs.all fun later => later.player ≠ m.player then m :: lasts xs else lasts xs := by
  rw [lasts, marks, List.filter_cons]
  split <;> rfl

theorem lasts_concat (xs : List MovementFanout) (m : MovementFanout) :
    lasts (xs ++ [m]) = (lasts xs).filter (fun earlier => earlier.player ≠ m.player) ++ [m] := by
  induction xs with
  | nil => rfl
  | cons x xs ih =>
      rw [List.cons_append, lasts_cons, lasts_cons, ih, List.all_append]
      by_cases hlast : (xs.all fun later => later.player ≠ x.player) = true
      · rw [hlast, if_pos rfl]
        by_cases hsame : x.player = m.player
        · rw [if_neg (by simp [hsame]), List.filter_cons_of_neg (by simpa using hsame)]
        · rw [if_pos (by simpa using Ne.symm hsame), List.filter_cons_of_pos (by simpa using hsame)]
          rfl
      · rw [if_neg hlast, if_neg (fun h => hlast (Bool.and_eq_true_iff.mp h).1)]

theorem kerase_eq_filter {β : PlayerId → Type} {entries : List (Σ p, β p)} (h : entries.NodupKeys) (player : PlayerId) :
    entries.kerase player = entries.filter fun e => e.1 ≠ player := by
  induction entries with
  | nil => rfl
  | cons e entries ih =>
      obtain ⟨hkey, hrest⟩ := List.nodupKeys_cons.mp h
      by_cases heq : player = e.1
      · rw [List.kerase_cons_eq heq, List.filter_cons_of_neg (by simp [heq])]
        refine (List.filter_eq_self.mpr fun f hf => ?_).symm
        simp only [ne_eq, decide_not, Bool.not_eq_eq_eq_not, Bool.not_true, decide_eq_false_iff_not]
        exact fun hfe => hkey (heq ▸ hfe ▸ List.mem_map_of_mem hf)
      · rw [List.kerase_cons_ne heq, ih hrest, List.filter_cons_of_pos (by simpa using Ne.symm heq)]

/-- The table holds the last updates of a burst, the latest in front. -/
structure Tracks (latest : Latest) (sequence : Nat) (xs : List MovementFanout) : Prop where
  entries_eq : latest.entries.reverse.map (fun e => MovementFanout.mk e.1 e.2.2.1 e.2.2.2) = lasts xs
  decreasing : latest.entries.Pairwise fun e f => f.2.1 < e.2.1
  bound : ∀ e ∈ latest.entries, e.2.1 < sequence

theorem Tracks.insert (h : Tracks latest sequence xs) (m : MovementFanout) :
    Tracks (latest.insert m.player (sequence, m.recipients, m.data)) (sequence + 1) (xs ++ [m]) := by
  have hentries : (latest.insert m.player (sequence, m.recipients, m.data)).entries =
      ⟨m.player, sequence, m.recipients, m.data⟩ :: latest.entries.filter fun e => e.1 ≠ m.player := by
    rw [AList.entries_insert, kerase_eq_filter latest.nodupKeys]
  constructor
  · rw [hentries, List.reverse_cons, List.map_append, lasts_concat, ← h.entries_eq, ← List.filter_reverse,
      List.filter_map]
    rfl
  · rw [hentries, List.pairwise_cons]
    exact ⟨fun e he => h.bound e (List.mem_of_mem_filter he), h.decreasing.filter _⟩
  · rw [hentries]
    intro e he
    cases List.mem_cons.mp he with
    | inl heq => exact heq ▸ Nat.lt_succ_self sequence
    | inr hin => exact Nat.lt_succ_of_lt (h.bound e (List.mem_of_mem_filter hin))

theorem Tracks.ordered (h : Tracks latest sequence xs) :
    ((latest.entries.map Sigma.snd).mergeSort fun a b => a.1 ≤ b.1).map Prod.snd =
      (lasts xs).map fun m => (m.recipients, m.data) := by
  have hsorted : (latest.entries.map Sigma.snd).mergeSort (fun a b => a.1 ≤ b.1) = (latest.entries.map Sigma.snd).reverse := by
    have hvalues : (latest.entries.map Sigma.snd).Pairwise fun a b => b.1 < a.1 := List.pairwise_map.mpr h.decreasing
    have hascending : (latest.entries.map Sigma.snd).reverse.Pairwise fun a b => decide (a.1 ≤ b.1) = true :=
      List.pairwise_reverse.mpr (hvalues.imp fun hlt => decide_eq_true (Nat.le_of_lt hlt))
    have hperm := List.mergeSort_perm (latest.entries.map Sigma.snd) fun a b => decide (a.1 ≤ b.1)
    refine List.Perm.eq_of_pairwise (fun a b ha hb hab hba => ?_)
      (List.pairwise_mergeSort (fun a b c hab hbc => ?_) (fun a b => ?_) _) hascending
      (hperm.trans (List.reverse_perm _).symm)
    · have hnodup : ((latest.entries.map Sigma.snd).map Prod.fst).Nodup :=
        List.pairwise_map.mpr (hvalues.imp fun hlt => Nat.ne_of_gt hlt)
      exact List.inj_on_of_nodup_map hnodup (List.mem_mergeSort.mp ha) (List.mem_reverse.mp hb)
        (Nat.le_antisymm (of_decide_eq_true hab) (of_decide_eq_true hba))
    · exact decide_eq_true ((of_decide_eq_true hab).trans (of_decide_eq_true hbc))
    · exact Bool.or_eq_true_iff.mpr ((Nat.le_total a.1 b.1).imp decide_eq_true decide_eq_true)
  rw [hsorted, ← h.entries_eq, List.map_map, ← List.map_reverse, List.map_map]
  rfl

theorem tracks_singleton (m : MovementFanout) :
    Tracks (AList.singleton m.player (0, m.recipients, m.data)) 1 [m] where
  entries_eq := rfl
  decreasing := List.pairwise_singleton _ _
  bound := fun e he => by
    obtain rfl := List.mem_singleton.mp he
    exact Nat.zero_lt_one

theorem collectMovement_eq (h : Tracks latest sequence xs) (queue : List (Arrival ε)) :
    ∃ burst : List MovementFanout, queue = burst.map (fun m => (.movementFanout m, true)) ++ (collectMovement latest sequence queue).2 ∧
      ((((collectMovement latest sequence queue).1.entries.map Sigma.snd).mergeSort fun a b => a.1 ≤ b.1).map Prod.snd) =
        (lasts (xs ++ burst)).map fun m => (m.recipients, m.data) := by
  fun_induction collectMovement latest sequence queue generalizing xs with
  | case1 latest sequence m queue ih =>
      obtain ⟨burst, hqueue, hordered⟩ := ih (h.insert m)
      refine ⟨m :: burst, ?_, ?_⟩
      · rw [List.map_cons, List.cons_append, ← hqueue]
      · rw [hordered, List.append_assoc]
        rfl
  | case2 => exact ⟨[], rfl, by rw [List.append_nil]; exact h.ordered⟩

end Movement

section Delivery

variable {ρ ε : Type} {d : Deliveries ρ ε} {s : Presented ρ}

/-- Only movements are left out, and only where the same player's movement that comes later, with nothing but
movements between, is delivered. -/
inductive Overtaken {ε : Type} : List (PresentationEvent ε × Bool) → Prop
  | nil : Overtaken []
  | kept {marked : List (PresentationEvent ε × Bool)} (event : PresentationEvent ε) (h : Overtaken marked) :
      Overtaken ((event, true) :: marked)
  | left {marked after : List (PresentationEvent ε × Bool)} (m later : MovementFanout)
      (between : List (MovementFanout × Bool))
      (hafter : marked = between.map (fun x => (.movementFanout x.1, x.2)) ++ (.movementFanout later, true) :: after)
      (hplayer : later.player = m.player) (h : Overtaken marked) : Overtaken ((.movementFanout m, false) :: marked)

/-- The events that are delivered. -/
def keptEvents (marked : List (PresentationEvent ε × Bool)) : List (PresentationEvent ε) :=
  (marked.filter Prod.snd).map Prod.fst

theorem exists_last {m : MovementFanout} {xs : List MovementFanout} (h : ∃ x ∈ xs, x.player = m.player) :
    ∃ between later after, marks xs = between ++ (later, true) :: after ∧ later.player = m.player := by
  induction xs with
  | nil => exact absurd h (by simp)
  | cons x xs ih =>
      by_cases hlater : ∃ y ∈ xs, y.player = m.player
      · obtain ⟨between, later, after, hmarks, hplayer⟩ := ih hlater
        exact ⟨_ :: between, later, after, by rw [marks, hmarks]; rfl, hplayer⟩
      · have hx : x.player = m.player := by
          obtain ⟨y, hy, hplayer⟩ := h
          cases List.mem_cons.mp hy with
          | inl heq => exact heq ▸ hplayer
          | inr hin => exact absurd ⟨y, hin, hplayer⟩ hlater
        have hlast : (xs.all fun later => later.player ≠ x.player) = true := by
          refine List.all_eq_true.mpr fun y hy => decide_eq_true fun hsame => hlater ⟨y, hy, hsame.trans hx⟩
        exact ⟨[], x, marks xs, by rw [marks, hlast]; rfl, hx⟩

theorem Overtaken.burst {marked : List (PresentationEvent ε × Bool)} (h : Overtaken marked) (xs : List MovementFanout) :
    Overtaken ((marks xs).map (fun x => (.movementFanout x.1, x.2)) ++ marked) := by
  induction xs with
  | nil => exact h
  | cons m xs ih =>
      rw [marks, List.map_cons, List.cons_append]
      cases hlast : xs.all fun later => later.player ≠ m.player with
      | true => exact .kept _ ih
      | false =>
          have hlater : ∃ x ∈ xs, x.player = m.player := by
            obtain ⟨x, hx, hplayer⟩ := List.all_eq_false.mp hlast
            exact ⟨x, hx, by simpa using hplayer⟩
          obtain ⟨between, later, after, hmarks, hplayer⟩ := exists_last hlater
          refine @Overtaken.left ε _ (after.map (fun x => (.movementFanout x.1, x.2)) ++ marked) m later between ?_ hplayer ih
          rw [hmarks, List.map_append, List.append_assoc]
          rfl

theorem coalesceWorldEffectBurst_eq (left : Nat) (effects : List BroadcastEffect) (queue : List (Arrival ε)) :
    ∃ burst : List (List BroadcastEffect),
      queue = burst.map (fun e => (.worldEffects e, true)) ++ (coalesceWorldEffectBurst left effects queue).2 ∧
      (coalesceWorldEffectBurst left effects queue).1 = effects ++ burst.flatten := by
  fun_induction coalesceWorldEffectBurst left effects queue with
  | case1 left effects next queue ih =>
      obtain ⟨burst, hqueue, heffects⟩ := ih
      refine ⟨next :: burst, ?_, ?_⟩
      · rw [List.map_cons, List.cons_append, ← hqueue]
      · rw [heffects, List.append_assoc, List.flatten_cons]
  | case2 => exact ⟨[], rfl, (List.append_nil _).symm⟩

theorem deliverEffects_append (hub : Hub) (rest : ρ) (effects more : List BroadcastEffect) :
    deliverEffects d hub rest (effects ++ more) =
      ((deliverEffects d hub (deliverEffects d hub rest effects).1 more).1,
        (deliverEffects d hub rest effects).2 ++ (deliverEffects d hub (deliverEffects d hub rest effects).1 more).2) := by
  induction effects generalizing rest with
  | nil => rfl
  | cons effect effects ih =>
      rw [List.cons_append, deliverEffects, ih, deliverEffects, List.append_assoc]

theorem deliverEach_movements (xs : List MovementFanout) (events : List (PresentationEvent ε)) :
    deliverEach d s (xs.map .movementFanout ++ events) =
      xs.flatMap (fun m => s.hub.fanout m.recipients m.data) ++ deliverEach d s events := by
  induction xs with
  | nil => rfl
  | cons m xs ih => rw [List.map_cons, List.cons_append, deliverEach, ih, List.flatMap_cons, List.append_assoc]

theorem deliverEach_worldEffects (effects : List BroadcastEffect) (burst : List (List BroadcastEffect))
    (events : List (PresentationEvent ε)) :
    deliverEach d s (.worldEffects effects :: (burst.map .worldEffects ++ events)) =
      (deliverEffects d s.hub s.rest (effects ++ burst.flatten)).2 ++
        deliverEach d { s with rest := (deliverEffects d s.hub s.rest (effects ++ burst.flatten)).1 } events := by
  induction burst generalizing s effects with
  | nil =>
      rw [List.flatten_nil, List.append_nil]
      rfl
  | cons next burst ih =>
      rw [deliverEach, List.map_cons, List.cons_append, ih, List.flatten_cons,
        deliverEffects_append s.hub s.rest effects (next ++ burst.flatten), List.append_assoc]

theorem keptEvents_burst (xs : List MovementFanout) (marked : List (PresentationEvent ε × Bool)) :
    keptEvents ((marks xs).map (fun x => (.movementFanout x.1, x.2)) ++ marked) =
      (lasts xs).map .movementFanout ++ keptEvents marked := by
  rw [keptEvents, List.filter_append, List.map_append, List.filter_map, List.map_map, lasts, List.map_map]
  rfl

theorem keptEvents_worldEffects (burst : List (List BroadcastEffect)) (marked : List (PresentationEvent ε × Bool)) :
    keptEvents (burst.map (fun e => (.worldEffects e, true)) ++ marked) = burst.map .worldEffects ++ keptEvents marked := by
  induction burst with
  | nil => rfl
  | cons e burst ih => rw [List.map_cons, List.cons_append, List.map_cons, List.cons_append, ← ih]; rfl

theorem Overtaken.worldEffects {marked : List (PresentationEvent ε × Bool)} (h : Overtaken marked)
    (burst : List (List BroadcastEffect)) : Overtaken (burst.map (fun e => (.worldEffects e, true)) ++ marked) := by
  induction burst with
  | nil => exact h
  | cons e burst ih => exact .kept _ ih

/-- The streams of the worker are those of single deliveries, but for movements that a later one has overtaken. -/
theorem runDelivery_coalesces {queue : List (Arrival ε)} {sent : Sent} (h : runDelivery d s queue = .ok sent) :
    ∃ marked : List (PresentationEvent ε × Bool), marked.map Prod.fst = queue.map Prod.fst ∧ Overtaken marked ∧
      ∀ session, Merged (stream session (deliverEach d s (keptEvents marked))) (stream session sent) := by
  fun_induction runDelivery d s queue generalizing sent with
  | case1 s =>
      cases h
      exact ⟨[], rfl, .nil, fun _ => .nil⟩
  | case2 s m ready queue ih =>
      obtain ⟨after, hafter, h⟩ := exists_of_bind_ok h
      cases h
      obtain ⟨marked, hevents, hovertaken, hmerged⟩ := ih hafter
      obtain ⟨burst, hqueue, hordered⟩ := collectMovement_eq (tracks_singleton m) queue
      refine ⟨(marks (m :: burst)).map (fun x => (.movementFanout x.1, x.2)) ++ marked, ?_, hovertaken.burst _,
        fun session => ?_⟩
      · have hmarks : ((marks (m :: burst)).map fun x => ((.movementFanout x.1 : PresentationEvent ε), x.2)).map Prod.fst =
            ((marks (m :: burst)).map Prod.fst).map .movementFanout := by
          rw [List.map_map, List.map_map]
          rfl
        have hrest := congrArg (List.map Prod.fst) hqueue
        rw [List.map_append, List.map_map] at hrest
        rw [List.map_append, hmarks, marks_fst, hevents, List.map_cons, List.map_cons, List.cons_append]
        exact congrArg (List.cons _) hrest.symm
      · have hfanouts : (coalesceMovementBurst m queue).1 = (lasts (m :: burst)).map fun m => (m.recipients, m.data) :=
          hordered
        rw [keptEvents_burst, deliverEach_movements, hfanouts, List.flatMap_map, stream_append, stream_append]
        exact (Merged.refl _).append (hmerged session)
  | case3 s effects ready queue ih =>
      obtain ⟨⟨rest, out⟩, hout, h⟩ := exists_of_bind_ok h
      obtain ⟨after, hafter, h⟩ := exists_of_bind_ok h
      cases h
      obtain ⟨marked, hevents, hovertaken, hmerged⟩ := ih rest hafter
      obtain ⟨burst, hqueue, heffects⟩ := coalesceWorldEffectBurst_eq (worldEffectCoalesceLimit - 1) effects queue
      rw [heffects] at hout
      obtain ⟨rfl, hstream⟩ := deliverWorldEffects_merged hout
      refine ⟨(.worldEffects effects, true) :: (burst.map (fun e => (.worldEffects e, true)) ++ marked), ?_,
        .kept _ (hovertaken.worldEffects burst), fun session => ?_⟩
      · have hrest := congrArg (List.map Prod.fst) hqueue
        rw [List.map_append, List.map_map] at hrest
        rw [List.map_cons, List.map_cons, List.map_append, List.map_map, hevents]
        exact congrArg (List.cons _) hrest.symm
      · have hkept : keptEvents ((.worldEffects effects, true) :: (burst.map (fun e => (.worldEffects e, true)) ++ marked)) =
            .worldEffects effects :: (burst.map .worldEffects ++ keptEvents marked) :=
          congrArg (List.cons _) (keptEvents_worldEffects burst marked)
        rw [hkept, deliverEach_worldEffects, stream_append, stream_append]
        exact (hstream session).append (hmerged session)
  | case4 s recipients data ready queue ih =>
      obtain ⟨after, hafter, h⟩ := exists_of_bind_ok h
      cases h
      obtain ⟨marked, hevents, hovertaken, hmerged⟩ := ih hafter
      refine ⟨(.fanout recipients data, true) :: marked, ?_, .kept _ hovertaken, fun session => ?_⟩
      · rw [List.map_cons, List.map_cons, hevents]
      · rw [stream_append]
        exact (stream_append _ _).symm ▸ (Merged.refl _).append (hmerged session)
  | case5 s event ready queue ih =>
      obtain ⟨after, hafter, h⟩ := exists_of_bind_ok h
      cases h
      obtain ⟨marked, hevents, hovertaken, hmerged⟩ := ih hafter
      refine ⟨(.other event, true) :: marked, ?_, .kept _ hovertaken, fun session => ?_⟩
      · rw [List.map_cons, List.map_cons, hevents]
      · rw [stream_append]
        exact (stream_append _ _).symm ▸ (Merged.refl _).append (hmerged session)

end Delivery

section OutOfSight

/-- All sessions have an outbox, and no player is near a chunk. -/
def openHub : Presented Unit := ⟨⟨fun _ => true, fun _ => []⟩, ()⟩

def quiet : Deliveries Unit Unit := ⟨fun _ _ _ _ => ((), []), fun _ _ _ _ => ((), []), fun s _ => (s, [])⟩

/-- A player moves in sight of one session, and then in sight of another. -/
def movesOutOfSight : List (Arrival Unit) := [(.movementFanout ⟨1, [7], [1]⟩, true), (.movementFanout ⟨1, [8], [2]⟩, true)]

theorem runDelivery_movesOutOfSight : runDelivery quiet openHub movesOutOfSight = .ok [(8, [2])] := by
  have hfanouts : (coalesceMovementBurst ⟨1, [7], [1]⟩ movesOutOfSight.tail).1 = [([8], [2])] := by decide +kernel
  have hqueue : (coalesceMovementBurst ⟨1, [7], [1]⟩ movesOutOfSight.tail).2 = [] := rfl
  rw [movesOutOfSight, List.tail_cons] at hfanouts hqueue
  rw [movesOutOfSight, runDelivery, hfanouts, hqueue, runDelivery]
  rfl

theorem runDelivery_coalesces_movesOutOfSight : ∃ marked : List (PresentationEvent Unit × Bool),
    marked.map Prod.fst = movesOutOfSight.map Prod.fst ∧ Overtaken marked ∧
      ∀ session, Merged (stream session (deliverEach quiet openHub (keptEvents marked))) (stream session [(8, [2])]) :=
  runDelivery_coalesces runDelivery_movesOutOfSight

/-- The first session is not sent the move that it has seen, nor any later one. -/
theorem movement_lost : stream 7 (deliverEach quiet openHub (movesOutOfSight.map Prod.fst)) = [[1]] ∧
    runDelivery quiet openHub movesOutOfSight = .ok [(8, [2])] ∧ stream 7 [(8, [2])] = [] :=
  ⟨rfl, runDelivery_movesOutOfSight, rfl⟩

end OutOfSight

end OpenMines
