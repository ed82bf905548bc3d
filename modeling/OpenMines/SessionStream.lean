import OpenMines.Packet
import OpenMines.Lib.Run

namespace OpenMines

open Lib.Framing Lib.Run

def outboxCapacity : Nat := 2048

def flushPacketBudget : Nat := 256

def flushByteBudget : Nat := 1024 * 1024

/-- What the connection does with its outbox: it waits, or writes a packet of `flush_outbox`. -/
inductive Writer
  | idle
  | writing (packets bytes : Nat) (left : List UInt8)
  | ended

/-- The outbox of a session, its connection, and the network to the client. -/
structure SessionStream where
  queue : List (List UInt8)
  overflowed : Bool
  writer : Writer
  wire : List UInt8
  /-- What has reached the client, in the chunks it came in. -/
  chunks : List (List UInt8)
  sent : List Packet
  accepted : List Packet

inductive StreamEvent
  | send (packet : Packet)
  | recv
  | write (n : Nat)
  | next
  | leave
  | deliver (n : Nat)

namespace SessionStream

/-- After the handshake, which is written before the outbox is read. -/
def start (handshake : List Packet) : SessionStream :=
  ⟨[], false, .idle, handshake.flatMap Packet.frame, [], handshake, handshake⟩

/-- `Outbox::send`, and whether it succeeds -/
def send (s : SessionStream) (packet : List UInt8) : SessionStream × Bool :=
  match s.writer with
  | .ended => (s, false)
  | .idle | .writing _ _ _ =>
    if s.queue.length < outboxCapacity then ({ s with queue := s.queue ++ [packet] }, true)
    else ({ s with overflowed := true }, false)

/-- The next packet of `flush_outbox` while its budget lasts. -/
def nextPacket (s : SessionStream) (packets bytes : Nat) : SessionStream :=
  if packets < flushPacketBudget ∧ bytes < flushByteBudget then
    match s.queue with
    | [] => { s with writer := .idle }
    | packet :: queue => { s with queue, writer := .writing (packets + 1) (bytes + packet.length) packet }
  else { s with writer := .idle }

/-- Writing takes any number of steps, and the connection can end in the middle of it. -/
def step (s : SessionStream) : StreamEvent → Option SessionStream
  | .send p =>
    match p.encode [] with
    | .error _ => none
    | .ok packet =>
      let (next, ok) := s.send packet
      some { next with sent := s.sent ++ [p], accepted := if ok then s.accepted ++ [p] else s.accepted }
  | .recv =>
    match s.writer, s.queue with
    | .idle, packet :: queue => some { s with queue, writer := .writing 1 packet.length packet }
    | _, _ => none
  | .write n =>
    match s.writer with
    | .writing packets bytes left =>
      some { s with writer := .writing packets bytes (left.drop n), wire := s.wire ++ left.take n }
    | _ => none
  | .next =>
    match s.writer with
    | .writing packets bytes [] => some (s.nextPacket packets bytes)
    | _ => none
  | .leave => some { s with writer := .ended }
  | .deliver n => some { s with wire := s.wire.drop n, chunks := s.chunks ++ [s.wire.take n] }

/-- What the client has made of the chunks. -/
def client (s : SessionStream) : Receiver UInt8 Packet String := Receiver.receiveAll Packet.tryDecode s.chunks

/-- What the connection has still to write. -/
def unwritten (s : SessionStream) : List UInt8 :=
  match s.writer with
  | .idle => s.queue.flatten
  | .writing _ _ left => left ++ s.queue.flatten
  | .ended => []

/-- Every byte that has been accepted is on its way, in order, until the connection ends. -/
structure Intact (s : SessionStream) : Prop where
  bytes : ∃ lost, s.chunks.flatten ++ (s.wire ++ (s.unwritten ++ lost)) = s.accepted.flatMap Packet.frame ∧
    (s.writer ≠ .ended → lost = [])
  capacity : s.queue.length ≤ outboxCapacity
  accepted : s.accepted.Sublist s.sent
  all : s.overflowed = false → s.writer ≠ .ended → s.accepted = s.sent

variable {s t : SessionStream} {packet : List UInt8} {packets bytes : Nat} {left : List UInt8}

theorem send_cases (s : SessionStream) (packet : List UInt8) :
    s.writer = .ended ∧ s.send packet = (s, false) ∨
    s.writer ≠ .ended ∧ s.queue.length < outboxCapacity ∧
      s.send packet = ({ s with queue := s.queue ++ [packet] }, true) ∨
    s.writer ≠ .ended ∧ s.send packet = ({ s with overflowed := true }, false) := by
  rw [send]
  split
  · rename_i hwriter
    exact Or.inl ⟨hwriter, rfl⟩
  all_goals
    rename_i hwriter
    rw [hwriter]
    by_cases hfree : s.queue.length < outboxCapacity
    · exact Or.inr (Or.inl ⟨nofun, hfree, if_pos hfree⟩)
    · exact Or.inr (Or.inr ⟨nofun, if_neg hfree⟩)

theorem unwritten_push (h : s.writer ≠ .ended) (packet : List UInt8) :
    { s with queue := s.queue ++ [packet] }.unwritten = s.unwritten ++ packet := by
  cases hwriter : s.writer with
  | idle => simp [unwritten, hwriter]
  | writing packets bytes left => simp [unwritten, hwriter]
  | ended => exact absurd hwriter h

/-- Taking the next packet only moves it. -/
theorem nextPacket_spec (hwriter : s.writer = .writing packets bytes []) :
    ∃ queue writer, s.nextPacket packets bytes = { s with queue, writer } ∧ writer ≠ .ended ∧
      { s with queue, writer }.unwritten = s.unwritten ∧
      (writer = .idle ∧ queue = s.queue ∨ queue.length < s.queue.length) := by
  rw [nextPacket]
  split
  · split
    · exact ⟨s.queue, .idle, rfl, nofun, by simp [unwritten, hwriter], Or.inl ⟨rfl, rfl⟩⟩
    · rename_i packet queue hqueue
      have hless : queue.length < s.queue.length := by
        rw [hqueue]
        exact Nat.lt_succ_self _
      exact ⟨queue, _, rfl, nofun, by simp [unwritten, hwriter, hqueue], Or.inr hless⟩
  · exact ⟨s.queue, .idle, rfl, nofun, by simp [unwritten, hwriter], Or.inl ⟨rfl, rfl⟩⟩

theorem intact_start (handshake : List Packet) : (start handshake).Intact where
  bytes := ⟨[], by simp [start, unwritten], fun _ => rfl⟩
  capacity := Nat.zero_le _
  accepted := List.Sublist.refl _
  all _ _ := rfl

theorem Intact.send {p : Packet} (h : s.Intact) :
    Intact { (s.send p.frame).1 with
      sent := s.sent ++ [p], accepted := if (s.send p.frame).2 then s.accepted ++ [p] else s.accepted } := by
  obtain ⟨lost, hbytes, hlost⟩ := h.bytes
  rcases send_cases s p.frame with ⟨hended, hsend⟩ | ⟨hopen, hfree, hsend⟩ | ⟨-, hsend⟩
  · rw [hsend]
    exact ⟨⟨lost, hbytes, hlost⟩, h.capacity, h.accepted.trans (List.sublist_append_left _ _),
      fun _ hopen => absurd hended hopen⟩
  · rw [hsend]
    obtain rfl := hlost hopen
    refine ⟨⟨[], ?_, fun _ => rfl⟩, ?_, h.accepted.append (List.Sublist.refl _), fun hover _ => ?_⟩
    · have hpush := unwritten_push hopen p.frame
      rw [if_pos rfl, List.flatMap_append, ← hbytes, List.flatMap_singleton]
      dsimp only [unwritten] at hpush ⊢
      rw [hpush]
      simp only [List.append_nil, List.append_assoc]
    · dsimp only
      rw [List.length_append, List.length_singleton]
      exact hfree
    · rw [if_pos rfl, h.all hover hopen]
  · rw [hsend]
    exact ⟨⟨lost, hbytes, hlost⟩, h.capacity, h.accepted.trans (List.sublist_append_left _ _), nofun⟩

theorem Intact.step {event : StreamEvent} (h : s.Intact) (hstep : s.step event = some t) : t.Intact := by
  obtain ⟨lost, hbytes, hlost⟩ := h.bytes
  cases event with
  | send p =>
      rw [SessionStream.step] at hstep
      split at hstep
      · cases hstep
      · rename_i packet hpacket
        obtain ⟨-, rfl⟩ := Packet.encode_eq_ok.mp hpacket
        obtain rfl := Option.some.inj hstep
        exact h.send
  | recv =>
      rw [SessionStream.step] at hstep
      split at hstep
      · rename_i packet queue hwriter hqueue
        obtain rfl := Option.some.inj hstep
        refine ⟨⟨lost, ?_, fun _ => hlost (by rw [hwriter]; exact nofun)⟩, ?_, h.accepted, fun hover _ => ?_⟩
        · rw [← hbytes]
          simp [unwritten, hwriter, hqueue]
        · have hcapacity := h.capacity
          rw [hqueue, List.length_cons] at hcapacity
          exact Nat.le_of_succ_le hcapacity
        · exact h.all hover (by rw [hwriter]; exact nofun)
      · cases hstep
  | write n =>
      rw [SessionStream.step] at hstep
      split at hstep
      · rename_i packets bytes left hwriter
        obtain rfl := Option.some.inj hstep
        refine ⟨⟨lost, ?_, fun _ => hlost (by rw [hwriter]; exact nofun)⟩, h.capacity, h.accepted, fun hover _ => ?_⟩
        · rw [← hbytes]
          simp only [unwritten, hwriter, List.append_assoc]
          rw [← List.append_assoc (left.take n), List.take_append_drop]
        · exact h.all hover (by rw [hwriter]; exact nofun)
      · cases hstep
  | next =>
      rw [SessionStream.step] at hstep
      split at hstep
      · rename_i packets bytes hwriter
        obtain rfl := Option.some.inj hstep
        have hopen : s.writer ≠ .ended := by
          rw [hwriter]
          exact nofun
        obtain ⟨queue, writer, hnext, hgoing, hunwritten, hshorter⟩ := nextPacket_spec hwriter
        rw [hnext]
        refine ⟨⟨lost, hunwritten ▸ hbytes, fun _ => hlost hopen⟩, ?_, h.accepted, fun hover _ => h.all hover hopen⟩
        rcases hshorter with ⟨-, hsame⟩ | hless
        · exact hsame ▸ h.capacity
        · exact Nat.le_trans (Nat.le_of_lt hless) h.capacity
      · cases hstep
  | leave =>
      obtain rfl := Option.some.inj hstep
      refine ⟨⟨s.unwritten ++ lost, hbytes, fun hopen => absurd rfl hopen⟩, h.capacity, h.accepted,
        fun _ hopen => absurd rfl hopen⟩
  | deliver n =>
      obtain rfl := Option.some.inj hstep
      refine ⟨⟨lost, ?_, hlost⟩, h.capacity, h.accepted, h.all⟩
      rw [← hbytes]
      dsimp only
      rw [List.flatten_append, List.flatten_singleton, List.append_assoc, ← List.append_assoc (s.wire.take n),
        List.take_append_drop]
      rfl

theorem intact_run {handshake : List Packet} {es : List StreamEvent} (h : run step (start handshake) es = some s) :
    s.Intact :=
  run_preserves (intact_start handshake) (fun _ _ _ _ hu hstep => hu.step hstep) h

/-- The steps that need neither the game nor a fault. -/
def Quiet : StreamEvent → Prop
  | .send _ | .leave => False
  | .recv | .write _ | .next | .deliver _ => True

/-- How many packets are to be taken, and whether one is being written. -/
def load (s : SessionStream) : Nat :=
  2 * s.queue.length +
    match s.writer with
    | .writing _ _ _ => 1
    | .idle | .ended => 0

/-- A connection that goes on can write all there is. -/
theorem exists_drained (hopen : s.writer ≠ .ended) : ∃ es t, (∀ e ∈ es, Quiet e) ∧ run step s es = some t ∧
    t.writer = .idle ∧ t.queue = [] ∧ t.wire = [] ∧ t.accepted = s.accepted := by
  generalize hn : s.load = n
  induction n using Nat.strong_induction_on generalizing s with
  | h n ih =>
      cases hwriter : s.writer with
      | ended => exact absurd hwriter hopen
      | idle =>
          cases hqueue : s.queue with
          | nil =>
              refine ⟨[.deliver s.wire.length], { s with wire := [], chunks := s.chunks ++ [s.wire] }, ?_, ?_, hwriter,
                hqueue, rfl, rfl⟩
              · exact List.forall_mem_singleton.mpr trivial
              · rw [run_cons_eq_some]
                exact ⟨_, rfl, by rw [run_nil, List.drop_length, List.take_length]⟩
          | cons packet queue =>
              have hrecv : s.step .recv = some { s with queue, writer := .writing 1 packet.length packet } := by
                rw [SessionStream.step, hwriter, hqueue]
              have hless : load { s with queue, writer := .writing 1 packet.length packet } < n := by
                rw [← hn, load, load, hwriter, hqueue, List.length_cons]
                dsimp only
                omega
              obtain ⟨es, t, hquiet, hrun, ht⟩ := ih _ hless (by exact nofun) rfl
              refine ⟨.recv :: es, t, List.forall_mem_cons.mpr ⟨trivial, hquiet⟩, ?_, ht⟩
              exact run_cons_eq_some.mpr ⟨_, hrecv, hrun⟩
      | writing packets bytes left =>
          have hwrite : s.step (.write left.length) =
              some { s with writer := .writing packets bytes [], wire := s.wire ++ left } := by
            rw [SessionStream.step, hwriter]
            dsimp only
            rw [List.drop_length, List.take_length]
          set u : SessionStream := { s with writer := .writing packets bytes [], wire := s.wire ++ left } with hu
          have hwriting : u.writer = .writing packets bytes [] := rfl
          obtain ⟨queue, writer, hnext, hgoing, -, hshorter⟩ := nextPacket_spec hwriting
          have hless : load { u with queue, writer } < n := by
            rw [← hn, load, load, hwriter]
            dsimp only
            rcases hshorter with ⟨rfl, rfl⟩ | hshorter
            · exact Nat.lt_succ_self _
            · have hshorter : queue.length < s.queue.length := hshorter
              split <;> omega
          obtain ⟨es, t, hquiet, hrun, ht⟩ := ih _ hless (by exact hgoing) rfl
          refine ⟨.write left.length :: .next :: es, t, ?_, ?_, ht⟩
          · exact List.forall_mem_cons.mpr ⟨trivial, List.forall_mem_cons.mpr ⟨trivial, hquiet⟩⟩
          · exact run_cons_eq_some.mpr ⟨u, hwrite, run_cons_eq_some.mpr ⟨_, congrArg some hnext, hrun⟩⟩

/-- What has come to the client of the packets that it accepts. -/
theorem Intact.client (h : s.Intact) (hlimit : ∀ p ∈ s.accepted, p.wireLen ≤ Packet.maxPacketLen) :
    s.client.errors = [] ∧ s.client.frames <+: s.accepted ∧
      (s.writer = .idle → s.queue = [] → s.wire = [] → s.client = ⟨[], s.accepted, []⟩) := by
  obtain ⟨lost, hbytes, hlost⟩ := h.bytes
  have hfollows := Packet.decodes.receiveAll hlimit Packet.decodes.barren_nil s.chunks
    (hbytes.trans (List.append_nil _).symm)
  have hcalm : s.client.errors = [] := by
    refine List.eq_nil_iff_forall_not_mem.mpr fun e he => ?_
    obtain ⟨q, hq, herror⟩ := hfollows.errors e he
    rw [List.prefix_nil.mp hq, Packet.tryDecode_nil] at herror
    cases herror
  obtain ⟨todo, htodo, -⟩ := hfollows.frames
  refine ⟨hcalm, ⟨todo, htodo.symm⟩, fun hwriter hqueue hwire => ?_⟩
  have hnone : s.wire ++ (s.unwritten ++ lost) = [] := by
    rw [hlost (by rw [hwriter]; exact nofun), hwire, unwritten, hwriter, hqueue]
    rfl
  rw [hnone] at hfollows
  obtain ⟨hframes, hbuf⟩ := hfollows.complete
  rw [← hcalm, ← hframes, ← hbuf]
  rfl

/-- Whatever the game, the connection, the network and the client do in between: the client has the beginning of what
was accepted for the session, it has all of it when nothing is on the way, and it can get there. Only a full outbox or
the end of the connection refuses a packet. -/
theorem stream_delivers {handshake : List Packet} {es : List StreamEvent} (h : run step (start handshake) es = some s)
    (hlimit : ∀ p ∈ s.accepted, p.wireLen ≤ Packet.maxPacketLen) :
    s.client.errors = [] ∧ s.client.frames <+: s.accepted ∧ s.accepted.Sublist s.sent ∧
      s.queue.length ≤ outboxCapacity ∧ (s.overflowed = false → s.writer ≠ .ended → s.accepted = s.sent) ∧
      (s.writer ≠ .ended → ∃ fs t, (∀ e ∈ fs, Quiet e) ∧ run step s fs = some t ∧ t.client = ⟨[], s.accepted, []⟩) := by
  have hintact := intact_run h
  obtain ⟨hcalm, hfront, -⟩ := hintact.client hlimit
  refine ⟨hcalm, hfront, hintact.accepted, hintact.capacity, hintact.all, fun hopen => ?_⟩
  obtain ⟨fs, t, hquiet, hrun, hwriter, hqueue, hwire, haccepted⟩ := exists_drained hopen
  have ht : t.Intact := run_preserves hintact (fun _ _ _ _ hu hstep => hu.step hstep) hrun
  exact ⟨fs, t, hquiet, hrun, haccepted ▸ (ht.client (haccepted ▸ hlimit)).2.2 hwriter hqueue hwire⟩

/-- Two packets after the handshake, the second of them still in the outbox. -/
theorem stream_delivers_greet : ∃ s, run step (start [Packet.greet])
      [.send Packet.greet, .recv, .write 3, .deliver 11, .send Packet.greet, .write 7] = some s ∧
    s.client.frames <+: [Packet.greet, Packet.greet, Packet.greet] := by
  obtain ⟨s, hrun, haccepted⟩ : ∃ s, run step (start [Packet.greet])
      [.send Packet.greet, .recv, .write 3, .deliver 11, .send Packet.greet, .write 7] = some s ∧
      s.accepted = [Packet.greet, Packet.greet, Packet.greet] := ⟨_, rfl, rfl⟩
  have hlimit : ∀ p ∈ s.accepted, p.wireLen ≤ Packet.maxPacketLen := by
    rw [haccepted]
    simp [Packet.wireLen, Packet.greet, Packet.maxPacketLen]
  exact ⟨s, hrun, haccepted ▸ (stream_delivers hrun hlimit).2.1⟩

end SessionStream

end OpenMines
