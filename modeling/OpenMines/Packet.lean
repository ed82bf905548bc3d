import OpenMines.Lib.Framing
import OpenMines.Lib.LittleEndian

namespace OpenMines

open Lib.LittleEndian Lib.Framing

/-- The outer wire packet: its length, a byte for the type, two for the event, the payload. -/
structure Packet where
  dataType : UInt8
  eventName : UInt8 × UInt8
  payload : List UInt8
  deriving DecidableEq

namespace Packet

def wireLen (p : Packet) : Nat := 4 + 1 + 2 + p.payload.length

/-- `Packet::encode`; the length prefix is signed. -/
def encode (p : Packet) (buf : List UInt8) : Except String (List UInt8) :=
  if p.wireLen ≤ 2147483647 then
    .ok (buf ++ i32ToBytes (Int32.ofNat p.wireLen) ++ [p.dataType] ++ [p.eventName.1, p.eventName.2] ++ p.payload)
  else .error "packet wire length overflow"

def maxPacketLen : Nat := 65536

/-- `Packet::try_decode`, which returns the rest of the buffer. -/
def tryDecode (buf : List UInt8) : Except String (Option (Packet × List UInt8)) :=
  if buf.length < 4 then .ok none
  else
    let lengthRaw := i32OfBytes (buf.take 4)
    if lengthRaw < 0 then .error s!"invalid packet length: {lengthRaw}"
    else
      let length := lengthRaw.toInt.toNat
      if length < 7 then .error s!"packet too small: {length}"
      else if maxPacketLen < length then .error s!"packet too large: {length}"
      else if buf.length < length then .ok none
      else
        let data := buf.take length
        .ok (some (⟨data.getD 4 0, (data.getD 5 0, data.getD 6 0), data.drop 7⟩, buf.drop length))

/-- One packet after the other into one buffer. -/
def encodeAll (ps : List Packet) : Except String (List UInt8) := ps.foldlM (fun buf p => p.encode buf) []

/-- The bytes of a packet. -/
def frame (p : Packet) : List UInt8 :=
  i32ToBytes (Int32.ofNat p.wireLen) ++ p.dataType :: p.eventName.1 :: p.eventName.2 :: p.payload

variable {p : Packet} {buf : List UInt8}

theorem length_frame (p : Packet) : p.frame.length = p.wireLen := by
  rw [frame, List.length_append, length_i32ToBytes, wireLen]
  simp only [List.length_cons]
  omega

theorem encode_eq_ok {bytes : List UInt8} :
    p.encode buf = .ok bytes ↔ p.wireLen ≤ 2147483647 ∧ bytes = buf ++ p.frame := by
  rw [encode]
  split
  · rename_i h
    rw [Except.ok.injEq, frame, eq_comm]
    simp [h, List.append_assoc]
  · rename_i h
    exact iff_of_false (fun herror => by cases herror) fun hok => h hok.1

theorem encodeAll_eq_ok {ps : List Packet} {bytes : List UInt8} (h : encodeAll ps = .ok bytes) :
    (∀ p ∈ ps, p.wireLen ≤ 2147483647) ∧ bytes = ps.flatMap frame := by
  have hfold : ∀ buf, ps.foldlM (fun buf p => p.encode buf) buf = .ok bytes →
      (∀ p ∈ ps, p.wireLen ≤ 2147483647) ∧ bytes = buf ++ ps.flatMap frame := by
    clear h
    induction ps with
    | nil =>
        intro buf h
        exact ⟨List.forall_mem_nil _, by rw [List.flatMap_nil, List.append_nil, ← Except.ok.inj h]⟩
    | cons p ps ih =>
        intro buf h
        rw [List.foldlM_cons] at h
        cases hp : p.encode buf with
        | error e =>
            rw [hp] at h
            cases h
        | ok next =>
            rw [hp] at h
            obtain ⟨hle, rfl⟩ := encode_eq_ok.mp hp
            obtain ⟨hall, hbytes⟩ := ih _ h
            exact ⟨List.forall_mem_cons.mpr ⟨hle, hall⟩, by rw [hbytes, List.flatMap_cons, List.append_assoc]⟩
  exact hfold [] h

/-- What the decoder makes of a buffer in which the length of a packet is complete. -/
theorem tryDecode_of_take (hle : p.wireLen ≤ 2147483647) (hbuf : buf.take 4 = i32ToBytes (Int32.ofNat p.wireLen)) :
    tryDecode buf =
      if maxPacketLen < p.wireLen then .error s!"packet too large: {p.wireLen}"
      else if buf.length < p.wireLen then .ok none
      else
        .ok (some (⟨(buf.take p.wireLen).getD 4 0, ((buf.take p.wireLen).getD 5 0, (buf.take p.wireLen).getD 6 0),
          (buf.take p.wireLen).drop 7⟩, buf.drop p.wireLen)) := by
  have hlength : ¬ buf.length < 4 := by
    have htake := congrArg List.length hbuf
    rw [List.length_take, length_i32ToBytes] at htake
    omega
  have hint : (Int32.ofNat p.wireLen).toInt = p.wireLen := Int32.toInt_ofNat_of_lt (by omega)
  have hraw : i32OfBytes (buf.take 4) = Int32.ofNat p.wireLen := by rw [hbuf, i32OfBytes_i32ToBytes]
  have hsmall : ¬ p.wireLen < 7 := by
    rw [wireLen]
    omega
  have hneg : ¬ Int32.ofNat p.wireLen < 0 := by
    rw [Int32.lt_iff_toInt_lt, hint]
    exact Int.not_lt.mpr (Int.natCast_nonneg _)
  rw [tryDecode, if_neg hlength, hraw]
  dsimp only
  rw [if_neg hneg, hint, Int.toNat_natCast, if_neg hsmall]

theorem tryDecode_nil : tryDecode [] = .ok none := rfl

theorem take_frame (p : Packet) (rest : List UInt8) :
    (p.frame ++ rest).take 4 = i32ToBytes (Int32.ofNat p.wireLen) := by
  rw [frame, List.append_assoc, List.take_left' (length_i32ToBytes _)]

theorem tryDecode_short (h : buf.length < 4) : tryDecode buf = .ok none := by
  rw [tryDecode, if_pos h]

/-- The decoder finds the packets within its limit. -/
theorem decodes : Decodes tryDecode frame fun p => p.wireLen ≤ maxPacketLen where
  nil := tryDecode_nil
  whole p rest hp := by
    have hle : p.wireLen ≤ 2147483647 := Nat.le_trans hp (by decide)
    have hlength : ¬ (p.frame ++ rest).length < p.wireLen := by
      rw [List.length_append, length_frame]
      omega
    rw [tryDecode_of_take hle (take_frame p rest), if_neg (Nat.not_lt.mpr hp), if_neg hlength,
      List.take_left' (length_frame p), List.drop_left' (length_frame p), frame]
    obtain ⟨a, b, c, d, hbytes⟩ := exists_of_length_four (length_i32ToBytes (Int32.ofNat p.wireLen))
    rw [hbytes]
    rfl
  part p q r hp hqr hr := by
    by_cases hshort : q.length < 4
    · exact tryDecode_short hshort
    · have hle : p.wireLen ≤ 2147483647 := Nat.le_trans hp (by decide)
      have htake : q.take 4 = i32ToBytes (Int32.ofNat p.wireLen) := by
        have hfront := take_frame p []
        rw [List.append_nil, ← hqr, List.take_append_of_le_length (Nat.not_lt.mp hshort)] at hfront
        exact hfront
      have hlength : q.length < p.wireLen := by
        have hsum := congrArg List.length hqr
        have hpos := List.length_pos_iff.mpr hr
        rw [List.length_append, length_frame] at hsum
        omega
      rw [tryDecode_of_take hle htake, if_neg (Nat.not_lt.mpr hp), if_pos hlength]

/-- A packet over the limit is refused as soon as its length is there. -/
theorem tryDecode_large (hle : p.wireLen ≤ 2147483647) (hlarge : maxPacketLen < p.wireLen) {rest : List UInt8}
    (hbuf : buf <+: p.frame ++ rest) :
    tryDecode buf = if buf.length < 4 then .ok none else .error s!"packet too large: {p.wireLen}" := by
  split
  · rename_i hshort
    exact tryDecode_short hshort
  · rename_i hlong
    have htake : buf.take 4 = i32ToBytes (Int32.ofNat p.wireLen) := by
      obtain ⟨later, hlater⟩ := hbuf
      rw [← take_frame p rest, ← hlater, List.take_append_of_le_length (Nat.not_lt.mp hlong)]
    rw [tryDecode_of_take hle htake, if_pos hlarge]

theorem barren_large (hle : p.wireLen ≤ 2147483647) (hlarge : maxPacketLen < p.wireLen) (rest : List UInt8) :
    Barren tryDecode (p.frame ++ rest) := by
  intro q hq f hf
  rw [tryDecode_large hle hlarge hq] at hf
  split at hf <;> cases hf

/-- A stream of packets within the limit is received whole, whatever chunks it comes in, and every byte
that came is in a packet or in the buffer. A larger packet is refused, after those before it. -/
theorem stream_received {ps : List Packet} {bytes : List UInt8} (hencode : encodeAll ps = .ok bytes)
    {chunks : List (List UInt8)} (hchunks : chunks.flatten = bytes) :
    ((∀ p ∈ ps, p.wireLen ≤ maxPacketLen) →
      Receiver.receiveAll tryDecode chunks = ⟨[], ps, []⟩ ∧
        ∀ k, let r := Receiver.receiveAll tryDecode (chunks.take k)
          r.frames <+: ps ∧ r.errors = [] ∧ (chunks.take k).flatten = r.frames.flatMap frame ++ r.buf) ∧
    ∀ front p later, ps = front ++ p :: later → (∀ q ∈ front, q.wireLen ≤ maxPacketLen) → maxPacketLen < p.wireLen →
      ∃ errors, errors ≠ [] ∧
        Receiver.receiveAll tryDecode chunks = ⟨(p :: later).flatMap frame, front, errors⟩ := by
  obtain ⟨hall, hbytes⟩ := encodeAll_eq_ok hencode
  rw [hbytes] at hchunks
  refine ⟨fun hlimit => ?_, fun front p later hps hfront hlarge => ?_⟩
  · have hfollows : ∀ k, (Receiver.receiveAll tryDecode (chunks.take k)).Follows tryDecode frame ps []
        (chunks.take k).flatten (chunks.drop k).flatten := fun k => by
      refine decodes.receiveAll hlimit decodes.barren_nil (chunks.take k) ?_
      rw [← List.flatten_append, List.take_append_drop, hchunks, List.append_nil]
    have hcalm : ∀ k, (Receiver.receiveAll tryDecode (chunks.take k)).errors = [] := fun k => by
      refine List.eq_nil_iff_forall_not_mem.mpr fun e he => ?_
      obtain ⟨q, hq, herror⟩ := (hfollows k).errors e he
      rw [List.prefix_nil.mp hq, tryDecode_nil] at herror
      cases herror
    refine ⟨?_, fun k => ⟨?_, hcalm k, (hfollows k).sent⟩⟩
    · have hfull := hfollows chunks.length
      have herrors := hcalm chunks.length
      rw [List.take_length] at hfull herrors
      rw [List.drop_length] at hfull
      obtain ⟨hframes, hbuf⟩ := hfull.complete
      generalize Receiver.receiveAll tryDecode chunks = r at hframes hbuf herrors
      obtain ⟨buf, frames, errors⟩ := r
      subst hframes hbuf herrors
      rfl
    · obtain ⟨todo, htodo, -⟩ := (hfollows k).frames
      exact ⟨todo, htodo.symm⟩
  · have hle : p.wireLen ≤ 2147483647 := hall p (hps ▸ List.mem_append_right _ List.mem_cons_self)
    have hstream : chunks.flatten ++ [] = front.flatMap frame ++ (p.frame ++ later.flatMap frame) := by
      rw [List.append_nil, hchunks, hps, List.flatMap_append, List.flatMap_cons]
    have hfollows := decodes.receiveAll hfront (barren_large hle hlarge _) chunks hstream
    obtain ⟨hframes, hbuf⟩ := hfollows.complete
    have herror := hfollows.error s!"packet too large: {p.wireLen}" (by
      have hlong : ¬ (p.frame ++ later.flatMap frame).length < 4 := by
        rw [List.length_append, length_frame, wireLen]
        omega
      rw [hbuf, tryDecode_large hle hlarge List.prefix_rfl, if_neg hlong])
    refine ⟨_, List.ne_nil_of_mem herror, ?_⟩
    rw [List.flatMap_cons, ← hbuf, ← hframes]

def greet : Packet := ⟨85, (80, 79), [1, 2, 3]⟩

/-- Two packets in three chunks, the first of which ends in the middle of a length. -/
theorem stream_received_in_three :
    Receiver.receiveAll tryDecode [[10, 0], [0, 0, 85, 80, 79, 1, 2, 3, 10, 0, 0], [0, 85, 80, 79, 1, 2, 3]] =
      ⟨[], [greet, greet], []⟩ :=
  ((stream_received (show encodeAll [greet, greet] = .ok _ from rfl) rfl).1 (by decide)).1

theorem encodeAll_single (hle : p.wireLen ≤ 2147483647) : encodeAll [p] = .ok p.frame := by
  have hone : p.encode [] = .ok p.frame := encode_eq_ok.mpr ⟨hle, (List.nil_append _).symm⟩
  rw [encodeAll, List.foldlM_cons, hone]
  rfl

theorem refused_alone (hle : p.wireLen ≤ 2147483647) (hlarge : maxPacketLen < p.wireLen) :
    (Receiver.receiveAll tryDecode [p.frame]).frames = [] ∧ (Receiver.receiveAll tryDecode [p.frame]).errors ≠ [] := by
  have hstream : [p.frame].flatten ++ [] = ([] : List Packet).flatMap frame ++ (p.frame ++ []) := by
    rw [List.flatten_singleton, List.flatMap_nil, List.nil_append]
  have hfollows := decodes.receiveAll (List.forall_mem_nil _) (barren_large hle hlarge []) [p.frame] hstream
  obtain ⟨hframes, hbuf⟩ := hfollows.complete
  have hlong : ¬ (p.frame ++ []).length < 4 := by
    rw [List.append_nil, length_frame, wireLen]
    omega
  refine ⟨hframes, List.ne_nil_of_mem (hfollows.error s!"packet too large: {p.wireLen}" ?_)⟩
  rw [hbuf, tryDecode_large hle hlarge List.prefix_rfl, if_neg hlong]

def zeros (n : Nat) : Packet := ⟨66, (72, 66), List.replicate n 0⟩

theorem wireLen_zeros (n : Nat) : (zeros n).wireLen = 7 + n := by
  rw [wireLen, zeros, List.length_replicate]

/-- A packet that is encoded, but not decoded: it is longer by one byte than the decoder allows. -/
theorem zeros_refused : ∃ p bytes, encodeAll [p] = .ok bytes ∧
    (Receiver.receiveAll tryDecode [bytes]).frames = [] ∧ (Receiver.receiveAll tryDecode [bytes]).errors ≠ [] := by
  have hle : (zeros 65530).wireLen ≤ 2147483647 := by
    rw [wireLen_zeros]
    decide
  have hlarge : maxPacketLen < (zeros 65530).wireLen := by
    rw [wireLen_zeros]
    decide
  exact ⟨zeros 65530, (zeros 65530).frame, encodeAll_single hle, refused_alone hle hlarge⟩

end Packet

end OpenMines
