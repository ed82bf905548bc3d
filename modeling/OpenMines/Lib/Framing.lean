import Mathlib.Data.List.Flatten
import Mathlib.Data.List.Induction
import Mathlib.Logic.Basic

namespace OpenMines.Lib.Framing

variable {B A E : Type}

/-- A decoder takes the frame off the front of a buffer, waits for more bytes, or fails. -/
abbrev Decoder (B A E : Type) := List B → Except E (Option (A × List B))

/-- Take frames off a buffer until the decoder waits or fails. -/
def drain (decode : Decoder B A E) : Nat → List B → List A × List B × Option E
  | 0, buf => ([], buf, none)
  | n + 1, buf =>
    match decode buf with
    | .ok (some (a, rest)) => (a :: (drain decode n rest).1, (drain decode n rest).2)
    | .ok none => ([], buf, none)
    | .error e => ([], buf, some e)

structure Receiver (B A E : Type) where
  buf : List B
  frames : List A
  errors : List E

def Receiver.start : Receiver B A E := ⟨[], [], []⟩

/-- A chunk is appended to the buffer, and what is complete is taken off it. -/
def Receiver.receive (decode : Decoder B A E) (r : Receiver B A E) (chunk : List B) : Receiver B A E :=
  let d := drain decode ((r.buf ++ chunk).length + 1) (r.buf ++ chunk)
  ⟨d.2.1, r.frames ++ d.1, r.errors ++ d.2.2.toList⟩

def Receiver.receiveAll (decode : Decoder B A E) (chunks : List (List B)) : Receiver B A E :=
  chunks.foldl (receive decode) start

/-- The decoder finds the frames of an encoder, and waits for the rest of one. -/
structure Decodes (decode : Decoder B A E) (encode : A → List B) (accepts : A → Prop) : Prop where
  nil : decode [] = .ok none
  whole : ∀ a rest, accepts a → decode (encode a ++ rest) = .ok (some (a, rest))
  part : ∀ a p q, accepts a → p ++ q = encode a → q ≠ [] → decode p = .ok none

/-- No frame is found at the front of the bytes, however many of them are there. -/
def Barren (decode : Decoder B A E) (tail : List B) : Prop := ∀ p, p <+: tail → ∀ f, decode p ≠ .ok (some f)

variable {decode : Decoder B A E} {encode : A → List B} {accepts : A → Prop}

theorem Decodes.barren_nil (h : Decodes decode encode accepts) : Barren decode [] := by
  intro p hp f hf
  rw [List.prefix_nil.mp hp, h.nil] at hf
  cases hf

theorem Decodes.encode_ne_nil (h : Decodes decode encode accepts) {a : A} (ha : accepts a) : encode a ≠ [] := by
  intro hempty
  have hwhole := h.whole a [] ha
  rw [hempty, List.append_nil, h.nil] at hwhole
  cases hwhole

/-- How a receiver stands in a stream of frames: all of them are taken, or it waits for the next. -/
inductive Stand (decode : Decoder B A E) (tail later : List B) : List A → List B → Prop
  | ended {rest : List B} (h : rest ++ later = tail) : Stand decode tail later [] rest
  | waits {a : A} {todo : List A} {rest : List B} (hdecode : decode rest = .ok none) (hlater : later ≠ []) :
      Stand decode tail later (a :: todo) rest

/-- What a buffer gives of a stream of frames: the first of them, and what there is of the next. -/
theorem Decodes.drain (h : Decodes decode encode accepts) {as : List A} (has : ∀ a ∈ as, accepts a) {tail : List B}
    (htail : Barren decode tail) {buf later : List B} (hbuf : buf ++ later = as.flatMap encode ++ tail) {n : Nat}
    (hn : buf.length < n) :
    ∃ done todo rest error, as = done ++ todo ∧ buf = done.flatMap encode ++ rest ∧
      drain decode n buf = (done, rest, error) ∧ (∀ e, error = some e ↔ decode rest = .error e) ∧
      Stand decode tail later todo rest := by
  induction as generalizing buf n with
  | nil =>
      obtain ⟨n, rfl⟩ := Nat.exists_eq_succ_of_ne_zero (Nat.ne_of_gt (Nat.zero_lt_of_lt hn))
      rw [Framing.drain]
      cases hdecode : decode buf with
      | error e =>
          refine ⟨[], [], buf, some e, rfl, rfl, rfl, fun e' => ?_, .ended hbuf⟩
          rw [hdecode, Option.some_inj, Except.error.injEq]
      | ok found =>
          cases found with
          | none =>
              refine ⟨[], [], buf, none, rfl, rfl, rfl, fun e' => ?_, .ended hbuf⟩
              rw [hdecode]
              exact iff_of_false (fun he => by cases he) fun he => by cases he
          | some f => exact absurd hdecode (htail buf ⟨later, hbuf⟩ f)
  | cons a as ih =>
      obtain ⟨n, rfl⟩ := Nat.exists_eq_succ_of_ne_zero (Nat.ne_of_gt (Nat.zero_lt_of_lt hn))
      have ha := has a List.mem_cons_self
      rw [List.flatMap_cons, List.append_assoc] at hbuf
      by_cases hwhole : ∃ w, buf = encode a ++ w
      · obtain ⟨w, rfl⟩ := hwhole
        have hnext : w ++ later = as.flatMap encode ++ tail := by
          rw [List.append_assoc] at hbuf
          exact List.append_cancel_left hbuf
        have hless : w.length < n := by
          have hpos := List.length_pos_iff.mpr (h.encode_ne_nil ha)
          rw [List.length_append] at hn
          omega
        obtain ⟨done, todo, rest, error, rfl, rfl, hdrain, herror, hstand⟩ :=
          ih (fun b hb => has b (List.mem_cons_of_mem _ hb)) hnext hless
        refine ⟨a :: done, todo, rest, error, rfl, ?_, ?_, herror, hstand⟩
        · rw [List.flatMap_cons, List.append_assoc]
        · rw [Framing.drain, h.whole a _ ha]
          dsimp only
          rw [hdrain]
      · have hpart : ∃ w, encode a = buf ++ w ∧ w ≠ [] ∧ later ≠ [] := by
          rcases List.append_eq_append_iff.mp hbuf with ⟨w, hencode, hlater⟩ | ⟨w, hw, -⟩
          · have hne : w ≠ [] := by
              rintro rfl
              exact hwhole ⟨[], by rw [hencode, List.append_nil, List.append_nil]⟩
            exact ⟨w, hencode, hne, by rw [hlater]; exact List.append_ne_nil_of_left_ne_nil hne _⟩
          · exact absurd ⟨w, hw⟩ hwhole
        obtain ⟨w, hencode, hne, hlater⟩ := hpart
        have hdecode := h.part a buf w ha hencode.symm hne
        refine ⟨[], a :: as, buf, none, rfl, rfl, ?_, fun e => ?_, .waits hdecode hlater⟩
        · rw [Framing.drain, hdecode]
        · rw [hdecode]
          exact iff_of_false (fun he => by cases he) fun he => by cases he

/-- The frames that a receiver has of those sent to it, and what there is of the next. -/
structure Receiver.Follows (decode : Decoder B A E) (encode : A → List B) (as : List A) (tail sent later : List B)
    (r : Receiver B A E) : Prop where
  frames : ∃ todo, as = r.frames ++ todo ∧ Stand decode tail later todo r.buf
  sent : sent = r.frames.flatMap encode ++ r.buf
  error : ∀ e, decode r.buf = .error e → e ∈ r.errors
  errors : ∀ e ∈ r.errors, ∃ p, p <+: tail ∧ decode p = .error e

theorem Decodes.receive (h : Decodes decode encode accepts) {as : List A} (has : ∀ a ∈ as, accepts a) {tail : List B}
    (htail : Barren decode tail) {sent chunk later : List B} (hsent : sent ++ (chunk ++ later) = as.flatMap encode ++ tail)
    {r : Receiver B A E} (hr : r.Follows decode encode as tail sent (chunk ++ later)) :
    (r.receive decode chunk).Follows decode encode as tail (sent ++ chunk) later := by
  obtain ⟨todo, htodo, -⟩ := hr.frames
  have hbuf : (r.buf ++ chunk) ++ later = todo.flatMap encode ++ tail := by
    rw [htodo, hr.sent, List.flatMap_append, List.append_assoc, List.append_assoc] at hsent
    rw [List.append_assoc]
    exact List.append_cancel_left hsent
  have hmem : ∀ a ∈ todo, accepts a := fun a ha => has a (htodo ▸ List.mem_append_right _ ha)
  obtain ⟨done, left, rest, error, rfl, hrest, hdrain, herror, hstand⟩ :=
    h.drain hmem htail hbuf (Nat.lt_succ_self _)
  rw [Receiver.receive, hdrain]
  refine ⟨⟨left, ?_, hstand⟩, ?_, fun e he => ?_, fun e he => ?_⟩
  · rw [htodo, List.append_assoc]
  · dsimp only
    rw [hr.sent, List.append_assoc, hrest, List.flatMap_append, List.append_assoc]
  · rw [(herror e).mpr he]
    exact List.mem_append_right _ (List.mem_singleton.mpr rfl)
  · rcases List.mem_append.mp he with hold | hnew
    · exact hr.errors e hold
    · have hdecode := (herror e).mp (Option.mem_toList.mp hnew)
      cases hstand with
      | ended hended => exact ⟨rest, ⟨later, hended⟩, hdecode⟩
      | waits hwaits => cases hwaits.symm.trans hdecode

/-- A receiver follows a stream of frames, however it is cut into chunks. -/
theorem Decodes.receiveAll (h : Decodes decode encode accepts) {as : List A} (has : ∀ a ∈ as, accepts a)
    {tail : List B} (htail : Barren decode tail) (chunks : List (List B)) {later : List B}
    (hchunks : chunks.flatten ++ later = as.flatMap encode ++ tail) :
    (Receiver.receiveAll decode chunks).Follows decode encode as tail chunks.flatten later := by
  induction chunks using List.reverseRecOn generalizing later with
  | nil =>
      refine ⟨?_, rfl, fun e he => ?_, fun _ he => by cases he⟩
      · refine ⟨as, rfl, ?_⟩
        cases as with
        | nil => exact .ended hchunks
        | cons a as =>
            refine .waits h.nil fun hlater => ?_
            rw [hlater, List.flatMap_cons, List.append_assoc] at hchunks
            exact List.append_ne_nil_of_left_ne_nil (h.encode_ne_nil (has a List.mem_cons_self)) _ hchunks.symm
      · exact absurd (h.nil.symm.trans he) (fun hne => by cases hne)
  | append_singleton chunks chunk ih =>
      rw [List.flatten_append, List.flatten_singleton, List.append_assoc] at hchunks
      rw [Receiver.receiveAll, List.foldl_append, List.flatten_append, List.flatten_singleton]
      exact h.receive has htail hchunks (ih hchunks)

/-- When all has come that is to come, the receiver has every frame, and what follows them is left. -/
theorem Receiver.Follows.complete {as : List A} {tail sent : List B} {r : Receiver B A E}
    (h : r.Follows decode encode as tail sent []) : r.frames = as ∧ r.buf = tail := by
  obtain ⟨todo, htodo, hstand⟩ := h.frames
  cases hstand with
  | ended hended =>
      rw [List.append_nil] at htodo hended
      exact ⟨htodo.symm, hended⟩
  | waits _ hlater => exact absurd rfl hlater

end OpenMines.Lib.Framing
