import OpenMines.Lib.FixedWidth
import OpenMines.Lib.LittleEndian
import OpenMines.Lib.Run

namespace OpenMines.Journal

open Lib.FixedWidth Lib.LittleEndian Lib.Run

/-- The bytes `OWJ1`. -/
def journalMagic : List UInt8 := [79, 87, 74, 49]

def journalRecordLen : Nat := 18

/-- The cells of one coordinate after a mutation; `durability` is an `f32`,
given by its bits. -/
structure JournalRecord where
  x : Int32
  y : Int32
  foreground : UInt8
  road : UInt8
  durability : UInt32
  deriving DecidableEq

namespace JournalRecord

def encode (r : JournalRecord) : List UInt8 :=
  journalMagic ++ i32ToBytes r.x ++ i32ToBytes r.y ++ [r.foreground, r.road] ++ u32ToBytes r.durability

def decode (chunk : List UInt8) : JournalRecord :=
  { x := i32OfBytes ((chunk.drop 4).take 4)
    y := i32OfBytes ((chunk.drop 8).take 4)
    foreground := chunk.getD 12 0
    road := chunk.getD 13 0
    durability := u32OfBytes ((chunk.drop 14).take 4) }

@[simp] theorem length_encode (r : JournalRecord) : r.encode.length = journalRecordLen := by
  simp [encode, journalMagic, journalRecordLen]

theorem take_encode (r : JournalRecord) : r.encode.take 4 = journalMagic := by
  simp only [encode, List.append_assoc]
  exact List.take_left' rfl

theorem decode_encode (r : JournalRecord) : decode r.encode = r := by
  obtain ⟨x, y, foreground, road, durability⟩ := r
  have hx := length_i32ToBytes x
  have hy := length_i32ToBytes y
  have hd := length_u32ToBytes durability
  generalize hbx : i32ToBytes x = bx at hx
  generalize hby : i32ToBytes y = by_ at hy
  generalize hbd : u32ToBytes durability = bd at hd
  have hencode : encode ⟨x, y, foreground, road, durability⟩ =
      journalMagic ++ bx ++ by_ ++ [foreground, road] ++ bd := by rw [encode, hbx, hby, hbd]
  obtain ⟨x0, x1, x2, x3, rfl⟩ := exists_of_length_four hx
  obtain ⟨y0, y1, y2, y3, rfl⟩ := exists_of_length_four hy
  obtain ⟨d0, d1, d2, d3, rfl⟩ := exists_of_length_four hd
  rw [hencode]
  simp only [decode, journalMagic, List.cons_append, List.nil_append, List.drop_succ_cons,
    List.drop_zero, List.take_succ_cons, List.take_zero, List.getD_cons_succ, List.getD_cons_zero]
  rw [← hbx, ← hby, ← hbd, i32OfBytes_i32ToBytes, i32OfBytes_i32ToBytes, u32OfBytes_u32ToBytes]

end JournalRecord

def readChunk (path : String) (chunk : List UInt8) : Except String JournalRecord :=
  if chunk.take 4 ≠ journalMagic then .error s!"corrupt world journal {path}: bad magic"
  else .ok (JournalRecord.decode chunk)

/-- The records of a journal file, when there is one. Bytes after the last
complete record are not looked at. -/
def readRecords (path : String) (file : Option (List UInt8)) : Except String (List JournalRecord) :=
  match file with
  | none => .ok []
  | some bytes => (chunksExact journalRecordLen bytes).mapM (readChunk path)

theorem readRecords_torn (path : String) (records : List JournalRecord) {tail : List UInt8}
    (h : tail.length < journalRecordLen) :
    readRecords path (some (records.flatMap JournalRecord.encode ++ tail)) = .ok records := by
  rw [readRecords, chunksExact_flatMap JournalRecord.encode _ JournalRecord.length_encode records tail h]
  induction records with
  | nil => rfl
  | cons r records ih =>
      simp [readChunk, JournalRecord.take_encode, JournalRecord.decode_encode, ih]
      rfl

/-- The journal file, whether a world has it open for appending, and the
appends that completed since the last checkpoint. -/
structure JournalState where
  file : Option (List UInt8)
  live : Bool
  completed : List JournalRecord
  deriving DecidableEq

inductive JournalEvent
  | append (r : JournalRecord)
  /-- a write that stopped after some bytes -/
  | cutAppend (r : JournalRecord) (bytes : Nat)
  | checkpoint
  | crash
  /-- `World::new`: `fresh` when it flushes whatever the journal holds, `flushes`
  when a flush gets to its checkpoint, `opens` when nothing else fails -/
  | reopen (fresh flushes opens : Bool)

namespace JournalState

def bytes (s : JournalState) : List UInt8 := s.file.getD []

def start : JournalState := { file := none, live := false, completed := [] }

def step (path : String) (s : JournalState) : JournalEvent → Option JournalState
  | .append r =>
    if s.live then some { s with file := some (s.bytes ++ r.encode), completed := s.completed ++ [r] }
    else none
  | .cutAppend r n =>
    if s.live ∧ n < journalRecordLen then some { s with file := some (s.bytes ++ r.encode.take n) }
    else none
  | .checkpoint => if s.live then some { s with file := some [], completed := [] } else none
  | .crash => some { s with live := false }
  | .reopen fresh flushes opens =>
    if s.live then none
    else
      match readRecords path s.file with
      | .error _ => some s
      | .ok records =>
        if fresh ∨ records ≠ [] then
          if flushes then some { file := some [], live := opens, completed := [] }
          else some { s with file := some s.bytes }
        else some { s with file := some s.bytes, live := opens }

/-- Appends start where the last record ends. -/
def AtRecordEnd (s : JournalState) : JournalEvent → Prop
  | .append _ | .cutAppend _ _ => s.bytes.length % journalRecordLen = 0
  | _ => True

/-- The file holds the completed records and a torn tail. -/
def Torn (s : JournalState) : Prop :=
  ∃ tail, tail.length < journalRecordLen ∧
    s.bytes = s.completed.flatMap JournalRecord.encode ++ tail

theorem Torn.of_bytes {s t : JournalState} (h : s.Torn) (hbytes : t.bytes = s.bytes)
    (hcompleted : t.completed = s.completed) : t.Torn := by
  obtain ⟨tail, htail, hfile⟩ := h
  exact ⟨tail, htail, by rw [hbytes, hcompleted, hfile]⟩

theorem torn_of_empty {s : JournalState} (hbytes : s.bytes = []) (hcompleted : s.completed = []) :
    s.Torn := ⟨[], by decide, by rw [hbytes, hcompleted]; rfl⟩

theorem torn_eq_of_boundary {s : JournalState} (h : s.Torn)
    (hend : s.bytes.length % journalRecordLen = 0) :
    s.bytes = s.completed.flatMap JournalRecord.encode := by
  obtain ⟨tail, htail, hfile⟩ := h
  rw [hfile, List.length_append, length_flatMap _ _ JournalRecord.length_encode,
    Nat.mul_add_mod_self_right, Nat.mod_eq_of_lt htail] at hend
  rw [hfile, List.length_eq_zero_iff.mp hend, List.append_nil]

theorem readRecords_eq_of_torn (path : String) {s : JournalState} (h : s.Torn) :
    readRecords path s.file = .ok s.completed := by
  obtain ⟨tail, htail, hfile⟩ := h
  cases hf : s.file with
  | none =>
      rw [bytes, hf, Option.getD_none] at hfile
      obtain ⟨hnil, -⟩ := List.append_eq_nil_iff.mp hfile.symm
      cases hc : s.completed with
      | nil => rfl
      | cons r records =>
          rw [hc, List.flatMap_cons] at hnil
          have hlen := congrArg List.length hnil
          simp [journalRecordLen] at hlen
  | some bs =>
      rw [bytes, hf, Option.getD_some] at hfile
      rw [hfile, readRecords_torn path s.completed htail]

theorem step_torn (path : String) {s t : JournalState} {e : JournalEvent} (hs : s.Torn)
    (hend : s.AtRecordEnd e) (h : s.step path e = some t) : t.Torn := by
  cases e with
  | append r =>
      simp only [step] at h
      split at h
      · cases h
        refine ⟨[], by decide, ?_⟩
        simp [bytes, ← torn_eq_of_boundary hs hend]
      · cases h
  | cutAppend r n =>
      simp only [step] at h
      split at h
      · rename_i hcut
        cases h
        refine ⟨r.encode.take n, ?_, ?_⟩
        · rw [List.length_take, JournalRecord.length_encode]
          omega
        · simp [bytes, ← torn_eq_of_boundary hs hend]
      · cases h
  | checkpoint =>
      simp only [step] at h
      split at h
      · cases h
        exact torn_of_empty rfl rfl
      · cases h
  | crash =>
      cases h
      exact hs.of_bytes rfl rfl
  | reopen fresh flushes opens =>
      simp only [step] at h
      split at h
      · cases h
      · split at h
        · cases h
          exact hs
        · split at h
          · split at h
            · cases h
              exact torn_of_empty rfl rfl
            · cases h
              exact hs.of_bytes rfl rfl
          · cases h
            exact hs.of_bytes rfl rfl

/-- As long as every append starts at the end of a record, each opening reads
back exactly the appends that completed since the last checkpoint. -/
theorem readRecords_run (path : String) {es : List JournalEvent} {s : JournalState}
    (hend : Meets (step path) AtRecordEnd start es) (h : run (step path) start es = some s) :
    readRecords path s.file = .ok s.completed :=
  readRecords_eq_of_torn path
    (run_preserves_of_meets (torn_of_empty rfl rfl) hend
      (fun _ _ _ ht he hstep => step_torn path ht he hstep) h)

def sampleRecord : JournalRecord :=
  { x := 3, y := 5, foreground := 40, road := 35, durability := 1065353216 }

def tornTailRun : List JournalEvent :=
  [.reopen true true true, .append sampleRecord, .cutAppend sampleRecord 5, .crash,
    .reopen false true true, .append sampleRecord]

/-- A tail torn behind a complete record is gone after the next opening. -/
theorem readRecords_after_torn_tail : ∃ s, run (step "w") start tornTailRun = some s ∧
    s.completed = [sampleRecord] ∧ readRecords "w" s.file = .ok s.completed := by
  have hrun : ∃ s, run (step "w") start tornTailRun = some s ∧ s.completed = [sampleRecord] :=
    ⟨_, rfl, rfl⟩
  obtain ⟨s, hrun, hcompleted⟩ := hrun
  refine ⟨s, hrun, hcompleted, readRecords_run "w" ?_ hrun⟩
  iterate 6 refine ⟨by trivial, ?_⟩; rintro _ ⟨⟩
  trivial

/-- A tail torn with no complete record before it stays, and the next append
makes the journal unreadable. -/
theorem readRecords_torn_first : ∃ s,
    run (step "w") start [.reopen true true true, .cutAppend sampleRecord 2, .crash,
      .reopen false true true, .append sampleRecord] = some s ∧
    s.completed = [sampleRecord] ∧
    readRecords "w" s.file = .error "corrupt world journal w: bad magic" := by
  refine ⟨_, rfl, rfl, ?_⟩
  rfl

end JournalState

end OpenMines.Journal
