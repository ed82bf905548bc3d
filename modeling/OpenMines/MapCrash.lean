import OpenMines.MapRecover

namespace OpenMines.MapFormat.FlushState

open Lib.FileImage MapStore

/-- However many of the byte stores on their way still happen, the live cells can
be had back from the file. -/
structure Safe (ck : MapStore) (touched : Nat → Nat → Prop) (s : FlushState) : Prop where
  checkpoint : ck.WellFormed
  consistent : s.Consistent
  recoverable : ∀ n, Recoverable ck s.store touched (pokes s.file (s.rest.take n))

variable {ck : MapStore} {touched : Nat → Nat → Prop} {s : FlushState}

theorem Safe.file (h : s.Safe ck touched) : Recoverable ck s.store touched s.file := by
  simpa using h.recoverable 0

theorem Safe.mono {touched' : Nat → Nat → Prop} (h : s.Safe ck touched)
    (hle : ∀ id c, touched id c → touched' id c) : s.Safe ck touched' :=
  ⟨h.checkpoint, h.consistent, fun n => (h.recoverable n).mono hle⟩

theorem Safe.setCell (h : s.Safe ck touched) {x y : Int32} (cell : UInt8)
    (htouched : ∀ id c, s.store.locate x y = some (id, c) → touched id c) :
    Safe ck touched { s with store := s.store.setCell x y cell } where
  checkpoint := h.checkpoint
  consistent := setCell_consistent h.consistent x y cell
  recoverable := fun n => (h.recoverable n).setCell h.consistent.wellFormed cell htouched

theorem Safe.take (h : s.Safe ck touched) {b : MapFlushBatch} {m : MapStore} (hp : s.pending = none)
    (htake : s.store.takeFlushBatch = some (b, m)) :
    Safe ck touched { s with store := m, pending := some (b, b.writes) } where
  checkpoint := h.checkpoint
  consistent := take_consistent h.consistent hp htake
  recoverable := by
    intro n
    have hagrees := h.consistent.agrees
    rw [rest, hp] at hagrees
    have hrec := h.file.pokes_writes h.consistent.wellFormed h.checkpoint hagrees htake n
    exact hrec.congr (takeFlushBatch_sameCells htake)

theorem Safe.write (h : s.Safe ck touched) {b : MapFlushBatch} {rest : List (Nat × UInt8)}
    (hp : s.pending = some (b, rest)) (n : Nat) :
    Safe ck touched { s with file := pokes s.file (rest.take n), pending := some (b, rest.drop n) } where
  checkpoint := h.checkpoint
  consistent := write_consistent h.consistent hp n
  recoverable := by
    intro k
    have hrec := h.recoverable (n + k)
    rw [FlushState.rest, hp] at hrec
    rwa [List.take_add, pokes_append] at hrec

theorem Safe.fail (h : s.Safe ck touched) {b : MapFlushBatch} {rest : List (Nat × UInt8)}
    (hp : s.pending = some (b, rest)) :
    Safe ck touched { s with store := s.store.restoreFlushBatch b, pending := none } where
  checkpoint := h.checkpoint
  consistent := fail_consistent h.consistent hp
  recoverable := by
    intro n
    simpa [FlushState.rest] using h.file.congr (restoreFlushBatch_sameCells s.store b)

/-- A store and the file that it serializes to. -/
theorem serialize_safe {m : MapStore} (hm : m.WellFormed) (touched : Nat → Nat → Prop) :
    Safe m touched { store := m, file := m.serialize, pending := none } where
  checkpoint := hm
  consistent := ⟨hm, ⟨Nat.le_refl _, by simp [rest], by simp [rest], fun _ _ _ _ => rfl⟩, by simp⟩
  recoverable := by
    intro n
    simp only [rest, List.take_nil, pokes_nil]
    exact recoverable_serialize rfl rfl (fun _ _ => id) (Nat.le_refl _) (fun _ _ _ => rfl)

/-- Once the byte stores are done and nothing else is dirty, the store can be the
next checkpoint. -/
theorem Safe.complete (h : s.Safe ck touched) (hrest : s.rest = []) (hclean : s.store.isDirty = false)
    (touched' : Nat → Nat → Prop) : Safe s.store touched' { s with pending := none } := by
  have hagrees := h.consistent.agrees
  rw [hrest] at hagrees
  have hsafe := serialize_safe h.consistent.wellFormed touched'
  rw [← serialize_eq_of_fileAgrees hagrees hclean] at hsafe
  exact hsafe

/-- The store that the reader makes of the file takes the place of the lost one. -/
theorem Safe.reopen (h : s.Safe ck touched) {m : MapStore} (hok : deserialize s.file = .ok m) :
    Safe ck touched { store := m, file := s.file, pending := none } where
  checkpoint := h.checkpoint
  consistent := by
    have hwf := h.consistent.wellFormed
    have hser := h.file.reload_serialize hwf hok
    refine ⟨h.file.reload_wellFormed hwf hok, ?_, by simp⟩
    exact ⟨by rw [hser], by simp [rest], by simp [rest], fun p _ _ _ => by rw [hser]⟩
  recoverable := by
    intro n
    simpa [rest] using h.file.reload h.consistent.wellFormed h.checkpoint hok

end OpenMines.MapFormat.FlushState
