import Mathlib.Data.List.Sort
import Mathlib.Data.List.TakeWhile
import Mathlib.Logic.Function.Basic

namespace OpenMines.Lib

/-- Deadlines in a heap, the earliest first, and the one that counts for each key. A key that gets another deadline
leaves the old one in the heap, where it is stale. -/
structure DueSchedule (K : Type) where
  due : List (Nat × K)
  scheduled : K → Option Nat

namespace DueSchedule

section Sound

variable {K : Type}

def empty : DueSchedule K := ⟨[], fun _ => none⟩

def discardStaleHead (s : DueSchedule K) : DueSchedule K :=
  { s with due := s.due.dropWhile fun entry => s.scheduled entry.2 ≠ some entry.1 }

/-- The deadline is the one that counts, and it is in the heap. -/
def Holds (s : DueSchedule K) (key : K) (dueAt : Nat) : Prop :=
  s.scheduled key = some dueAt ∧ (dueAt, key) ∈ s.due

/-- Each deadline that counts is in the heap. -/
def Sound (s : DueSchedule K) : Prop := ∀ key dueAt, s.scheduled key = some dueAt → (dueAt, key) ∈ s.due

theorem sound_empty : (empty : DueSchedule K).Sound := fun _ _ h => by cases h

theorem Sound.holds_iff {s : DueSchedule K} {key : K} {dueAt : Nat} (h : s.Sound) :
    s.Holds key dueAt ↔ s.scheduled key = some dueAt :=
  ⟨And.left, fun hkey => ⟨hkey, h key dueAt hkey⟩⟩

theorem Sound.discardStaleHead {s : DueSchedule K} (h : s.Sound) : s.discardStaleHead.Sound := by
  intro k d hk
  have hmem : (d, k) ∈ s.due.takeWhile (fun entry => s.scheduled entry.2 ≠ some entry.1) ++
      s.due.dropWhile fun entry => s.scheduled entry.2 ≠ some entry.1 := by
    rw [List.takeWhile_append_dropWhile]
    exact h k d hk
  refine (List.mem_append.mp hmem).resolve_left fun hstale => ?_
  have hne := List.mem_takeWhile_imp hstale
  exact of_decide_eq_true hne hk

theorem Sound.stale {key : K} {dueAt : Nat} {due : List (Nat × K)} {scheduled : K → Option Nat}
    (h : Sound ⟨(dueAt, key) :: due, scheduled⟩) (hstale : scheduled key ≠ some dueAt) : Sound ⟨due, scheduled⟩ := by
  intro k d hk
  refine (List.mem_cons.mp (h k d hk)).resolve_left fun heq => hstale ?_
  obtain ⟨rfl, rfl⟩ := Prod.mk.inj heq
  exact hk

end Sound

variable {K : Type} [LinearOrder K]

/-- Which entry of the heap comes first. -/
def Before (a b : Nat × K) : Prop := a.1 < b.1 ∨ a.1 = b.1 ∧ a.2 ≤ b.2

instance : DecidableRel (Before (K := K)) := fun a b =>
  inferInstanceAs (Decidable (a.1 < b.1 ∨ a.1 = b.1 ∧ a.2 ≤ b.2))

def push (due : List (Nat × K)) (dueAt : Nat) (key : K) : List (Nat × K) := due.orderedInsert Before (dueAt, key)

/-- The last deadline of a key counts. -/
def schedule (s : DueSchedule K) (key : K) (dueAt : Nat) : DueSchedule K :=
  ⟨push s.due dueAt key, Function.update s.scheduled key (some dueAt)⟩

/-- At most `limit` of the keys that are due, with their deadlines. -/
def popFrom (now : Nat) : List (Nat × K) → Nat → (K → Option Nat) → List (K × Nat) × DueSchedule K
  | due, 0, scheduled => ([], ⟨due, scheduled⟩)
  | [], _ + 1, scheduled => ([], ⟨[], scheduled⟩)
  | (dueAt, key) :: due, limit + 1, scheduled =>
      if scheduled key = some dueAt then
        if now < dueAt then ([], ⟨(dueAt, key) :: due, scheduled⟩)
        else
          let popped := popFrom now due limit (Function.update scheduled key none)
          ((key, dueAt) :: popped.1, popped.2)
      else popFrom now due (limit + 1) scheduled

def popDue (s : DueSchedule K) (now limit : Nat) : List (K × Nat) × DueSchedule K :=
  popFrom now s.due limit s.scheduled

variable {s : DueSchedule K} {key : K} {dueAt now limit : Nat}

@[simp] theorem schedule_scheduled (s : DueSchedule K) (key : K) (dueAt : Nat) :
    (s.schedule key dueAt).scheduled = Function.update s.scheduled key (some dueAt) := rfl

theorem Sound.schedule (h : s.Sound) (key : K) (dueAt : Nat) : (s.schedule key dueAt).Sound := by
  intro k d hk
  refine (List.mem_orderedInsert Before).mpr ?_
  by_cases hkey : k = key
  · subst hkey
    rw [schedule_scheduled, Function.update_self] at hk
    exact .inl (by rw [Option.some.inj hk])
  · rw [schedule_scheduled, Function.update_of_ne hkey] at hk
    exact .inr (h k d hk)

theorem Sound.popped {due : List (Nat × K)} {scheduled : K → Option Nat}
    (h : Sound ⟨(dueAt, key) :: due, scheduled⟩) : Sound ⟨due, Function.update scheduled key none⟩ := by
  intro k d (hk : Function.update scheduled key none k = some d)
  have hne : k ≠ key := by
    rintro rfl
    rw [Function.update_self] at hk
    cases hk
  rw [Function.update_of_ne hne] at hk
  exact (List.mem_cons.mp (h k d hk)).resolve_left fun heq => hne (congrArg Prod.snd heq)

theorem popFrom_sound {due : List (Nat × K)} {scheduled : K → Option Nat} (h : (⟨due, scheduled⟩ : DueSchedule K).Sound) :
    (popFrom now due limit scheduled).2.Sound := by
  induction due generalizing limit scheduled with
  | nil => cases limit <;> exact h
  | cons entry due ih =>
      cases limit with
      | zero => exact h
      | succ limit =>
          rw [popFrom]
          split
          · split
            · exact h
            · exact ih h.popped
          · rename_i hstale
            exact ih (h.stale hstale)

theorem popFrom_mem {due : List (Nat × K)} {scheduled : K → Option Nat}
    (h : (key, dueAt) ∈ (popFrom now due limit scheduled).1) : scheduled key = some dueAt ∧ dueAt ≤ now := by
  induction due generalizing limit scheduled with
  | nil => cases limit <;> exact absurd h List.not_mem_nil
  | cons entry due ih =>
      obtain ⟨d, k⟩ := entry
      cases limit with
      | zero => exact absurd h List.not_mem_nil
      | succ limit =>
          rw [popFrom] at h
          split at h
          · rename_i hcounts
            split at h
            · exact absurd h List.not_mem_nil
            · rename_i hdue
              rcases List.mem_cons.mp h with heq | hrest
              · obtain ⟨rfl, rfl⟩ := Prod.mk.inj heq
                exact ⟨hcounts, Nat.le_of_not_lt hdue⟩
              · obtain ⟨hkey, hnow⟩ := ih hrest
                by_cases hsame : key = k
                · subst hsame
                  rw [Function.update_self] at hkey
                  cases hkey
                · rw [Function.update_of_ne hsame] at hkey
                  exact ⟨hkey, hnow⟩
          · exact ih h

/-- A key that is popped has no deadline any more, and every other one keeps its own. -/
theorem popFrom_scheduled {due : List (Nat × K)} {scheduled : K → Option Nat} :
    (popFrom now due limit scheduled).2.scheduled key =
      if key ∈ (popFrom now due limit scheduled).1.map Prod.fst then none else scheduled key := by
  induction due generalizing limit scheduled with
  | nil => cases limit <;> simp [popFrom]
  | cons entry due ih =>
      obtain ⟨d, k⟩ := entry
      cases limit with
      | zero => simp [popFrom]
      | succ limit =>
          rw [popFrom]
          split
          · split
            · simp
            · simp only [List.map_cons, List.mem_cons]
              rw [ih]
              by_cases hkey : key = k
              · subst hkey
                simp
              · rw [Function.update_of_ne hkey]
                simp only [hkey, false_or]
          · exact ih

theorem popFrom_nodup {due : List (Nat × K)} {scheduled : K → Option Nat} :
    ((popFrom now due limit scheduled).1.map Prod.fst).Nodup := by
  induction due generalizing limit scheduled with
  | nil => cases limit <;> exact List.nodup_nil
  | cons entry due ih =>
      obtain ⟨d, k⟩ := entry
      cases limit with
      | zero => exact List.nodup_nil
      | succ limit =>
          rw [popFrom]
          split
          · split
            · exact List.nodup_nil
            · refine List.nodup_cons.mpr ⟨fun hmem => ?_, ih⟩
              obtain ⟨⟨k', d'⟩, hentry, rfl⟩ := List.mem_map.mp hmem
              have hkey := (popFrom_mem hentry).1
              rw [Function.update_self] at hkey
              cases hkey
          · exact ih

theorem Sound.popDue (h : s.Sound) : (s.popDue now limit).2.Sound := popFrom_sound h

theorem popDue_mem (h : (key, dueAt) ∈ (s.popDue now limit).1) : s.scheduled key = some dueAt ∧ dueAt ≤ now :=
  popFrom_mem h

theorem popDue_scheduled (key : K) :
    (s.popDue now limit).2.scheduled key =
      if key ∈ (s.popDue now limit).1.map Prod.fst then none else s.scheduled key := popFrom_scheduled

theorem popDue_nodup : ((s.popDue now limit).1.map Prod.fst).Nodup := popFrom_nodup

end DueSchedule

end OpenMines.Lib
