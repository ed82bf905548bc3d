import Mathlib.Data.Finset.Sort
import Mathlib.Order.Lattice.Nat
import OpenMines.Lib.DueSchedule
import OpenMines.Lib.Refinement

namespace OpenMines.Lib

open Refinement

namespace DueSchedule

variable {K : Type}

/-- The earliest deadline that counts. -/
def nextDueAt (s : DueSchedule K) : Option Nat × DueSchedule K :=
  (s.discardStaleHead.due.head?.map Prod.fst, s.discardStaleHead)

def isDue (s : DueSchedule K) (now : Nat) : Bool × DueSchedule K :=
  (s.discardStaleHead.due.head?.any fun entry => decide (entry.1 ≤ now), s.discardStaleHead)

/-- The earliest deadline of a key counts. -/
def scheduleEarliest [LinearOrder K] (s : DueSchedule K) (key : K) (dueAt : Nat) : DueSchedule K :=
  match s.scheduled key with
  | none => s.schedule key dueAt
  | some previous => if dueAt < previous then s.schedule key dueAt else s

theorem Sound.scheduleEarliest [LinearOrder K] {s : DueSchedule K} (h : s.Sound) (key : K) (dueAt : Nat) :
    (s.scheduleEarliest key dueAt).Sound := by
  rw [DueSchedule.scheduleEarliest]
  split
  · exact h.schedule key dueAt
  · split
    · exact h.schedule key dueAt
    · exact h

theorem isSome_scheduled_scheduleEarliest [LinearOrder K] (s : DueSchedule K) (key k : K) (dueAt : Nat) :
    ((s.scheduleEarliest key dueAt).scheduled k).isSome ↔ k = key ∨ (s.scheduled k).isSome := by
  have hschedule : ((s.schedule key dueAt).scheduled k).isSome ↔ k = key ∨ (s.scheduled k).isSome := by
    rw [schedule_scheduled]
    by_cases hk : k = key
    · rw [hk, Function.update_self]
      exact iff_of_true rfl (.inl rfl)
    · rw [Function.update_of_ne hk, or_iff_right hk]
  rw [scheduleEarliest]
  split
  · exact hschedule
  · rename_i previous hprevious
    split
    · exact hschedule
    · refine (or_iff_right_of_imp fun hk => ?_).symm
      rw [hk, hprevious]
      rfl

end DueSchedule

/-- A deadline for each of finitely many keys. -/
structure DeadlineMap (K : Type) where
  deadline : K → Option Nat
  finite : {entry : Nat × K | deadline entry.2 = some entry.1}.Finite

namespace DeadlineMap

section Order

variable {K : Type} [LinearOrder K]

/-- The entries in the order of their deadlines, and of the keys among equal ones. -/
abbrev Before : Nat × K → Nat × K → Prop := DueSchedule.Before

instance : IsTrans (Nat × K) Before where
  trans a b c hab hbc := by
    rcases hab with hab | ⟨hab, hkab⟩
    · rcases hbc with hbc | ⟨hbc, -⟩
      · exact .inl (hab.trans hbc)
      · exact .inl (hbc ▸ hab)
    · rcases hbc with hbc | ⟨hbc, hkbc⟩
      · exact .inl (hab.symm ▸ hbc)
      · exact .inr ⟨hab.trans hbc, hkab.trans hkbc⟩

instance : @Std.Antisymm (Nat × K) Before where
  antisymm a b hab hba := by
    rcases hab with hab | ⟨hab, hkab⟩
    · rcases hba with hba | ⟨hba, -⟩
      · exact absurd hba hab.asymm
      · exact absurd hba.symm hab.ne
    · rcases hba with hba | ⟨-, hkba⟩
      · exact absurd hab.symm hba.ne
      · exact Prod.ext hab (le_antisymm hkab hkba)

instance : @Std.Total (Nat × K) Before where
  total a b := by
    rcases lt_trichotomy a.1 b.1 with hlt | heq | hlt
    · exact .inl (.inl hlt)
    · rcases le_total a.2 b.2 with hle | hle
      · exact .inl (.inr ⟨heq, hle⟩)
      · exact .inr (.inr ⟨heq.symm, hle⟩)
    · exact .inr (.inl hlt)

theorem le_of_before {a b : Nat × K} (h : Before a b) : a.1 ≤ b.1 := by
  rcases h with hlt | ⟨heq, -⟩
  · exact hlt.le
  · exact heq.le

end Order

section Basic

variable {K : Type}

@[ext] theorem ext {m m' : DeadlineMap K} (h : m.deadline = m'.deadline) : m = m' := by
  cases m
  cases m'
  cases h
  rfl

def empty : DeadlineMap K := ⟨fun _ => none, by simp⟩

noncomputable def entries (m : DeadlineMap K) : Finset (Nat × K) := m.finite.toFinset

@[simp] theorem mem_entries {m : DeadlineMap K} {entry : Nat × K} :
    entry ∈ m.entries ↔ m.deadline entry.2 = some entry.1 := by
  rw [entries, Set.Finite.mem_toFinset, Set.mem_ofPred_eq]

def deadlines (m : DeadlineMap K) : Set Nat := {dueAt | ∃ key, m.deadline key = some dueAt}

end Basic

variable {K : Type} [LinearOrder K]

def set (m : DeadlineMap K) (key : K) (dueAt : Nat) : DeadlineMap K where
  deadline := Function.update m.deadline key (some dueAt)
  finite := by
    refine (m.finite.insert (dueAt, key)).subset fun entry hentry => ?_
    rw [Set.mem_ofPred_eq] at hentry
    by_cases hkey : entry.2 = key
    · rw [hkey, Function.update_self] at hentry
      exact .inl (Prod.ext (Option.some.inj hentry).symm hkey)
    · rw [Function.update_of_ne hkey] at hentry
      exact .inr hentry

def remove (m : DeadlineMap K) (keys : List K) : DeadlineMap K where
  deadline key := if key ∈ keys then none else m.deadline key
  finite := by
    refine m.finite.subset fun entry hentry => ?_
    rw [Set.mem_ofPred_eq] at hentry
    split at hentry
    · cases hentry
    · exact hentry

/-- The last deadline of a key counts. -/
def schedule (m : DeadlineMap K) (key : K) (dueAt : Nat) : DeadlineMap K := m.set key dueAt

/-- The earliest deadline of a key counts. -/
def scheduleEarliest (m : DeadlineMap K) (key : K) (dueAt : Nat) : DeadlineMap K :=
  m.set key ((m.deadline key).elim dueAt (min dueAt))

/-- All the entries, each of them once, in their order. -/
noncomputable def ordered (m : DeadlineMap K) : List (Nat × K) := m.entries.sort Before

/-- The first entries of those that are due, and the map without them. -/
noncomputable def popDue (m : DeadlineMap K) (now limit : Nat) : List (K × Nat) × DeadlineMap K :=
  let due := (m.ordered.filter fun entry => decide (entry.1 ≤ now)).take limit
  (due.map Prod.swap, m.remove (due.map Prod.snd))

open Classical in
/-- The least deadline. -/
noncomputable def nextDueAt (m : DeadlineMap K) : Option Nat :=
  if m.deadlines.Nonempty then some (sInf m.deadlines) else none

open Classical in
noncomputable def isDue (m : DeadlineMap K) (now : Nat) : Bool := decide (∃ dueAt ∈ m.deadlines, dueAt ≤ now)

theorem mem_ordered {m : DeadlineMap K} {entry : Nat × K} :
    entry ∈ m.ordered ↔ m.deadline entry.2 = some entry.1 := by
  rw [ordered, Finset.mem_sort, mem_entries]

variable {m : DeadlineMap K} {key : K} {dueAt now limit : Nat}

theorem ordered_eq_cons (hkey : m.deadline key = some dueAt)
    (hfirst : ∀ entry, m.deadline entry.2 = some entry.1 → Before (dueAt, key) entry) :
    m.ordered = (dueAt, key) :: (m.remove [key]).ordered := by
  have hne : (dueAt, key) ∉ (m.remove [key]).entries := by
    simp [remove]
  have hentries : m.entries = insert (dueAt, key) (m.remove [key]).entries := by
    ext entry
    obtain ⟨d, k⟩ := entry
    rw [Finset.mem_insert, mem_entries, mem_entries]
    by_cases hk : k = key
    · subst hk
      simp [remove, hkey, eq_comm]
    · simp [remove, hk]
  rw [ordered, ordered, hentries]
  refine Finset.sort_insert _ (fun entry hentry => hfirst entry ?_) hne
  rw [mem_entries] at hentry
  rw [← mem_entries, hentries]
  exact Finset.mem_insert_of_mem (mem_entries.mpr hentry)

theorem popDue_cons (hkey : m.deadline key = some dueAt)
    (hfirst : ∀ entry, m.deadline entry.2 = some entry.1 → Before (dueAt, key) entry) (hdue : dueAt ≤ now) :
    (m.popDue now (limit + 1)).1 = (key, dueAt) :: ((m.remove [key]).popDue now limit).1 := by
  rw [popDue, popDue, ordered_eq_cons hkey hfirst, List.filter_cons_of_pos (by simpa using hdue)]
  rfl

theorem popDue_nil (h : ∀ entry : Nat × K, m.deadline entry.2 = some entry.1 → now < entry.1) :
    (m.popDue now limit).1 = [] := by
  have hnone : (m.ordered.filter fun entry => decide (entry.1 ≤ now)) = [] := by
    rw [List.filter_eq_nil_iff]
    intro entry hentry
    have hlater := h entry (mem_ordered.mp hentry)
    simpa using hlater
  rw [popDue, hnone]
  simp

end DeadlineMap

namespace DueSchedule

open DeadlineMap

variable {K : Type} [LinearOrder K]

/-- The heap stands for the map: what counts is what the map has, and the heap has it in its order. -/
structure Represents (s : DueSchedule K) (m : DeadlineMap K) : Prop where
  scheduled : s.scheduled = m.deadline
  sound : s.Sound
  sorted : s.due.Pairwise Before

variable {s : DueSchedule K} {m : DeadlineMap K} {key : K} {dueAt now limit : Nat}

theorem represents_empty : Represents (empty : DueSchedule K) .empty := ⟨rfl, sound_empty, .nil⟩

theorem Represents.schedule (h : Represents s m) (key : K) (dueAt : Nat) :
    Represents (s.schedule key dueAt) (m.schedule key dueAt) where
  scheduled := by
    rw [schedule_scheduled, h.scheduled]
    rfl
  sound := h.sound.schedule key dueAt
  sorted := h.sorted.orderedInsert (dueAt, key) _

theorem Represents.scheduleEarliest (h : Represents s m) (key : K) (dueAt : Nat) :
    Represents (s.scheduleEarliest key dueAt) (m.scheduleEarliest key dueAt) := by
  rw [DueSchedule.scheduleEarliest, DeadlineMap.scheduleEarliest, h.scheduled]
  cases hprevious : m.deadline key with
  | none => exact h.schedule key dueAt
  | some previous =>
      simp only [Option.elim_some]
      by_cases hlt : dueAt < previous
      · rw [if_pos hlt, min_eq_left hlt.le]
        exact h.schedule key dueAt
      · rw [if_neg hlt, min_eq_right (Nat.le_of_not_lt hlt)]
        have hsame : m.set key previous = m := by
          ext1
          show Function.update m.deadline key (some previous) = m.deadline
          rw [← hprevious, Function.update_eq_self]
        rwa [hsame]

theorem Represents.discardStaleHead (h : Represents s m) : Represents s.discardStaleHead m :=
  ⟨h.scheduled, h.sound.discardStaleHead, h.sorted.sublist (List.dropWhile_sublist _)⟩

/-- The head of the heap, when it counts, is the first entry of the map. -/
theorem Represents.first {due : List (Nat × K)} {scheduled : K → Option Nat}
    (h : Represents ⟨(dueAt, key) :: due, scheduled⟩ m) (entry : Nat × K)
    (hentry : m.deadline entry.2 = some entry.1) : Before (dueAt, key) entry := by
  have hmem := h.sound entry.2 entry.1 ((congrFun h.scheduled entry.2).trans hentry)
  rcases List.mem_cons.mp hmem with heq | hrest
  · rw [show entry = (dueAt, key) from heq]
    exact .inr ⟨rfl, le_rfl⟩
  · exact (List.pairwise_cons.mp h.sorted).1 entry hrest

theorem Represents.popped {due : List (Nat × K)} {scheduled : K → Option Nat}
    (h : Represents ⟨(dueAt, key) :: due, scheduled⟩ m) :
    Represents ⟨due, Function.update scheduled key none⟩ (m.remove [key]) where
  scheduled := by
    funext k
    show Function.update scheduled key none k = if k ∈ [key] then none else m.deadline k
    rw [← h.scheduled, Function.update_apply]
    simp only [List.mem_singleton]
  sound := h.sound.popped
  sorted := h.sorted.of_cons

theorem Represents.stale {due : List (Nat × K)} {scheduled : K → Option Nat}
    (h : Represents ⟨(dueAt, key) :: due, scheduled⟩ m) (hstale : scheduled key ≠ some dueAt) :
    Represents ⟨due, scheduled⟩ m where
  scheduled := h.scheduled
  sound := h.sound.stale hstale
  sorted := h.sorted.of_cons

/-- The heap pops what the map pops: by induction on the heap, whose head is stale or the first entry of the map. -/
theorem Represents.popFrom_fst {due : List (Nat × K)} {scheduled : K → Option Nat}
    (h : Represents ⟨due, scheduled⟩ m) : (popFrom now due limit scheduled).1 = (m.popDue now limit).1 := by
  induction due generalizing limit scheduled m with
  | nil =>
      have hnone : ∀ entry : Nat × K, m.deadline entry.2 = some entry.1 → now < entry.1 := fun entry hentry =>
        absurd (h.sound entry.2 entry.1 ((congrFun h.scheduled entry.2).trans hentry)) List.not_mem_nil
      rw [popDue_nil hnone]
      cases limit <;> rfl
  | cons entry due ih =>
      obtain ⟨dueAt, key⟩ := entry
      cases limit with
      | zero => rfl
      | succ limit =>
          rw [popFrom]
          split
          · rename_i hcounts
            have hkey : m.deadline key = some dueAt := (congrFun h.scheduled key).symm.trans hcounts
            split
            · rename_i hlater
              exact (popDue_nil fun entry hentry => hlater.trans_le (le_of_before (h.first entry hentry))).symm
            · rename_i hdue
              rw [popDue_cons hkey h.first (Nat.le_of_not_lt hdue), ← ih h.popped]
          · rename_i hstale
            exact ih (h.stale hstale)

theorem popFrom_suffix {due : List (Nat × K)} {scheduled : K → Option Nat} :
    (popFrom now due limit scheduled).2.due <:+ due := by
  induction due generalizing limit scheduled with
  | nil => cases limit <;> exact List.suffix_refl _
  | cons entry due ih =>
      obtain ⟨dueAt, key⟩ := entry
      cases limit with
      | zero => exact List.suffix_refl _
      | succ limit =>
          rw [popFrom]
          split
          · split
            · exact List.suffix_refl _
            · exact ih.trans (List.suffix_cons _ _)
          · exact ih.trans (List.suffix_cons _ _)

theorem Represents.popDue (h : Represents s m) :
    (s.popDue now limit).1 = (m.popDue now limit).1 ∧
      Represents (s.popDue now limit).2 (m.popDue now limit).2 := by
  have hpopped : (s.popDue now limit).1 = (m.popDue now limit).1 := Represents.popFrom_fst h
  refine ⟨hpopped, ?_, h.sound.popDue, h.sorted.sublist popFrom_suffix.sublist⟩
  funext key
  rw [popDue_scheduled, hpopped, h.scheduled]
  simp only [DeadlineMap.popDue, DeadlineMap.remove, List.map_map]
  rfl

/-- What is at the head of the heap once the stale entries are gone. -/
theorem Represents.head? (h : Represents s m) :
    (s.discardStaleHead.due.head? = none ∧ m.deadlines = ∅) ∨
      ∃ entry, s.discardStaleHead.due.head? = some entry ∧ IsLeast m.deadlines entry.1 := by
  have hfresh := h.discardStaleHead
  cases hdue : s.discardStaleHead.due with
  | nil =>
      refine .inl ⟨rfl, Set.eq_empty_iff_forall_notMem.mpr ?_⟩
      rintro dueAt ⟨key, hkey⟩
      have hmem := hfresh.sound key dueAt ((congrFun hfresh.scheduled key).trans hkey)
      rw [hdue] at hmem
      exact List.not_mem_nil hmem
  | cons entry due =>
      refine .inr ⟨entry, rfl, ⟨entry.2, ?_⟩, ?_⟩
      · have hcounts := List.head?_dropWhile_not (fun entry : Nat × K => decide (s.scheduled entry.2 ≠ some entry.1)) s.due
        rw [show s.due.dropWhile _ = entry :: due from hdue] at hcounts
        rw [← h.scheduled]
        simpa using hcounts
      · rintro dueAt ⟨key, hkey⟩
        have hfirst : Represents ⟨(entry.1, entry.2) :: due, s.discardStaleHead.scheduled⟩ m :=
          hdue ▸ hfresh
        exact le_of_before (hfirst.first (dueAt, key) hkey)

theorem Represents.nextDueAt (h : Represents s m) : s.nextDueAt.1 = m.nextDueAt := by
  rw [DueSchedule.nextDueAt, DeadlineMap.nextDueAt]
  rcases h.head? with ⟨hnone, hempty⟩ | ⟨entry, hsome, hleast⟩
  · rw [hnone, hempty, if_neg Set.not_nonempty_empty]
    rfl
  · rw [hsome, if_pos hleast.nonempty, hleast.csInf_eq]
    rfl

theorem Represents.isDue (h : Represents s m) : (s.isDue now).1 = m.isDue now := by
  rw [DueSchedule.isDue, DeadlineMap.isDue, Bool.eq_iff_iff, @decide_eq_true_iff _ (_)]
  rcases h.head? with ⟨hnone, hempty⟩ | ⟨entry, hsome, hleast⟩
  · rw [hnone, hempty]
    simp
  · rw [hsome, Option.any_some, decide_eq_true_iff]
    constructor
    · intro hle
      exact ⟨entry.1, hleast.1, hle⟩
    · rintro ⟨dueAt, hmem, hle⟩
      exact (hleast.2 hmem).trans hle

/-- Whether the key has a deadline, as a number. -/
def held (s : DueSchedule K) (key : K) : Nat := if (s.scheduled key).isSome then 1 else 0

/-- What is popped has been held, and is held no more. -/
theorem count_popDue_le (s : DueSchedule K) (key : K) :
    ((s.popDue now limit).1.map Prod.fst).count key + (s.popDue now limit).2.held key ≤ s.held key := by
  rw [held, held, popDue_scheduled]
  by_cases hmem : key ∈ (s.popDue now limit).1.map Prod.fst
  · have hone := List.count_eq_one_of_mem popDue_nodup hmem
    obtain ⟨⟨k, dueAt⟩, hentry, rfl⟩ := List.mem_map.mp hmem
    rw [hone, if_pos hmem, (popDue_mem hentry).1]
    exact le_rfl
  · rw [List.count_eq_zero_of_not_mem hmem, if_neg hmem, Nat.zero_add]

theorem held_schedule_le (s : DueSchedule K) (key k : K) (dueAt : Nat) :
    (s.schedule k dueAt).held key ≤ (if k = key then 1 else 0) + s.held key := by
  by_cases hk : k = key
  · subst hk
    rw [held, schedule_scheduled, Function.update_self, if_pos rfl]
    exact Nat.le_add_right 1 _
  · rw [held, schedule_scheduled, Function.update_of_ne (Ne.symm hk), held]
    exact Nat.le_add_left _ _

theorem held_scheduleEarliest_le (s : DueSchedule K) (key k : K) (dueAt : Nat) :
    (s.scheduleEarliest k dueAt).held key ≤ (if k = key then 1 else 0) + s.held key := by
  rw [scheduleEarliest]
  split
  · exact s.held_schedule_le key k dueAt
  · split
    · exact s.held_schedule_le key k dueAt
    · exact Nat.le_add_left _ _

end DueSchedule

end OpenMines.Lib
