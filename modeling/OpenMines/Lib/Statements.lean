import Mathlib.Logic.Basic

namespace OpenMines.Lib.Statements

/-- What a program leaves: its result, the data, and how many statements it took. -/
structure Answer (D E α : Type) where
  result : Except E α
  data : D
  count : Nat

/-- A program of statements on a store with data `D`; it is told which of its statements fail. -/
def Prog (D E α : Type) : Type := (Nat → Bool) → D → Answer D E α

variable {D E α β : Type}

namespace Prog

def ret (a : α) : Prog D E α := fun _ d => ⟨.ok a, d, 0⟩

def fail (e : E) : Prog D E α := fun _ d => ⟨.error e, d, 0⟩

def andThen (m : Prog D E α) (k : α → Prog D E β) : Prog D E β := fun fails d =>
  match m fails d with
  | ⟨.ok a, d', n⟩ => ⟨(k a (fun i => fails (n + i)) d').result, (k a (fun i => fails (n + i)) d').data,
      n + (k a (fun i => fails (n + i)) d').count⟩
  | ⟨.error e, d', n⟩ => ⟨.error e, d', n⟩

instance : Monad (Prog D E) where
  pure := ret
  bind := andThen

/-- One statement. It fails with the error `busy` and without an effect, as it does when the store
refuses it. -/
def statement (busy : E) (f : D → Option (α × D)) : Prog D E α := fun fails d =>
  if fails 0 then ⟨.error busy, d, 1⟩
  else match f d with
    | some (a, d') => ⟨.ok a, d', 1⟩
    | none => ⟨.error busy, d, 1⟩

def read (busy : E) (f : D → α) : Prog D E α := statement busy fun d => some (f d, d)

def forEach (f : α → Prog D E Unit) : List α → Prog D E Unit
  | [] => ret ()
  | x :: xs => andThen (f x) fun _ => forEach f xs

/-- The error of a program is a result. -/
def swallow (m : Prog D E α) : Prog D E (Except E α) := fun fails d =>
  ⟨.ok (m fails d).result, (m fails d).data, (m fails d).count⟩

/-- The program between the statements that begin and commit; it may ask to be rolled back. -/
def bracket (busy : E) (m : Prog D E (Bool × α)) : Prog D E (Bool × α) :=
  andThen (read busy fun _ => ()) fun _ => andThen m fun r =>
    if r.1 then andThen (read busy fun _ => ()) fun _ => ret r else ret r

/-- All of a program has an effect, or nothing has. -/
def transaction (busy : E) (m : Prog D E (Bool × α)) : Prog D E α := fun fails d =>
  match bracket busy m fails d with
  | ⟨.ok (true, a), d', n⟩ => ⟨.ok a, d', n⟩
  | ⟨.ok (false, a), _, n⟩ => ⟨.ok a, d, n⟩
  | ⟨.error e, _, n⟩ => ⟨.error e, d, n⟩

/-- The run in which no statement fails. -/
def calm (m : Prog D E α) (d : D) : Answer D E α := m (fun _ => false) d

/-- Where none of its statements fails, the program does as when none fails anywhere. -/
def Steady (m : Prog D E α) : Prop :=
  ∀ fails d, (∀ i < (m.calm d).count, fails i = false) → m fails d = m.calm d

/-- A failure of one of its statements is the result of the program. -/
def Strict (busy : E) (m : Prog D E α) : Prop :=
  ∀ fails d i, i < (m.calm d).count → fails i = true → (m fails d).result = .error busy

/-- A failure of one of the first statements is the result, and it leaves the data as they were. -/
def Guarded (busy : E) (first : Nat) (m : Prog D E α) : Prop :=
  ∀ fails d i, i < first → i < (m.calm d).count → fails i = true →
    (m fails d).result = .error busy ∧ (m fails d).data = d

def Atomic (busy : E) (m : Prog D E α) : Prop := ∀ first, m.Guarded busy first

/-- The program writes nothing. -/
def Reads (m : Prog D E α) : Prop := ∀ fails d, (m fails d).data = d

variable {busy : E} {m : Prog D E α} {k : α → Prog D E β} {f : D → Option (α × D)} {first : Nat}

section AndThen

theorem andThen_ok {fails : Nat → Bool} {d : D} {a : α} (h : (m fails d).result = .ok a) :
    andThen m k fails d =
      ⟨(k a (fun i => fails ((m fails d).count + i)) (m fails d).data).result,
        (k a (fun i => fails ((m fails d).count + i)) (m fails d).data).data,
        (m fails d).count + (k a (fun i => fails ((m fails d).count + i)) (m fails d).data).count⟩ := by
  rw [andThen]
  cases hm : m fails d with
  | mk result d' n =>
      rw [hm] at h
      cases h
      rfl

theorem andThen_error {fails : Nat → Bool} {d : D} {e : E} (h : (m fails d).result = .error e) :
    andThen m k fails d = ⟨.error e, (m fails d).data, (m fails d).count⟩ := by
  rw [andThen]
  cases hm : m fails d with
  | mk result d' n =>
      rw [hm] at h
      cases h
      rfl

theorem calm_andThen_ok {d : D} {a : α} (h : (m.calm d).result = .ok a) :
    (andThen m k).calm d = ⟨((k a).calm (m.calm d).data).result, ((k a).calm (m.calm d).data).data,
      (m.calm d).count + ((k a).calm (m.calm d).data).count⟩ := andThen_ok h

theorem calm_andThen_error {d : D} {e : E} (h : (m.calm d).result = .error e) :
    (andThen m k).calm d = ⟨.error e, (m.calm d).data, (m.calm d).count⟩ := andThen_error h

theorem count_le_andThen (m : Prog D E α) (k : α → Prog D E β) (d : D) :
    (m.calm d).count ≤ ((andThen m k).calm d).count := by
  cases h : (m.calm d).result with
  | ok a =>
      rw [calm_andThen_ok h]
      exact Nat.le_add_right _ _
  | error e =>
      exact Nat.le_of_eq (congrArg Answer.count (calm_andThen_error h).symm)

end AndThen

section Steady

theorem steady_ret (a : α) : (ret a : Prog D E α).Steady := fun _ _ _ => rfl

theorem steady_fail (e : E) : (fail e : Prog D E α).Steady := fun _ _ _ => rfl

theorem steady_statement (busy : E) (f : D → Option (α × D)) : (statement busy f).Steady := by
  intro fails d h
  have hcount : ((statement busy f).calm d).count = 1 := by
    simp only [calm, statement]
    cases f d <;> rfl
  simp only [calm, statement, h 0 (by rw [hcount]; exact Nat.one_pos)]

theorem Steady.andThen (hm : m.Steady) (hk : ∀ a, (k a).Steady) : (andThen m k).Steady := by
  intro fails d h
  have hsame : m fails d = m.calm d := hm fails d fun i hi =>
    h i (Nat.lt_of_lt_of_le hi (count_le_andThen m k d))
  cases hr : (m.calm d).result with
  | error e => rw [calm_andThen_error hr, andThen_error (by rw [hsame, hr]), hsame]
  | ok a =>
      have hnext : k a (fun i => fails ((m.calm d).count + i)) (m.calm d).data = (k a).calm (m.calm d).data := by
        refine hk a _ _ fun i hi => h _ ?_
        rw [calm_andThen_ok hr]
        exact Nat.add_lt_add_left hi _
      rw [calm_andThen_ok hr, andThen_ok (by rw [hsame, hr]), hsame, hnext]

theorem steady_forEach {f : α → Prog D E Unit} (h : ∀ x, (f x).Steady) (xs : List α) : (forEach f xs).Steady := by
  induction xs with
  | nil => exact steady_ret ()
  | cons x xs ih => exact (h x).andThen fun _ => ih

theorem Steady.swallow (hm : m.Steady) : m.swallow.Steady := by
  intro fails d h
  rw [calm, Prog.swallow, Prog.swallow, hm fails d h]
  rfl

theorem count_transaction (m : Prog D E (Bool × α)) (fails : Nat → Bool) (d : D) :
    (transaction busy m fails d).count = (bracket busy m fails d).count := by
  rw [transaction]
  split <;> rename_i heq <;> rw [heq]

end Steady

section Direct

/-- A program that hides no failure of its statements. -/
structure Direct (busy : E) (m : Prog D E α) : Prop where
  steady : m.Steady
  strict : m.Strict busy

theorem direct_ret (a : α) : (ret a : Prog D E α).Direct busy :=
  ⟨steady_ret a, fun _ _ _ h _ => absurd h (Nat.not_lt_zero _)⟩

theorem direct_fail (e : E) : (fail e : Prog D E α).Direct busy :=
  ⟨steady_fail e, fun _ _ _ h _ => absurd h (Nat.not_lt_zero _)⟩

theorem count_statement (busy : E) (f : D → Option (α × D)) (d : D) : ((statement busy f).calm d).count = 1 := by
  simp only [calm, statement]
  cases f d <;> rfl

theorem statement_of_fails {fails : Nat → Bool} (h : fails 0 = true) (d : D) :
    statement busy f fails d = ⟨.error busy, d, 1⟩ := by
  rw [statement, if_pos h]

theorem direct_statement (busy : E) (f : D → Option (α × D)) : (statement busy f).Direct busy := by
  refine ⟨steady_statement busy f, fun fails d i hi hfails => ?_⟩
  rw [count_statement, Nat.lt_one_iff] at hi
  rw [statement_of_fails (hi ▸ hfails)]

theorem Direct.andThen (hm : m.Direct busy) (hk : ∀ a, (k a).Direct busy) : (andThen m k).Direct busy := by
  refine ⟨hm.steady.andThen fun a => (hk a).steady, fun fails d i hi hfails => ?_⟩
  by_cases hfirst : ∃ j < (m.calm d).count, fails j = true
  · obtain ⟨j, hj, hfails'⟩ := hfirst
    rw [andThen_error (hm.strict fails d j hj hfails')]
  · have hsame : m fails d = m.calm d := hm.steady fails d fun j hj => by
      simpa using fun hfails' => hfirst ⟨j, hj, hfails'⟩
    have hle : (m.calm d).count ≤ i := Nat.not_lt.mp fun hlt => hfirst ⟨i, hlt, hfails⟩
    cases hr : (m.calm d).result with
    | error e =>
        rw [calm_andThen_error hr] at hi
        exact absurd hle (Nat.not_le.mpr hi)
    | ok a =>
        rw [calm_andThen_ok hr] at hi
        rw [andThen_ok (by rw [hsame, hr]), hsame]
        refine (hk a).strict _ _ (i - (m.calm d).count) ?_ ?_
        · simp only at hi
          omega
        · rw [Nat.add_sub_cancel' hle]
          exact hfails

theorem direct_forEach {f : α → Prog D E Unit} (h : ∀ x, (f x).Direct busy) (xs : List α) :
    (forEach f xs).Direct busy := by
  induction xs with
  | nil => exact direct_ret ()
  | cons x xs ih => exact (h x).andThen fun _ => ih

theorem Direct.bracket {m : Prog D E (Bool × α)} (hm : m.Direct busy) : (bracket busy m).Direct busy := by
  refine (direct_statement _ _).andThen fun _ => hm.andThen fun r => ?_
  split
  · exact (direct_statement _ _).andThen fun _ => direct_ret r
  · exact direct_ret r

end Direct

section Reads

theorem reads_ret (a : α) : (ret a : Prog D E α).Reads := fun _ _ => rfl

theorem reads_read (busy : E) (f : D → α) : (read busy f).Reads := by
  intro fails d
  rw [read, statement]
  split <;> rfl

theorem Reads.andThen (hm : m.Reads) (hk : ∀ a, (k a).Reads) : (andThen m k).Reads := by
  intro fails d
  cases hr : (m fails d).result with
  | error e =>
      rw [andThen_error hr]
      exact hm fails d
  | ok a =>
      rw [andThen_ok hr]
      exact (hk a _ _).trans (hm fails d)

theorem Reads.swallow (hm : m.Reads) : m.swallow.Reads := fun fails d => hm fails d

theorem reads_forEach {f : α → Prog D E Unit} (h : ∀ x, (f x).Reads) (xs : List α) : (forEach f xs).Reads := by
  induction xs with
  | nil => exact reads_ret ()
  | cons x xs ih => exact (h x).andThen fun _ => ih

end Reads

section Atomic

theorem atomic_ret (a : α) : (ret a : Prog D E α).Atomic busy := fun _ _ _ _ _ h _ => absurd h (Nat.not_lt_zero _)

theorem atomic_statement (busy : E) (f : D → Option (α × D)) : (statement busy f).Atomic busy := by
  intro first fails d i _ hi hfails
  rw [count_statement, Nat.lt_one_iff] at hi
  rw [statement_of_fails (hi ▸ hfails)]
  exact ⟨rfl, rfl⟩

theorem Direct.steady_transaction {m : Prog D E (Bool × α)} (hm : m.Direct busy) : (transaction busy m).Steady := by
  intro fails d h
  have hsame := hm.bracket.steady fails d (by rwa [calm, count_transaction] at h)
  rw [calm, Prog.transaction, Prog.transaction, hsame]
  rfl

theorem Direct.atomic_transaction {m : Prog D E (Bool × α)} (hm : m.Direct busy) :
    (transaction busy m).Atomic busy := by
  intro first fails d i _ hi hfails
  rw [calm, count_transaction] at hi
  have herror := hm.bracket.strict fails d i hi hfails
  rw [transaction]
  split <;> rename_i heq <;> rw [heq] at herror <;> cases herror
  exact ⟨rfl, rfl⟩

/-- The first statement of a program leaves nothing behind when it fails. -/
theorem guarded_statement_andThen (f : D → Option (α × D)) (k : α → Prog D E β) :
    (andThen (statement busy f) k).Guarded busy 1 := by
  intro fails d i hi _ hfails
  have hfirst : statement busy f fails d = ⟨.error busy, d, 1⟩ :=
    statement_of_fails (Nat.lt_one_iff.mp hi ▸ hfails) d
  rw [andThen_error (e := busy) (by rw [hfirst]), hfirst]
  exact ⟨rfl, rfl⟩

theorem Guarded.read_andThen (f : D → α) (hk : ∀ a, (k a).Guarded busy first) :
    (andThen (read busy f) k).Guarded busy (first + 1) := by
  intro fails d i hi hcount hfails
  by_cases hzero : fails 0 = true
  · have hone : 0 < ((read busy f).calm d).count := by rw [read, count_statement]; exact Nat.one_pos
    exact guarded_statement_andThen _ k fails d 0 Nat.one_pos (Nat.lt_of_lt_of_le hone (count_le_andThen _ k d)) hzero
  · have hread : ∀ fails : Nat → Bool, fails 0 ≠ true → read busy f fails d = ⟨.ok (f d), d, 1⟩ := by
      intro fails h
      rw [read, statement, if_neg h]
    have hcalm : (read busy f).calm d = ⟨.ok (f d), d, 1⟩ := hread _ Bool.false_ne_true
    rw [calm_andThen_ok (a := f d) (by rw [hcalm]), hcalm] at hcount
    rw [andThen_ok (a := f d) (by rw [hread fails hzero]), hread fails hzero]
    cases i with
    | zero => exact absurd hfails hzero
    | succ i =>
        refine hk (f d) _ d i (Nat.lt_of_succ_lt_succ hi) ?_ ?_
        · simp only at hcount
          omega
        · rwa [Nat.add_comm]

theorem Atomic.read_andThen (f : D → α) (hk : ∀ a, (k a).Atomic busy) : (andThen (read busy f) k).Atomic busy := by
  intro first
  cases first with
  | zero => exact fun _ _ _ h => absurd h (Nat.not_lt_zero _)
  | succ first => exact Guarded.read_andThen f fun a => hk a first

/-- What follows takes no statement. -/
theorem Guarded.andThen (hm : m.Guarded busy first) (hk : ∀ a d, ((k a).calm d).count = 0) :
    (andThen m k).Guarded busy first := by
  intro fails d i hi hcount hfails
  have hless : i < (m.calm d).count := by
    cases hr : (m.calm d).result with
    | error e => rwa [calm_andThen_error hr] at hcount
    | ok a => rwa [calm_andThen_ok hr, hk] at hcount
  obtain ⟨hresult, hdata⟩ := hm fails d i hi hless hfails
  rw [andThen_error hresult]
  exact ⟨rfl, hdata⟩

theorem Atomic.andThen (hm : m.Atomic busy) (hk : ∀ a d, ((k a).calm d).count = 0) : (andThen m k).Atomic busy :=
  fun first => (hm first).andThen hk

end Atomic

section Calm

theorem calm_statement {d d' : D} {a : α} (h : f d = some (a, d')) : (statement busy f).calm d = ⟨.ok a, d', 1⟩ := by
  simp only [calm, statement, Bool.false_eq_true, if_false, h]

theorem calm_statement_none {d : D} (h : f d = none) : (statement busy f).calm d = ⟨.error busy, d, 1⟩ := by
  simp only [calm, statement, Bool.false_eq_true, if_false, h]

theorem calm_read (f : D → α) (d : D) : (read busy f).calm d = ⟨.ok (f d), d, 1⟩ := calm_statement rfl

/-- One after the other, the programs for the elements of a list succeed. -/
def AllOk (f : α → Prog D E Unit) : List α → D → Prop
  | [], _ => True
  | x :: xs, d => ((f x).calm d).result = .ok () ∧ AllOk f xs ((f x).calm d).data

variable {f : α → Prog D E Unit} {xs : List α} {d : D}

theorem calm_forEach (h : AllOk f xs d) : ((forEach f xs).calm d).result = .ok () ∧
    ((forEach f xs).calm d).data = xs.foldl (fun d x => ((f x).calm d).data) d := by
  induction xs generalizing d with
  | nil => exact ⟨rfl, rfl⟩
  | cons x xs ih =>
      rw [forEach, calm_andThen_ok h.1]
      exact ih h.2

theorem allOk_of_stable {P : α → D → Prop} (hok : ∀ x d, P x d → ((f x).calm d).result = .ok ())
    (hstable : ∀ x y d, P x d → P y d → P y ((f x).calm d).data) (h : ∀ x ∈ xs, P x d) : AllOk f xs d := by
  induction xs generalizing d with
  | nil => trivial
  | cons x xs ih =>
      have hx := h x List.mem_cons_self
      exact ⟨hok x d hx, ih fun y hy => hstable x y d hx (h y (List.mem_cons_of_mem _ hy))⟩

theorem calm_transaction {m : Prog D E (Bool × α)} {a : α} (h : (m.calm d).result = .ok (true, a)) :
    ((transaction busy m).calm d).result = .ok a ∧ ((transaction busy m).calm d).data = (m.calm d).data := by
  have hbegin : ((read busy fun _ => () : Prog D E Unit).calm d).result = .ok () := by rw [calm_read]
  have hbody : ((bracket busy m).calm d).result = .ok (true, a) ∧ ((bracket busy m).calm d).data = (m.calm d).data := by
    rw [bracket, calm_andThen_ok hbegin, calm_read]
    dsimp only
    rw [calm_andThen_ok h]
    simp only [if_true]
    rw [calm_andThen_ok (a := ()) (by rw [calm_read]), calm_read]
    exact ⟨rfl, rfl⟩
  rw [calm, transaction]
  split <;> rename_i heq <;> rw [calm, heq] at hbody
  · obtain ⟨⟨⟩, hdata⟩ := hbody
    exact ⟨rfl, hdata⟩
  · cases hbody.1
  · cases hbody.1

end Calm

section Answers

/-- The program does not end with the error of a failing statement, when none fails. -/
def Answers (busy : E) (m : Prog D E α) (d : D) : Prop := (m.calm d).result ≠ .error busy

variable {d d' : D}

theorem answers_ret (a : α) (d : D) : (ret a : Prog D E α).Answers busy d := fun h => by cases h

theorem answers_fail {e : E} (he : e ≠ busy) (d : D) : (fail e : Prog D E α).Answers busy d :=
  fun h => he (Except.error.inj h)

theorem Answers.andThen (hm : m.Answers busy d)
    (hk : ∀ a, (m.calm d).result = .ok a → (k a).Answers busy (m.calm d).data) : (andThen m k).Answers busy d := by
  cases hr : (m.calm d).result with
  | error e =>
      rw [Answers, calm_andThen_error hr]
      exact fun h => hm (hr.trans (congrArg Except.error (Except.error.inj h)))
  | ok a =>
      rw [Answers, calm_andThen_ok hr]
      exact hk a hr

theorem answers_statement {a : α} (h : f d = some (a, d')) (hk : (k a).Answers busy d') :
    (Prog.andThen (statement busy f) k).Answers busy d := by
  rw [Answers, calm_andThen_ok (a := a) (by rw [calm_statement h]), calm_statement h]
  exact hk

theorem answers_read {f : D → α} (hk : (k (f d)).Answers busy d) : (Prog.andThen (read busy f) k).Answers busy d :=
  answers_statement rfl hk

theorem answers_swallow {k : Except E α → Prog D E β} (hk : ∀ r d', (k r).Answers busy d') :
    (Prog.andThen (swallow m) k).Answers busy d :=
  Answers.andThen (fun h => by cases h) fun r _ => hk r _

theorem answers_transaction {m : Prog D E (Bool × α)} (h : m.Answers busy d) : (transaction busy m).Answers busy d := by
  have hbody : (bracket busy m).Answers busy d := by
    refine answers_read (h.andThen fun r _ => ?_)
    split
    · exact answers_read (answers_ret _ _)
    · exact answers_ret _ _
  rw [Answers, calm] at hbody ⊢
  rw [transaction]
  split <;> rename_i heq <;> rw [heq] at hbody
  · exact fun h => by cases h
  · exact fun h => by cases h
  · exact fun h => hbody (congrArg Except.error (Except.error.inj h))

end Answers

end Prog

end OpenMines.Lib.Statements
