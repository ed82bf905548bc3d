import OpenMines.Completion
import OpenMines.Lib.Run

namespace OpenMines

open Lib.Run

inductive CommandIngressClass
  | lifecycle
  | gameplay
  | internal
  deriving DecidableEq

namespace CommandIngressClass

def index : CommandIngressClass → Nat
  | .lifecycle => 0
  | .gameplay => 1
  | .internal => 2

def ofIndex : Nat → Option CommandIngressClass
  | 0 => some .lifecycle
  | 1 => some .gameplay
  | 2 => some .internal
  | _ => none

/-- How many classes come before this one in the rotation. -/
def turn (c : CommandIngressClass) (next : Nat) : Nat := (c.index + 3 - next) % 3

theorem exists_ofIndex {n : Nat} (h : n < 3) : ∃ c, ofIndex n = some c ∧ c.index = n := by
  match n, h with
  | 0, _ => exact ⟨.lifecycle, rfl, rfl⟩
  | 1, _ => exact ⟨.gameplay, rfl, rfl⟩
  | 2, _ => exact ⟨.internal, rfl, rfl⟩

theorem index_lt (c : CommandIngressClass) : c.index < 3 := by
  cases c <;> decide

theorem index_injective {c d : CommandIngressClass} (h : c.index = d.index) : c = d := by
  cases c <;> cases d <;> first | rfl | cases h

theorem turn_lt (c : CommandIngressClass) (next : Nat) : c.turn next < 3 := Nat.mod_lt _ (by decide)

theorem turn_eq_zero {c : CommandIngressClass} {next : Nat} (hnext : next < 3) : c.turn next = 0 ↔ c.index = next := by
  have hc := c.index_lt
  unfold turn
  omega

theorem turn_next {c : CommandIngressClass} {next : Nat} (hnext : next < 3) (hc : c.index ≠ next) :
    c.turn ((next + 1) % 3) + 1 = c.turn next := by
  have hlt := c.index_lt
  unfold turn
  omega

/-- After the turn of an earlier class the turn of a later one comes nearer. -/
theorem turn_after {c d : CommandIngressClass} {next : Nat} (hnext : next < 3) (h : d.turn next < c.turn next) :
    c.turn ((d.index + 1) % 3) < c.turn next := by
  have hc := c.index_lt
  have hd := d.index_lt
  unfold turn at *
  omega

end CommandIngressClass

/-- A command, with what its admission reads. -/
structure GameCommand where
  name : String
  persistenceKind : Option SaveKind
  deriving DecidableEq

structure QueuedGameCommand where
  playerId : PlayerId
  sessionId : SessionId
  ingressClass : Option CommandIngressClass
  sequence : Nat
  command : GameCommand
  deriving DecidableEq

structure AdmittedQueuedCommand where
  queued : QueuedGameCommand
  permit : Option SaveKind
  deriving DecidableEq

/-- The answer of `try_reserve`. -/
inductive TryReserve
  | permit
  | full
  | closed
  deriving DecidableEq

/-- The channels, and `PendingCommandHeads`. -/
structure CommandLines where
  rx : CommandIngressClass → List QueuedGameCommand
  heads : CommandIngressClass → Option QueuedGameCommand
  nextClass : Nat

namespace CommandLines

variable (l : CommandLines)

/-- The head of a class that was put back, or else the next command of its channel. -/
def next (c : CommandIngressClass) : Option (QueuedGameCommand × CommandLines) :=
  match l.heads c with
  | some queued => some (queued, { l with heads := Function.update l.heads c none })
  | none =>
    match l.rx c with
    | [] => none
    | queued :: rest => some (queued, { l with rx := Function.update l.rx c rest })

/-- Put a head back; no other one may be there. -/
def put (queued : QueuedGameCommand) : Option CommandLines :=
  match queued.ingressClass with
  | none => none
  | some c =>
    match l.heads c with
    | some _ => none
    | none => some { l with heads := Function.update l.heads c (some queued) }

/-- What came of the turn of a class. -/
inductive Offer
  | nothing
  | refused (name : String)
  | admitted (command : AdmittedQueuedCommand)

def tryClass (reserve : SaveKind → TryReserve) (remaining : Nat) (c : CommandIngressClass) :
    Option (CommandLines × Offer) :=
  if remaining = 0 then some (l, .nothing)
  else
    match l.next c with
    | none => some (l, .nothing)
    | some (queued, l') =>
      match queued.command.persistenceKind with
      | none => some (l', .admitted ⟨queued, none⟩)
      | some kind =>
        match reserve kind with
        | .permit => some (l', .admitted ⟨queued, some kind⟩)
        | .full => (l'.put queued).map fun l'' => (l'', .refused queued.command.name)
        | .closed => none

def takeLoop (reserve : CommandIngressClass → SaveKind → TryReserve) (remaining : CommandIngressClass → Nat) :
    Nat → CommandLines → Option String → Option (CommandLines × Except String (Option AdmittedQueuedCommand))
  | 0, l, none => some (l, .ok none)
  | 0, l, some name => some (l, .error name)
  | n + 1, l, saturated =>
    match CommandIngressClass.ofIndex l.nextClass with
    | none => none
    | some c =>
      match tryClass { l with nextClass := (l.nextClass + 1) % 3 } (reserve c) (remaining c) c with
      | none => none
      | some (l', .nothing) => takeLoop reserve remaining n l' saturated
      | some (l', .refused name) => takeLoop reserve remaining n l' (some name)
      | some (l', .admitted command) => some (l', .ok (some command))

/-- `take_admitted_command`: each class has its turn once. -/
def takeAdmittedCommand (reserve : CommandIngressClass → SaveKind → TryReserve)
    (remaining : CommandIngressClass → Nat) : Option (CommandLines × Except String (Option AdmittedQueuedCommand)) :=
  takeLoop reserve remaining 3 l none

/-- The commands of a class that wait. -/
def line (c : CommandIngressClass) : List QueuedGameCommand := (l.heads c).toList ++ l.rx c

structure Sorted : Prop where
  nextClass : l.nextClass < 3
  ingressClass : ∀ c, ∀ queued ∈ l.line c, queued.ingressClass = some c

/-- The first command of a class may be admitted. -/
def Admissible (reserve : CommandIngressClass → SaveKind → TryReserve) (remaining : CommandIngressClass → Nat)
    (c : CommandIngressClass) : Prop :=
  0 < remaining c ∧ ∃ queued ∈ (l.line c).head?, ∀ kind ∈ queued.command.persistenceKind, reserve c kind = .permit

variable {l} {c : CommandIngressClass}

theorem next_eq_none (h : l.next c = none) : l.line c = [] := by
  unfold next at h
  rw [line]
  split at h
  · cases h
  · rename_i hhead
    split at h
    · rename_i hrx
      rw [hhead, hrx]
      rfl
    · cases h

/-- The next command of a class leaves its line, and its head is free then. -/
theorem next_eq_some {queued : QueuedGameCommand} {l' : CommandLines} (h : l.next c = some (queued, l')) :
    l.line c = queued :: l'.line c ∧ (∀ d, d ≠ c → l'.line d = l.line d) ∧ l'.heads c = none ∧
      l'.nextClass = l.nextClass := by
  unfold next at h
  split at h
  · rename_i hhead
    obtain ⟨rfl, rfl⟩ := Prod.mk.inj (Option.some.inj h)
    refine ⟨?_, fun d hd => ?_, Function.update_self .., rfl⟩
    · rw [line, line, hhead]
      dsimp only
      rw [Function.update_self]
      rfl
    · rw [line, line]
      dsimp only
      rw [Function.update_of_ne hd]
  · rename_i hhead
    split at h
    · cases h
    · rename_i rest hrx
      obtain ⟨rfl, rfl⟩ := Prod.mk.inj (Option.some.inj h)
      refine ⟨?_, fun d hd => ?_, hhead, rfl⟩
      · rw [line, line, hhead, hrx]
        dsimp only
        rw [Function.update_self]
        rfl
      · rw [line, line]
        dsimp only
        rw [Function.update_of_ne hd]

theorem put_eq_some {queued : QueuedGameCommand} (hclass : queued.ingressClass = some c) (hhead : l.heads c = none) :
    ∃ l', l.put queued = some l' ∧ l'.line c = queued :: l.line c ∧ (∀ d, d ≠ c → l'.line d = l.line d) ∧
      l'.nextClass = l.nextClass := by
  refine ⟨{ l with heads := Function.update l.heads c (some queued) }, ?_, ?_, fun d hd => ?_, rfl⟩
  · unfold put
    rw [hclass]
    dsimp only
    rw [hhead]
  · rw [line, line, hhead]
    dsimp only
    rw [Function.update_self]
    rfl
  · rw [line, line]
    dsimp only
    rw [Function.update_of_ne hd]

/-- What the turn of a class leaves. -/
inductive Turned (reserve : SaveKind → TryReserve) (remaining : Nat) (c : CommandIngressClass) (l l' : CommandLines) :
    Offer → Prop
  | nothing (hline : l'.line = l.line) (h : remaining = 0 ∨ l.line c = []) : Turned reserve remaining c l l' .nothing
  | refused {queued : QueuedGameCommand} {kind : SaveKind} (hline : l'.line = l.line)
      (hhead : queued ∈ (l.line c).head?) (hkind : queued.command.persistenceKind = some kind)
      (hfull : reserve kind ≠ .permit) : Turned reserve remaining c l l' (.refused queued.command.name)
  | admitted {command : AdmittedQueuedCommand} (hremaining : 0 < remaining)
      (hline : l.line c = command.queued :: l'.line c) (hothers : ∀ d, d ≠ c → l'.line d = l.line d) :
      Turned reserve remaining c l l' (.admitted command)

theorem tryClass_turned {reserve : SaveKind → TryReserve} {remaining : Nat}
    (hclass : ∀ queued ∈ l.line c, queued.ingressClass = some c) {l' : CommandLines} {offer : Offer}
    (h : l.tryClass reserve remaining c = some (l', offer)) :
    Turned reserve remaining c l l' offer ∧ l'.nextClass = l.nextClass := by
  unfold tryClass at h
  split at h
  · rename_i hzero
    obtain ⟨rfl, rfl⟩ := Prod.mk.inj (Option.some.inj h)
    exact ⟨.nothing rfl (.inl hzero), rfl⟩
  · rename_i hpos
    split at h
    · rename_i hnext
      obtain ⟨rfl, rfl⟩ := Prod.mk.inj (Option.some.inj h)
      exact ⟨.nothing rfl (.inr (next_eq_none hnext)), rfl⟩
    · rename_i queued l₁ hnext
      obtain ⟨hline, hothers, hhead, hindex⟩ := next_eq_some hnext
      split at h
      · obtain ⟨rfl, rfl⟩ := Prod.mk.inj (Option.some.inj h)
        exact ⟨.admitted (Nat.pos_of_ne_zero hpos) hline hothers, hindex⟩
      · rename_i kind hkind
        split at h
        · obtain ⟨rfl, rfl⟩ := Prod.mk.inj (Option.some.inj h)
          exact ⟨.admitted (Nat.pos_of_ne_zero hpos) hline hothers, hindex⟩
        · rename_i hfull
          have hqueued : queued.ingressClass = some c := hclass queued (hline ▸ List.mem_cons_self)
          obtain ⟨l₂, hput, hback, hsame, hindex'⟩ := put_eq_some hqueued hhead
          rw [hput, Option.map_some] at h
          obtain ⟨rfl, rfl⟩ := Prod.mk.inj (Option.some.inj h)
          refine ⟨.refused (funext fun d => ?_) (by rw [hline]; rfl) hkind (by rw [hfull]; decide), hindex'.trans hindex⟩
          by_cases hd : d = c
          · rw [hd, hback, hline]
          · rw [hsame d hd, hothers d hd]
        · cases h

theorem tryClass_isSome {reserve : SaveKind → TryReserve} {remaining : Nat}
    (hclass : ∀ queued ∈ l.line c, queued.ingressClass = some c) (hopen : ∀ kind, reserve kind ≠ .closed) :
    (l.tryClass reserve remaining c).isSome := by
  unfold tryClass
  split
  · rfl
  · split
    · rfl
    · rename_i queued l₁ hnext
      obtain ⟨hline, -, hhead, -⟩ := next_eq_some hnext
      split
      · rfl
      · rename_i kind hkind
        split
        · rfl
        · have hqueued : queued.ingressClass = some c := hclass queued (hline ▸ List.mem_cons_self)
          obtain ⟨l₂, hput, -⟩ := put_eq_some hqueued hhead
          rw [hput]
          rfl
        · rename_i hclosed
          exact absurd hclosed (hopen kind)

section TakeLoop

variable {reserve : CommandIngressClass → SaveKind → TryReserve} {remaining : CommandIngressClass → Nat}

theorem not_admissible_of_line_nil (h : remaining c = 0 ∨ l.line c = []) : ¬ l.Admissible reserve remaining c := by
  rintro ⟨hpos, queued, hhead, -⟩
  rcases h with hzero | hline
  · exact Nat.ne_of_gt hpos hzero
  · rw [hline] at hhead
    cases hhead

theorem not_admissible_of_refused {queued : QueuedGameCommand} {kind : SaveKind} (hhead : queued ∈ (l.line c).head?)
    (hkind : queued.command.persistenceKind = some kind) (hfull : reserve c kind ≠ .permit) :
    ¬ l.Admissible reserve remaining c := by
  rintro ⟨-, first, hfirst, hpermit⟩
  obtain rfl := Option.mem_unique hhead hfirst
  exact hfull (hpermit kind hkind)

theorem admissible_congr {l' : CommandLines} (h : l'.line c = l.line c) :
    l'.Admissible reserve remaining c ↔ l.Admissible reserve remaining c := by
  rw [Admissible, Admissible, h]

/-- What an admission takes, and the classes that had no turn or had one in vain. -/
inductive Taken (reserve : CommandIngressClass → SaveKind → TryReserve) (remaining : CommandIngressClass → Nat) (n : Nat)
    (l l' : CommandLines) : Except String (Option AdmittedQueuedCommand) → Prop
  | admitted {command : AdmittedQueuedCommand} (c : CommandIngressClass) (hturn : c.turn l.nextClass < n)
      (hremaining : 0 < remaining c) (hline : l.line c = command.queued :: l'.line c)
      (hothers : ∀ d, d ≠ c → l'.line d = l.line d) (hnext : l'.nextClass = (c.index + 1) % 3)
      (hvain : ∀ d, d.turn l.nextClass < c.turn l.nextClass → ¬ l.Admissible reserve remaining d) :
      Taken reserve remaining n l l' (.ok (some command))
  | vain {r : Except String (Option AdmittedQueuedCommand)} (hr : ∀ command, r ≠ .ok (some command))
      (hline : l'.line = l.line) (hnext : l'.nextClass < 3)
      (hvain : ∀ d, d.turn l.nextClass < n → ¬ l.Admissible reserve remaining d) : Taken reserve remaining n l l' r

/-- A turn in vain comes before the others. -/
theorem Taken.step {n : Nat} (hn : n < 3) {l₁ l' : CommandLines} {r : Except String (Option AdmittedQueuedCommand)}
    (hindex : c.index = l.nextClass) (hline : l₁.line = l.line) (hnext : l₁.nextClass = (l.nextClass + 1) % 3)
    (hvain : ¬ l.Admissible reserve remaining c) (h : Taken reserve remaining n l₁ l' r) :
    Taken reserve remaining (n + 1) l l' r := by
  have hlt : l.nextClass < 3 := hindex ▸ c.index_lt
  have hturn : ∀ d : CommandIngressClass, d.index ≠ l.nextClass → d.turn l₁.nextClass + 1 = d.turn l.nextClass := fun d hd => by
    rw [hnext, CommandIngressClass.turn_next hlt hd]
  have hown : c.turn l₁.nextClass = 2 := by
    have hc := c.index_lt
    rw [hnext]
    unfold CommandIngressClass.turn
    omega
  have hearlier : ∀ k, (∀ d : CommandIngressClass, d.turn l₁.nextClass < k → ¬ l₁.Admissible reserve remaining d) →
      ∀ d : CommandIngressClass, d.turn l.nextClass < k + 1 → ¬ l.Admissible reserve remaining d := by
    intro k hk d hd
    by_cases hsame : d.index = l.nextClass
    · rw [CommandIngressClass.index_injective (hsame.trans hindex.symm)]
      exact hvain
    · rw [← admissible_congr (congrFun hline d)]
      refine hk d ?_
      have hd' := hturn d hsame
      omega
  cases h with
  | admitted e he hremaining hhead hothers hnext' hbefore =>
      have hne : e.index ≠ l.nextClass := by
        intro hsame
        rw [CommandIngressClass.index_injective (hsame.trans hindex.symm), hown] at he
        omega
      have he' := hturn e hne
      refine .admitted e (by omega) hremaining (by rw [← hline]; exact hhead) (fun d hd => ?_) hnext' ?_
      · rw [hothers d hd, hline]
      · rw [← he']
        exact hearlier _ hbefore
  | vain hr hsame hnext' hbefore => exact .vain hr (hsame.trans hline) hnext' (hearlier n hbefore)

theorem takeLoop_taken {n : Nat} (hn : n ≤ 3) (hl : l.Sorted) {saturated : Option String} {l' : CommandLines}
    {r : Except String (Option AdmittedQueuedCommand)} (h : takeLoop reserve remaining n l saturated = some (l', r)) :
    Taken reserve remaining n l l' r := by
  induction n generalizing l saturated with
  | zero =>
      have hnone : ∀ d : CommandIngressClass, d.turn l.nextClass < 0 → ¬ l.Admissible reserve remaining d :=
        fun d hd => absurd hd (Nat.not_lt_zero _)
      cases saturated with
      | none =>
          obtain ⟨rfl, rfl⟩ := Prod.mk.inj (Option.some.inj h)
          exact .vain (fun _ hr => by cases hr) rfl hl.nextClass hnone
      | some name =>
          obtain ⟨rfl, rfl⟩ := Prod.mk.inj (Option.some.inj h)
          exact .vain (fun _ hr => by cases hr) rfl hl.nextClass hnone
  | succ n ih =>
      obtain ⟨c, hc, hindex⟩ := CommandIngressClass.exists_ofIndex hl.nextClass
      have hpassed : ({ l with nextClass := (l.nextClass + 1) % 3 } : CommandLines).Sorted :=
        ⟨Nat.mod_lt _ (by decide), hl.ingressClass⟩
      unfold takeLoop at h
      rw [hc] at h
      dsimp only at h
      split at h
      · cases h
      · rename_i l₁ htry
        obtain ⟨hturned, hnext⟩ := tryClass_turned (hpassed.ingressClass c) htry
        cases hturned with
        | nothing hline hnone =>
            have hl₁ : l₁.Sorted := ⟨hnext ▸ hpassed.nextClass, fun d => congrFun hline d ▸ hl.ingressClass d⟩
            exact (ih (by omega) hl₁ h).step (by omega) hindex hline hnext (not_admissible_of_line_nil hnone)
      · rename_i l₁ name htry
        obtain ⟨hturned, hnext⟩ := tryClass_turned (hpassed.ingressClass c) htry
        cases hturned with
        | refused hline hhead hkind hfull =>
            have hl₁ : l₁.Sorted := ⟨hnext ▸ hpassed.nextClass, fun d => congrFun hline d ▸ hl.ingressClass d⟩
            exact (ih (by omega) hl₁ h).step (by omega) hindex hline hnext
              (not_admissible_of_refused hhead hkind hfull)
      · rename_i l₁ command htry
        obtain ⟨rfl, rfl⟩ := Prod.mk.inj (Option.some.inj h)
        obtain ⟨hturned, hnext⟩ := tryClass_turned (hpassed.ingressClass c) htry
        have hzero : c.turn l.nextClass = 0 := (CommandIngressClass.turn_eq_zero hl.nextClass).mpr hindex
        cases hturned with
        | admitted hremaining hline hothers =>
            refine .admitted c (by omega) hremaining hline hothers (by rw [hindex]; exact hnext) fun d hd => ?_
            rw [hzero] at hd
            exact absurd hd (Nat.not_lt_zero _)

theorem takeLoop_isSome (hl : l.Sorted) (hopen : ∀ c kind, reserve c kind ≠ .closed) (n : Nat)
    (saturated : Option String) : (takeLoop reserve remaining n l saturated).isSome := by
  induction n generalizing l saturated with
  | zero => cases saturated <;> rfl
  | succ n ih =>
      obtain ⟨c, hc, -⟩ := CommandIngressClass.exists_ofIndex hl.nextClass
      have hpassed : ({ l with nextClass := (l.nextClass + 1) % 3 } : CommandLines).Sorted :=
        ⟨Nat.mod_lt _ (by decide), hl.ingressClass⟩
      have htried : (tryClass { l with nextClass := (l.nextClass + 1) % 3 } (reserve c) (remaining c) c).isSome :=
        tryClass_isSome (hpassed.ingressClass c) (hopen c)
      obtain ⟨⟨l₁, offer⟩, htry⟩ := Option.isSome_iff_exists.mp htried
      obtain ⟨hturned, hnext⟩ := tryClass_turned (hpassed.ingressClass c) htry
      unfold takeLoop
      rw [hc]
      dsimp only
      rw [htry]
      cases hturned with
      | nothing hline =>
          exact ih ⟨hnext ▸ hpassed.nextClass, fun d => congrFun hline d ▸ hl.ingressClass d⟩ saturated
      | refused hline =>
          exact ih ⟨hnext ▸ hpassed.nextClass, fun d => congrFun hline d ▸ hl.ingressClass d⟩ _
      | admitted => rfl

end TakeLoop

end CommandLines

end OpenMines
