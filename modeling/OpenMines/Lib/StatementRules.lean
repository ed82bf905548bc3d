import OpenMines.Lib.Statements

namespace OpenMines.Lib.Statements

variable {D E α β : Type}

namespace Prog

/-- From `P` a program gives a result in `Q` or fails in `R`, whichever of its statements fail. -/
def Triple (P : D → Prop) (m : Prog D E α) (Q : α → D → Prop) (R : D → Prop) : Prop :=
  ∀ fails d, P d → (∀ a, (m fails d).result = .ok a → Q a (m fails d).data) ∧
    ∀ e, (m fails d).result = .error e → R (m fails d).data

/-- Whatever of it is done, a program keeps `I`. -/
def Preserves (I : D → Prop) (m : Prog D E α) : Prop := Triple I m (fun _ => I) I

variable {P I R : D → Prop} {m : Prog D E α} {Q : α → D → Prop} {busy : E}

theorem Triple.data (h : Triple P m Q R) {Inv : D → Prop} (hQ : ∀ a d, Q a d → Inv d) (hR : ∀ d, R d → Inv d)
    {fails : Nat → Bool} {d : D} (hd : P d) : Inv (m fails d).data := by
  cases hresult : (m fails d).result with
  | ok a => exact hQ a _ ((h fails d hd).1 a hresult)
  | error e => exact hR _ ((h fails d hd).2 e hresult)

theorem Triple.weaken {P' R' : D → Prop} {Q' : α → D → Prop} (h : Triple P m Q R) (hP : ∀ d, P' d → P d)
    (hQ : ∀ a d, Q a d → Q' a d) (hR : ∀ d, R d → R' d) : Triple P' m Q' R' :=
  fun fails d hd => ⟨fun a ha => hQ a _ ((h fails d (hP d hd)).1 a ha), fun e he => hR _ ((h fails d (hP d hd)).2 e he)⟩

theorem triple_ret {a : α} (h : ∀ d, P d → Q a d) : Triple P (ret a : Prog D E α) Q R :=
  fun _ d hd => ⟨fun _ hb => Except.ok.inj hb ▸ h d hd, nofun⟩

theorem triple_fail {e : E} (h : ∀ d, P d → R d) : Triple P (fail e : Prog D E α) Q R :=
  fun _ d hd => ⟨nofun, fun _ _ => h d hd⟩

theorem triple_statement {f : D → Option (α × D)} (h : ∀ d a d', P d → f d = some (a, d') → Q a d')
    (hR : ∀ d, P d → R d) : Triple P (statement busy f) Q R := by
  intro fails d hd
  cases hfails : fails 0 with
  | true =>
      rw [statement_of_fails hfails]
      exact ⟨fun _ ha => (by cases ha), fun _ _ => hR d hd⟩
  | false =>
      cases hf : f d with
      | none =>
          simp only [statement, hfails, hf]
          exact ⟨fun _ ha => (by cases ha), fun _ _ => hR d hd⟩
      | some r =>
          simp only [statement, hfails, hf]
          exact ⟨fun b hb => Except.ok.inj hb ▸ h d r.1 r.2 hd hf, fun _ he => (by cases he)⟩

theorem triple_read {f : D → α} (h : ∀ d, P d → Q (f d) d) (hR : ∀ d, P d → R d) : Triple P (read busy f) Q R :=
  triple_statement (fun d a d' hd hf => by
    obtain ⟨rfl, rfl⟩ := Prod.mk.inj (Option.some.inj hf)
    exact h d hd) hR

theorem Triple.andThen {M : α → D → Prop} {k : α → Prog D E β} {Q : β → D → Prop} (hm : Triple P m M R)
    (hk : ∀ a, Triple (M a) (k a) Q R) : Triple P (andThen m k) Q R := by
  intro fails d hd
  cases hresult : (m fails d).result with
  | ok a =>
      rw [andThen_ok hresult]
      exact hk a _ _ ((hm fails d hd).1 a hresult)
  | error e =>
      rw [andThen_error hresult]
      exact ⟨nofun, fun _ _ => (hm fails d hd).2 e hresult⟩

/-- The rule for `andThen` in the notation of a monad. -/
theorem Triple.bind {M : α → D → Prop} {k : α → Prog D E β} {Q : β → D → Prop} (hm : Triple P m M R)
    (hk : ∀ a, Triple (M a) (k a) Q R) : Triple P (m >>= k) Q R := hm.andThen hk

theorem Triple.swallow (h : Triple P m Q R) {Q' : Except E α → D → Prop} (hok : ∀ a d, Q a d → Q' (.ok a) d)
    (herror : ∀ e d, R d → Q' (.error e) d) {R' : D → Prop} : Triple P m.swallow Q' R' := by
  refine fun fails d hd => ⟨fun r hr => ?_, nofun⟩
  obtain rfl := Except.ok.inj hr
  change Q' (m fails d).result (m fails d).data
  cases hresult : (m fails d).result with
  | ok a => exact hok a _ ((h fails d hd).1 a hresult)
  | error e => exact herror e _ ((h fails d hd).2 e hresult)

/-- What is rolled back leaves the data as they were. -/
theorem triple_transaction {m : Prog D E (Bool × α)}
    (h : ∀ d₀, P d₀ → Triple (· = d₀) m (fun r d => Q r.2 (if r.1 then d else d₀)) fun _ => True)
    (hR : ∀ d, P d → R d) : Triple P (transaction busy m) Q R := by
  intro fails d hd
  have hbracket : Triple (· = d) (bracket busy m) (fun r d' => Q r.2 (if r.1 then d' else d)) fun _ => True := by
    refine Triple.andThen (M := fun _ d' => d' = d) (triple_read (fun _ hd' => hd') fun _ _ => trivial) fun _ => ?_
    refine Triple.andThen (h d hd) fun r => ?_
    obtain ⟨commits, a⟩ := r
    cases commits with
    | false => exact triple_ret fun _ hd' => hd'
    | true =>
        exact Triple.andThen (M := fun _ d' => Q a d') (triple_read (fun _ hd' => hd') fun _ _ => trivial) fun _ =>
          triple_ret fun _ hd' => hd'
  have hdone := (hbracket fails d rfl).1
  rcases hanswer : bracket busy m fails d with ⟨result, d', n⟩
  rw [hanswer] at hdone
  cases result with
  | error e =>
      simp only [transaction, hanswer]
      exact ⟨fun _ ha => (by cases ha), fun _ _ => hR d hd⟩
  | ok r =>
      obtain ⟨commits, a⟩ := r
      cases commits with
      | true =>
          simp only [transaction, hanswer]
          exact ⟨fun b hb => Except.ok.inj hb ▸ hdone (true, a) rfl, fun _ he => (by cases he)⟩
      | false =>
          simp only [transaction, hanswer]
          exact ⟨fun b hb => Except.ok.inj hb ▸ hdone (false, a) rfl, fun _ he => (by cases he)⟩

section Preserves

theorem keeps_ret (a : α) : Preserves I (ret a : Prog D E α) := triple_ret fun _ hd => hd

theorem keeps_fail (e : E) : Preserves I (fail e : Prog D E α) := triple_fail fun _ hd => hd

theorem keeps_statement {f : D → Option (α × D)} (h : ∀ d a d', I d → f d = some (a, d') → I d') :
    Preserves I (statement busy f) := triple_statement h fun _ hd => hd

theorem keeps_read (f : D → α) : Preserves I (read busy f) := triple_read (fun _ hd => hd) fun _ hd => hd

theorem Preserves.andThen {k : α → Prog D E β} (hm : Preserves I m) (hk : ∀ a, Preserves I (k a)) : Preserves I (andThen m k) :=
  Triple.andThen hm hk

theorem Preserves.bind {k : α → Prog D E β} (hm : Preserves I m) (hk : ∀ a, Preserves I (k a)) : Preserves I (m >>= k) :=
  Triple.andThen hm hk

theorem Preserves.swallow (h : Preserves I m) : Preserves I m.swallow := Triple.swallow h (fun _ _ hd => hd) fun _ _ hd => hd

theorem keeps_forEach {f : α → Prog D E Unit} {xs : List α} (h : ∀ x ∈ xs, Preserves I (f x)) : Preserves I (forEach f xs) := by
  induction xs with
  | nil => exact keeps_ret ()
  | cons x xs ih =>
      exact (h x List.mem_cons_self).andThen fun _ => ih fun y hy => h y (List.mem_cons_of_mem _ hy)

theorem Preserves.transaction {m : Prog D E (Bool × α)} (h : Preserves I m) : Preserves I (transaction busy m) := by
  refine triple_transaction (fun d₀ hd₀ => h.weaken (fun d hd => hd ▸ hd₀) (fun r d hd => ?_) fun _ _ => trivial)
    fun _ hd => hd
  split
  · exact hd
  · exact hd₀

end Preserves

end Prog

end OpenMines.Lib.Statements
