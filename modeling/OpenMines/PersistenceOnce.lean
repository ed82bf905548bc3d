import OpenMines.PersistenceBatches

namespace OpenMines.Persistence

open Lib.Statements Lib.Statements.Prog Lib.Run

section Round

variable {raise : Int → Int} {inputs : Inputs} {cmd : SaveCommand} {rest : List SaveCommand} {d : Database}

theorem group_of_not_compatible (h : compatible cmd.kind = false) : group (cmd :: rest) = [cmd] := by
  rw [group, if_neg (by rw [h]; exact Bool.false_ne_true)]

/-- The group is the front of the batch. -/
theorem group_append_drop (cmd : SaveCommand) (rest : List SaveCommand) :
    group (cmd :: rest) ++ (cmd :: rest).drop (group (cmd :: rest)).length = cmd :: rest := by
  apply List.prefix_iff_eq_append.mp
  rw [group]
  split
  · exact (List.prefix_cons_inj cmd).mpr (List.takeWhile_prefix _)
  · exact ⟨rest, rfl⟩

theorem group_length_pos (cmd : SaveCommand) (rest : List SaveCommand) : 0 < (group (cmd :: rest)).length := by
  rw [group]
  split <;> exact Nat.succ_pos _

theorem group_completes (cmd : SaveCommand) (rest : List SaveCommand) :
    (group (cmd :: rest)).filter Worker.completes = if compatible cmd.kind then [] else [cmd] := by
  split
  · rename_i h
    refine List.filter_eq_nil_iff.mpr fun c hc => ?_
    rw [Worker.completes, group_kind c hc, h]
    exact Bool.false_ne_true
  · rename_i h
    rw [group_of_not_compatible (Bool.eq_false_iff.mpr h)]
    exact List.filter_cons_of_pos (by rw [Worker.completes, Bool.eq_false_iff.mpr h]; rfl)

/-- A call that no failure disturbs does the commands of the group one after the other. -/
theorem calm_group (h : Accepted cmd (group (cmd :: rest)) d) :
    ((perform raise inputs cmd (group (cmd :: rest))).calm d).data =
      (group (cmd :: rest)).foldl (fun d c => Worker.effect raise d (c, inputs)) d := by
  cases hcmd : compatible cmd.kind with
  | true => exact (perform_group raise inputs hcmd group_kind h).2
  | false =>
      rw [group_of_not_compatible hcmd]
      rfl

theorem calm_answers (h : Accepted cmd (group (cmd :: rest)) d) :
    (perform raise inputs cmd (group (cmd :: rest))).Answers .transient d := by
  cases hcmd : compatible cmd.kind with
  | true =>
      rw [Answers, (perform_group raise inputs hcmd group_kind h).1]
      exact fun herror => by cases herror
  | false =>
      rw [group_of_not_compatible hcmd] at h ⊢
      rw [perform, if_neg (by rw [hcmd]; exact Bool.false_ne_true)]
      exact method_answers raise inputs h

end Round

namespace Worker

variable {raise : Int → Int} {s t : Worker} {cmd : SaveCommand} {rest : List SaveCommand}

/-- The group was done, and its completion sent if it has one. -/
def Served (raise : Int → Int) (s t : Worker) : Prop :=
  ∃ inputs completion, completion.map Prod.fst = (group s.batch).filter completes ∧
    t = s.finish (group s.batch) inputs
      ((group s.batch).foldl (fun d c => effect raise d (c, inputs)) s.db) completion

/-- A round ends with the group done, or it is to be tried again. -/
theorem attempt_cases (hbatch : s.batch = cmd :: rest) (fails : Nat → Bool) (inputs : Inputs) :
    let answer := perform raise inputs cmd (group s.batch) fails s.db
    (∃ completion, completion.map Prod.fst = (group s.batch).filter completes ∧
        s.attempt raise fails inputs cmd = s.finish (group s.batch) inputs answer.data completion ∧
        (answer.result = .error .transient → cmd.kind = .buildingDelete ∧
          buildingDeleteMaxAttempts ≤ s.attempts + 1)) ∨
      s.attempt raise fails inputs cmd = { s with db := answer.data, attempts := s.attempts + 1 } ∧
        ∃ e, answer.result = .error e ∧ (compatible cmd.kind = false → e = .transient) := by
  intro answer
  rw [attempt]
  split
  · rename_i hcmd
    split
    · rename_i result hok
      refine .inl ⟨[], ?_, rfl, fun herror => ?_⟩
      · rw [hbatch, group_completes, if_pos hcmd]
        rfl
      · cases hok.symm.trans herror
    · rename_i e herror
      exact .inr ⟨rfl, e, herror, fun h => by cases hcmd.symm.trans h⟩
  · rename_i hcmd
    have hone : (group s.batch).filter completes = [cmd] := by rw [hbatch, group_completes, if_neg hcmd]
    split
    · rename_i result hok
      exact .inl ⟨[(cmd, result)], hone.symm, rfl, fun herror => by cases hok.symm.trans herror⟩
    · rename_i hpermanent
      exact .inl ⟨[(cmd, .permanentFailure)], hone.symm, rfl, fun herror => by cases hpermanent.symm.trans herror⟩
    · rename_i htransient
      split
      · rename_i hgiven
        exact .inl ⟨[(cmd, .permanentFailure)], hone.symm, rfl, fun _ => hgiven⟩
      · exact .inr ⟨rfl, .transient, htransient, fun _ => rfl⟩

theorem attempt_of_calm (hbatch : s.batch = cmd :: rest) (haccepted : Accepted cmd (group s.batch) s.db)
    {fails : Nat → Bool} {inputs : Inputs}
    (hcalm : perform raise inputs cmd (group s.batch) fails s.db =
      (perform raise inputs cmd (group s.batch)).calm s.db) :
    Served raise s (s.attempt raise fails inputs cmd) := by
  have hdata := @calm_group raise inputs cmd rest s.db (hbatch ▸ haccepted)
  have hanswers := @calm_answers raise inputs cmd rest s.db (hbatch ▸ haccepted)
  rw [← hbatch] at hdata hanswers
  rcases attempt_cases hbatch fails inputs with ⟨completion, hcompletion, hfinish, -⟩ | ⟨-, e, herror, htransient⟩
  · rw [hcalm, hdata] at hfinish
    exact ⟨inputs, completion, hcompletion, hfinish⟩
  · rw [hcalm] at herror
    cases hcmd : compatible cmd.kind with
    | true =>
        rw [hbatch, (perform_group raise inputs hcmd group_kind (hbatch ▸ haccepted)).1] at herror
        cases herror
    | false =>
        rw [htransient hcmd] at herror
        exact absurd herror hanswers

/-- Under the conditions on a round, the group is done or nothing has changed. -/
theorem attempt_of_fair (hbatch : s.batch = cmd :: rest) {fails : Nat → Bool} {inputs : Inputs}
    (hfair : s.Fair raise (.attempt fails inputs)) :
    Served raise s (s.attempt raise fails inputs cmd) ∨
      s.attempt raise fails inputs cmd = { s with attempts := s.attempts + 1 } := by
  obtain ⟨haccepted, hspared, hdelete⟩ := hfair cmd (by rw [hbatch]; rfl)
  rcases perform_of_spared hspared with hcalm | ⟨htransient, hunchanged⟩ | ⟨hunchanged, hreads⟩
  · exact .inl (attempt_of_calm hbatch haccepted hcalm)
  · rcases attempt_cases hbatch fails inputs with ⟨completion, -, -, hgiven⟩ | ⟨hagain, -⟩
    · obtain ⟨hkind, hmax⟩ := hgiven htransient
      have hcalm := perform_of_calm ((hdelete hkind).resolve_left (Nat.not_lt.mpr hmax))
      exact .inl (attempt_of_calm hbatch haccepted hcalm)
    · rw [hunchanged] at hagain
      exact .inr hagain
  · have hdata := @calm_group raise inputs cmd rest s.db (hbatch ▸ haccepted)
    rw [← hbatch, hreads] at hdata
    rcases attempt_cases hbatch fails inputs with ⟨completion, hcompletion, hfinish, -⟩ | ⟨hagain, -⟩
    · rw [hunchanged, hdata] at hfinish
      exact .inl ⟨inputs, completion, hcompletion, hfinish⟩
    · rw [hunchanged] at hagain
      exact .inr hagain

section Order

variable {start : Database}

theorem inOrder_served (h : s.InOrder raise start) (hbatch : s.batch = cmd :: rest) (hserved : Served raise s t) :
    t.InOrder raise start := by
  obtain ⟨inputs, completion, hcompletion, rfl⟩ := hserved
  have hdone : (s.done ++ (group s.batch).map fun c => (c, inputs)).map Prod.fst =
      s.done.map Prod.fst ++ group s.batch := by
    rw [List.map_append, List.map_map]
    exact congrArg (s.done.map Prod.fst ++ ·) (List.map_id _)
  refine ⟨?_, ?_, ?_⟩
  · rw [finish]
    dsimp only
    rw [List.foldl_append, ← h.db, List.foldl_map]
  · have hfront := group_append_drop cmd rest
    rw [← hbatch] at hfront
    rw [finish]
    dsimp only
    rw [hdone, List.append_assoc (s.done.map Prod.fst), hfront]
    exact h.turn
  · rw [finish]
    dsimp only
    rw [hdone, List.map_append, List.filter_append, h.completions, hcompletion]

theorem inOrder_step (h : s.InOrder raise start) {e : WorkerEvent} (hfair : s.Fair raise e)
    (hstep : s.step raise e = some t) : t.InOrder raise start := by
  cases e with
  | accept cmd =>
      obtain rfl := Option.some.inj hstep
      refine ⟨h.db, ?_, h.completions⟩
      dsimp only
      rw [← List.append_assoc, h.turn]
  | receive more =>
      rw [Worker.step.eq_def] at hstep
      dsimp only at hstep
      split at hstep
      · rename_i first rest hbatch hqueue
        obtain rfl := Option.some.inj hstep
        refine ⟨h.db, ?_, h.completions⟩
        have hturn := h.turn
        rw [hbatch, hqueue, List.append_nil] at hturn
        dsimp only
        rw [List.append_assoc, List.cons_append, List.take_append_drop]
        exact hturn
      · cases hstep
  | attempt fails inputs =>
      rw [Worker.step.eq_def] at hstep
      dsimp only at hstep
      split at hstep
      · cases hstep
      · rename_i cmd rest hbatch
        obtain rfl := Option.some.inj hstep
        rcases attempt_of_fair hbatch hfair with hserved | hagain
        · exact inOrder_served h hbatch hserved
        · rw [hagain]
          exact ⟨h.db, h.turn, h.completions⟩
  | wait =>
      obtain rfl := Option.some.inj hstep
      exact h

/-- Every command is done once and in its turn, whatever fails. -/
theorem inOrder_run (h : s.InOrder raise start) {es : List WorkerEvent} (hfair : Meets (step raise) (Fair raise) s es)
    (hrun : run (step raise) s es = some t) : t.InOrder raise start :=
  run_preserves_of_meets (P := fun s => s.InOrder raise start) h hfair
    (fun _ _ _ h hfair hstep => inOrder_step h hfair hstep) hrun

end Order

/-- The worker before the first command. -/
structure Start (s : Worker) : Prop where
  queue : s.queue = []
  batch : s.batch = []
  completions : s.completions = []
  admitted : s.admitted = []
  done : s.done = []

theorem Start.inOrder (h : s.Start) : s.InOrder raise s.db := by
  refine ⟨?_, ?_, ?_⟩
  · rw [h.done]
    rfl
  · rw [h.done, h.batch, h.queue, h.admitted]
    rfl
  · rw [h.done, h.completions]
    rfl

/-- A run without an end, whose steps all meet the conditions, and in which the store recovers again
and again while there is something to do. -/
structure Schedule (raise : Int → Int) where
  state : Nat → Worker
  event : Nat → WorkerEvent
  step : ∀ n, (state n).step raise (event n) = some (state (n + 1))
  fair : ∀ n, (state n).Fair raise (event n)
  recovers : ∀ n, (state n).Busy → ∃ m, n ≤ m ∧ (state m).Recovers raise (event m)

namespace Schedule

variable (f : Schedule raise) {start : Database}

theorem inOrder (h : (f.state 0).InOrder raise start) (n : Nat) : (f.state n).InOrder raise start := by
  induction n with
  | zero => exact h
  | succ n ih => exact inOrder_step ih (f.fair n) (f.step n)

/-- Whatever the step, no command is undone, and the batch stays until one more is done. -/
theorem step_done (n : Nat) : (f.state n).done.length ≤ (f.state (n + 1)).done.length ∧
    (f.state n).admitted <+: (f.state (n + 1)).admitted ∧
    ((f.state n).batch ≠ [] → (f.state (n + 1)).batch ≠ [] ∨
      (f.state n).done.length < (f.state (n + 1)).done.length) := by
  have hstep := f.step n
  have hfair := f.fair n
  cases he : f.event n with
  | accept cmd =>
      rw [he] at hstep
      rw [← Option.some.inj hstep]
      exact ⟨Nat.le_refl _, List.prefix_append _ _, .inl⟩
  | receive more =>
      rw [he, Worker.step.eq_def] at hstep
      dsimp only at hstep
      split at hstep
      · rename_i first rest hbatch hqueue
        rw [← Option.some.inj hstep]
        exact ⟨Nat.le_refl _, List.prefix_rfl, fun _ => .inl (List.cons_ne_nil _ _)⟩
      · cases hstep
  | attempt fails inputs =>
      rw [he] at hfair
      rw [he, Worker.step.eq_def] at hstep
      dsimp only at hstep
      split at hstep
      · cases hstep
      · rename_i cmd rest hbatch
        rw [← Option.some.inj hstep]
        rcases attempt_of_fair hbatch hfair with ⟨inputs, completion, -, hserved⟩ | hagain
        · rw [hserved, finish]
          dsimp only
          have hgroup := group_length_pos cmd rest
          rw [← hbatch] at hgroup
          rw [List.length_append, List.length_map]
          exact ⟨Nat.le_add_right _ _, List.prefix_rfl, fun _ => .inr (Nat.lt_add_of_pos_right hgroup)⟩
        · rw [hagain]
          exact ⟨Nat.le_refl _, List.prefix_rfl, .inl⟩
  | wait =>
      rw [he] at hstep
      rw [← Option.some.inj hstep]
      exact ⟨Nat.le_refl _, List.prefix_rfl, .inl⟩

theorem done_mono {n m : Nat} (h : n ≤ m) : (f.state n).done.length ≤ (f.state m).done.length :=
  monotone_nat_of_le_succ (fun n => (f.step_done n).1) h

theorem admitted_prefix {n m : Nat} (h : n ≤ m) : (f.state n).admitted <+: (f.state m).admitted := by
  induction m, h using Nat.le_induction with
  | base => exact List.prefix_rfl
  | succ m h ih => exact ih.trans (f.step_done m).2.1

theorem batch_stays {n m : Nat} (h : n ≤ m) (hbatch : (f.state n).batch ≠ []) :
    (f.state m).batch ≠ [] ∨ (f.state n).done.length < (f.state m).done.length := by
  induction m, h using Nat.le_induction with
  | base => exact .inl hbatch
  | succ m h ih =>
      rcases ih with hm | hless
      · rcases (f.step_done m).2.2 hm with hnext | hnext
        · exact .inl hnext
        · exact .inr (Nat.lt_of_le_of_lt (f.done_mono h) hnext)
      · exact .inr (Nat.lt_of_lt_of_le hless (f.step_done m).1)

/-- When the store recovers, the worker gets on. -/
theorem recovers_step {n : Nat} (h : (f.state n).Recovers raise (f.event n)) :
    (f.state n).batch = [] ∧ (f.state (n + 1)).batch ≠ [] ∨
      (f.state n).done.length < (f.state (n + 1)).done.length := by
  have hstep := f.step n
  have hfair := f.fair n
  cases he : f.event n with
  | receive more =>
      rw [he, Worker.step.eq_def] at hstep
      dsimp only at hstep
      split at hstep
      · rename_i first rest hbatch hqueue
        rw [← Option.some.inj hstep]
        exact .inl ⟨hbatch, List.cons_ne_nil _ _⟩
      · cases hstep
  | attempt fails inputs =>
      rw [he] at hfair h
      rw [he, Worker.step.eq_def] at hstep
      dsimp only at hstep
      split at hstep
      · cases hstep
      · rename_i cmd rest hbatch
        rw [← Option.some.inj hstep]
        have hhead : cmd ∈ (f.state n).batch.head? := by rw [hbatch]; rfl
        obtain ⟨inputs, completion, -, hserved⟩ := attempt_of_calm hbatch (hfair cmd hhead).1
          (perform_of_calm (h cmd hhead))
        have hgroup := group_length_pos cmd rest
        rw [← hbatch] at hgroup
        rw [hserved, finish]
        dsimp only
        rw [List.length_append, List.length_map]
        exact .inr (Nat.lt_add_of_pos_right hgroup)
  | accept cmd =>
      rw [he] at h
      exact h.elim
  | wait =>
      rw [he] at h
      exact h.elim

/-- While there is something to do, one more command is done some time. -/
theorem one_more {n : Nat} (hbusy : (f.state n).Busy) : ∃ m, (f.state n).done.length < (f.state m).done.length := by
  obtain ⟨m, hnm, hm⟩ := f.recovers n hbusy
  rcases f.recovers_step hm with ⟨-, hbatch⟩ | hless
  · obtain ⟨k, hmk, hk⟩ := f.recovers (m + 1) (.inl hbatch)
    have hmono := f.done_mono (Nat.le_succ_of_le hnm)
    rcases f.recovers_step hk with ⟨hempty, -⟩ | hless
    · exact ⟨k, Nat.lt_of_le_of_lt hmono ((f.batch_stays hmk hbatch).resolve_left (absurd hempty))⟩
    · exact ⟨k + 1, Nat.lt_of_le_of_lt (Nat.le_trans hmono (f.done_mono hmk)) hless⟩
  · exact ⟨m + 1, Nat.lt_of_le_of_lt (f.done_mono hnm) hless⟩

theorem done_reaches (h : (f.state 0).InOrder raise start) (k count : Nat)
    (hcount : count ≤ (f.state k).admitted.length) : ∃ m, k ≤ m ∧ count ≤ (f.state m).done.length := by
  induction count with
  | zero => exact ⟨k, Nat.le_refl k, Nat.zero_le _⟩
  | succ count ih =>
      obtain ⟨m, hkm, hm⟩ := ih (Nat.le_of_succ_le hcount)
      by_cases hdone : count + 1 ≤ (f.state m).done.length
      · exact ⟨m, hkm, hdone⟩
      · have hbusy : (f.state m).Busy := by
          by_contra hidle
          obtain ⟨hbatch, hqueue⟩ := not_or.mp hidle
          have hturn := congrArg List.length (f.inOrder h m).turn
          rw [not_not.mp hbatch, not_not.mp hqueue, List.append_nil, List.append_nil, List.length_map] at hturn
          have hadmitted := (f.admitted_prefix hkm).length_le
          omega
        obtain ⟨j, hj⟩ := f.one_more hbusy
        refine ⟨max m j, Nat.le_trans hkm (Nat.le_max_left m j), ?_⟩
        have hmono := f.done_mono (Nat.le_max_right m j)
        omega

end Schedule

/-- Commands are done once and in the order of their admission, whatever the store fails at, and none
holds up the others for ever. -/
theorem persisted_once {s : Worker} (hs : s.Start) :
    (∀ es t, Meets (step raise) (Fair raise) s es → run (step raise) s es = some t → t.InOrder raise s.db) ∧
      ∀ f : Schedule raise, f.state 0 = s → ∀ k, ∃ m, (f.state k).admitted <+: (f.state m).done.map Prod.fst := by
  refine ⟨fun es t hfair hrun => inOrder_run hs.inOrder hfair hrun, fun f hf k => ?_⟩
  have hzero : (f.state 0).InOrder raise s.db := by
    rw [hf]
    exact hs.inOrder
  obtain ⟨m, hkm, hm⟩ := f.done_reaches hzero k _ (Nat.le_refl _)
  refine ⟨m, List.prefix_of_prefix_length_le (f.admitted_prefix hkm) ?_ ?_⟩
  · rw [← (f.inOrder hzero m).turn, List.append_assoc]
    exact List.prefix_append _ _
  · rwa [List.length_map]

theorem taken_id_answers {message : ChatAppendRequest} {d : Database} (htaken : message.id ∈ d.chatIds)
    (inputs : Inputs) (rest : List SaveCommand) (fails : Nat → Bool) :
    perform raise inputs (.chatAppend message) (group (.chatAppend message :: rest)) fails d =
      ⟨.error .transient, d, 1⟩ := by
  have hfirst : addChatMessage message fails d = ⟨.error .transient, d, 1⟩ := by
    rw [addChatMessage, sql, statement, if_pos htaken]
    split <;> rfl
  have hbatch : ∀ k : Unit → Sql Unit, andThen (addChatMessage message) k fails d = ⟨.error .transient, d, 1⟩ := by
    intro k
    rw [andThen_error (e := Failure.transient) (by rw [hfirst]), hfirst]
  have hsaved : ∀ k : Unit → Sql Unit,
      saved (andThen (addChatMessage message) k) fails d = ⟨.error .transient, d, 1⟩ := by
    intro k
    rw [saved, andThen_error (e := Failure.transient) (by rw [hbatch]), hbatch]
  exact hsaved _

/-- A message whose id is taken is tried again for ever. -/
theorem taken_id_stays {message : ChatAppendRequest} {rest : List SaveCommand} {es : List WorkerEvent}
    (hbatch : s.batch = .chatAppend message :: rest) (htaken : message.id ∈ s.db.chatIds)
    (hrun : run (step raise) s es = some t) : t.batch = s.batch ∧ t.done = s.done ∧ t.db = s.db := by
  refine run_preserves (P := fun u => u.batch = s.batch ∧ u.done = s.done ∧ u.db = s.db) ⟨rfl, rfl, rfl⟩
    (fun e _ u v ⟨hu, hdone, hdb⟩ hstep => ?_) hrun
  rw [← hu] at hbatch
  rw [← hdb] at htaken
  cases e with
  | accept cmd =>
      rw [← Option.some.inj hstep]
      exact ⟨hu, hdone, hdb⟩
  | receive more =>
      rw [step.eq_def] at hstep
      dsimp only at hstep
      rw [hbatch] at hstep
      cases hstep
  | attempt fails inputs =>
      have hanswer := @taken_id_answers raise message u.db htaken inputs rest fails
      rw [← hbatch] at hanswer
      have hround := @attempt_cases raise u _ _ hbatch fails inputs
      rw [hanswer] at hround
      rw [step.eq_def] at hstep
      dsimp only at hstep
      rw [hbatch] at hstep
      rcases hround with ⟨-, -, -, hgiven⟩ | ⟨hagain, -⟩
      · cases (hgiven rfl).1
      · rw [← Option.some.inj hstep, hagain]
        exact ⟨hu, hdone, hdb⟩
  | wait =>
      rw [← Option.some.inj hstep]
      exact ⟨hu, hdone, hdb⟩

end Worker

def emptyDatabase : Database where
  players := []
  chatColors := fun _ => 0
  buildings := []
  boxes := fun _ => none
  chatMessages := []
  programs := []
  lastProgram := 0
  orders := []
  lastOrder := 0
  clans :=
    { players := []
      clans := []
      requests := ∅
      invites := ∅
      playerIds := List.Pairwise.nil
      clanIds := List.nodup_nil }

def idleWorker : Worker where
  db := emptyDatabase
  queue := []
  batch := []
  attempts := 0
  completions := []
  admitted := []
  done := []

def greeting (id : Int) : ChatAppendRequest := ⟨id, "FED", "bob", "hi", 1, 0⟩

/-- Two messages come before the worker takes them. -/
def twoMessages : List WorkerEvent :=
  [.accept (.chatAppend (greeting 1)), .accept (.chatAppend (greeting 2)), .receive 1]

/-- The first statement fails once. -/
def messagesAtLast : List WorkerEvent :=
  twoMessages ++ [.attempt (fun i => i = 0) ⟨0, 0⟩, .attempt (fun _ => false) ⟨0, 0⟩]

namespace Worker

theorem fair_messagesAtLast : Meets (step id) (Fair id) idleWorker messagesAtLast := by
  refine ⟨trivial, fun t₁ h₁ => ?_⟩
  obtain rfl := Option.some.inj h₁
  refine ⟨trivial, fun t₂ h₂ => ?_⟩
  obtain rfl := Option.some.inj h₂
  refine ⟨trivial, fun t₃ h₃ => ?_⟩
  obtain rfl := Option.some.inj h₃
  have haccepted : Accepted (.chatAppend (greeting 1)) [.chatAppend (greeting 1), .chatAppend (greeting 2)]
      emptyDatabase := ⟨by decide, by decide⟩
  refine ⟨fun cmd hcmd => ?_, fun t₄ h₄ => ?_⟩
  · obtain rfl := Option.some.inj hcmd
    refine ⟨haccepted, fun first hfirst => .inl ⟨0, ?_, by decide, by decide⟩, fun h => by cases h⟩
    rw [← Option.some.inj hfirst]
    exact Nat.one_pos
  · obtain rfl := Option.some.inj h₄
    refine ⟨fun cmd hcmd => ?_, fun _ _ => trivial⟩
    obtain rfl := Option.some.inj hcmd
    exact ⟨haccepted, fun _ _ => .inr fun _ _ => rfl, fun h => by cases h⟩

/-- The worker at the steps of a run without an end, in which one message is sent. -/
def oneMessage : Nat → Worker
  | 0 => idleWorker
  | 1 => { idleWorker with queue := [.chatAppend (greeting 1)], admitted := [.chatAppend (greeting 1)] }
  | 2 => { idleWorker with batch := [.chatAppend (greeting 1)], admitted := [.chatAppend (greeting 1)] }
  | _ => { idleWorker with
      db := { emptyDatabase with chatMessages := [greeting 1] }
      admitted := [.chatAppend (greeting 1)]
      done := [(.chatAppend (greeting 1), ⟨0, 0⟩)] }

def oneMessageEvents : Nat → WorkerEvent
  | 0 => .accept (.chatAppend (greeting 1))
  | 1 => .receive 0
  | 2 => .attempt (fun _ => false) ⟨0, 0⟩
  | _ => .wait

theorem exists_schedule : ∃ f : Schedule id, f.state 0 = idleWorker ∧
    (f.state 1).admitted = [.chatAppend (greeting 1)] := by
  refine ⟨⟨oneMessage, oneMessageEvents, fun n => ?_, fun n => ?_, fun n hbusy => ?_⟩, rfl, rfl⟩
  · match n with
    | 0 => rfl
    | 1 => rfl
    | 2 => rfl
    | _ + 3 => rfl
  · match n with
    | 0 => trivial
    | 1 => trivial
    | 2 =>
        intro cmd hcmd
        obtain rfl := Option.some.inj hcmd
        exact ⟨⟨by decide, by decide⟩, fun _ _ => .inr fun _ _ => rfl, fun h => by cases h⟩
    | _ + 3 => trivial
  · match n with
    | 0 => exact ⟨1, Nat.zero_le 1, trivial⟩
    | 1 => exact ⟨1, Nat.le_refl 1, trivial⟩
    | 2 => exact ⟨2, Nat.le_refl 2, fun _ _ _ _ => rfl⟩
    | _ + 3 => exact absurd hbusy (not_or.mpr ⟨not_not.mpr rfl, not_not.mpr rfl⟩)

theorem persisted_once_two_messages :
    (∃ t, run (step id) idleWorker messagesAtLast = some t ∧
      t.db.chatMessages = [greeting 1, greeting 2] ∧ t.InOrder id emptyDatabase) ∧
      ∃ f : Schedule id, f.state 0 = idleWorker ∧ ∃ m, [.chatAppend (greeting 1)] <+: (f.state m).done.map Prod.fst := by
  have hrun : (run (step id) idleWorker messagesAtLast).isSome := by decide
  obtain ⟨t, ht⟩ := Option.isSome_iff_exists.mp hrun
  have hmessages : (run (step id) idleWorker messagesAtLast).map (fun t => t.db.chatMessages) =
      some [greeting 1, greeting 2] := by decide
  rw [ht] at hmessages
  obtain ⟨hordered, hserved⟩ := @persisted_once id idleWorker ⟨rfl, rfl, rfl, rfl, rfl⟩
  obtain ⟨f, hzero, hone⟩ := exists_schedule
  exact ⟨⟨t, ht, Option.some.inj hmessages, hordered _ t fair_messagesAtLast ht⟩, f, hzero, hone ▸ hserved f hzero 1⟩

/-- The second message of a batch fails once: the first stays without being done, and is then refused
for ever, with all that follows it. -/
theorem failed_batch_blocks :
    ∃ t, run (step id) idleWorker (twoMessages ++ [.attempt (fun i => i = 1) ⟨0, 0⟩]) = some t ∧
      ¬ t.InOrder id emptyDatabase ∧
      ∀ es u, run (step id) t es = some u → u.batch = t.batch ∧ u.batch.length = 2 ∧ u.done = [] := by
  have hrun : (run (step id) idleWorker (twoMessages ++ [.attempt (fun i => i = 1) ⟨0, 0⟩])).isSome := by
    decide
  obtain ⟨t, ht⟩ := Option.isSome_iff_exists.mp hrun
  have ht' := ht
  obtain rfl := Option.some.inj ht'
  refine ⟨_, ht, fun h => ?_, fun es u hu => ?_⟩
  · have hmessages := congrArg (fun d => d.chatMessages.length) h.db
    exact absurd hmessages (by decide)
  · obtain ⟨hbatch, hdone, -⟩ := @taken_id_stays id _ _ (greeting 1) _ _ rfl (by decide) hu
    exact ⟨hbatch, by rw [hbatch]; rfl, hdone⟩

end Worker

end OpenMines.Persistence
