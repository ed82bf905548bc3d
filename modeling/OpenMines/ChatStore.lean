import OpenMines.PersistenceOnce
import OpenMines.StoreFrames

namespace OpenMines.Persistence

open Lib.Statements Lib.Statements.Prog Lib.Run Database

/-- The messages of some commands. -/
def posts (cmds : List SaveCommand) : List ChatAppendRequest := cmds.filterMap SaveCommand.chatMessage

theorem posts_append (cmds cmds' : List SaveCommand) : posts (cmds ++ cmds') = posts cmds ++ posts cmds' :=
  List.filterMap_append

variable {raise : Int → Int} {base old : List ChatAppendRequest} {cmd : SaveCommand}

section Table

theorem keeps_messages {α : Type} {f : Database → Option (α × Database)}
    (h : ∀ d a d', f d = some (a, d') → d'.chatMessages = d.chatMessages) :
    Preserves (fun d => d.chatMessages = old) (sql f) := keeps_statement fun d a d' hd hf => (h d a d' hf).trans hd

theorem keeps_insertProgram (player : PlayerId) (name code : String) :
    Preserves (fun d => d.chatMessages = old) (insertProgram player name code) := by
  refine keeps_messages fun d a d' hf => ?_
  split at hf
  · obtain ⟨-, rfl⟩ := Prod.mk.inj (Option.some.inj hf)
    rfl
  · cases hf

theorem keeps_setSelectedProgram (player : PlayerId) (program : Option Int32) :
    Preserves (fun d => d.chatMessages = old) (setSelectedProgram player program) := by
  refine keeps_messages fun d a d' hf => ?_
  obtain ⟨-, rfl⟩ := Prod.mk.inj (Option.some.inj hf)
  rfl

theorem keeps_saveSelectProgram (player : PlayerId) (program : Int32) (code : String) :
    Preserves (fun d => d.chatMessages = old) (saveSelectProgram player program code) := by
  refine Preserves.transaction (Preserves.bind (keeps_messages fun d a d' hf => ?_) fun updated => ?_)
  · obtain ⟨-, rfl⟩ := Prod.mk.inj (Option.some.inj hf)
    rfl
  · split
    · refine (keeps_setSelectedProgram player (some program)).bind fun selected => ?_
      split
      · refine Preserves.bind (keeps_messages fun d a d' hf => ?_) fun row => keeps_ret _
        obtain ⟨row, -, hrow⟩ := Option.map_eq_some_iff.mp hf
        obtain ⟨-, rfl⟩ := Prod.mk.inj hrow
        rfl
      · exact keeps_ret _
    · exact keeps_ret _

/-- What works on the program of a player when it is his. -/
theorem keeps_owned {program : Int32} {player : PlayerId} {k : ProgramRow → Sql StoreResult}
    (hk : ∀ row, Preserves (fun d => d.chatMessages = old) (k row)) :
    Preserves (fun d => d.chatMessages = old) (do
      match ← query fun d => d.getProgram program with
      | none => ret .rejected
      | some row => if row.playerId ≠ player then ret .rejected else k row) := by
  refine (keeps_read _).bind fun found => ?_
  cases found with
  | none => exact keeps_ret _
  | some row =>
      dsimp only
      split
      · exact keeps_ret _
      · exact hk row

/-- Commands that append no message leave the messages alone. -/
theorem keeps_chatMessages (hchat : cmd.kind ≠ .chatAppend) (inputs : Inputs) (cmds : List SaveCommand) :
    Preserves (fun d => d.chatMessages = old) (perform raise inputs cmd cmds) := by
  have hblind : Blind fun d => d.chatMessages = old := fun _ _ hsame h => hsame.messages.trans h
  cases hprogram : cmd.programmer with
  | none => exact keeps_perform hblind hprogram hchat inputs cmds
  | some _ =>
      cases cmd with
      | program player program source =>
          refine (keeps_saveSelectProgram player program source).bind fun r => ?_
          cases r with
          | saved row => exact keeps_ret _
          | programUnavailable => exact keeps_ret _
          | playerUnavailable => exact keeps_fail _
      | programCreate player name =>
          exact (keeps_insertProgram player name "").bind fun id =>
            (keeps_setSelectedProgram player (some id)).swallow.bind fun _ => keeps_ret _
      | programOpen player program =>
          exact keeps_owned fun row => (keeps_setSelectedProgram player (some row.id)).bind fun _ => keeps_ret _
      | programRename player program name =>
          refine keeps_owned fun row => Preserves.bind (keeps_messages fun d a d' hf => ?_) fun _ => keeps_ret _
          split at hf
          · obtain ⟨-, rfl⟩ := Prod.mk.inj (Option.some.inj hf)
            rfl
          · cases hf
      | programDelete player program clearSelected =>
          refine Preserves.bind (keeps_messages fun d a d' hf => ?_) fun deleted => ?_
          · obtain ⟨-, rfl⟩ := Prod.mk.inj (Option.some.inj hf)
            rfl
          · split
            · split
              · exact (keeps_setSelectedProgram player none).swallow.bind fun _ => keeps_ret _
              · exact keeps_ret _
            · exact keeps_ret _
      | programCopy player program =>
          refine keeps_owned fun row => (keeps_insertProgram player _ row.code).swallow.bind fun r => ?_
          cases r <;> exact keeps_ret _
      | _ => cases hprogram

/-- A batch of messages is appended, or the first of them are. -/
theorem triple_saveChatMessages (messages : List ChatAppendRequest) :
    Triple (fun d => d.chatMessages = old) (saveChatMessagesBatch messages)
      (fun _ d => d.chatMessages = old ++ messages)
      fun d => ∃ half, half <+: messages ∧ d.chatMessages = old ++ half := by
  induction messages generalizing old with
  | nil => exact triple_ret fun d hd => by rw [hd, List.append_nil]
  | cons message messages ih =>
      refine Triple.andThen (M := fun _ d => d.chatMessages = old ++ [message]) ?_ fun _ => ih.weaken (fun _ hd => hd)
        (fun _ d hd => by rw [hd, List.append_assoc, List.singleton_append]) ?_
      · refine triple_statement (fun d a d' hd hf => ?_) fun d hd =>
          ⟨[], List.nil_prefix, by rw [hd, List.append_nil]⟩
        split at hf
        · cases hf
        · obtain ⟨-, rfl⟩ := Prod.mk.inj (Option.some.inj hf)
          exact congrArg (· ++ [message]) hd
      · rintro d ⟨half, hhalf, hd⟩
        exact ⟨message :: half, (List.prefix_cons_inj message).mpr hhalf,
          by rw [hd, List.append_assoc, List.singleton_append]⟩

end Table

namespace Worker

variable {s t : Worker} {rest : List SaveCommand}

/-- The messages of the table are those that were there, those of the commands that are done, and the first
ones of a batch that failed on its way. -/
structure Logged (base : List ChatAppendRequest) (s : Worker) : Prop where
  turn : s.done.map Prod.fst ++ s.batch ++ s.queue = s.admitted
  table : ∃ half, s.db.chatMessages = base ++ posts (s.done.map Prod.fst) ++ half ∧ half <+: posts s.batch ∧
    (half ≠ [] → ∃ message rest, s.batch = .chatAppend message :: rest)

/-- Before a command that appends no message, all messages that were admitted earlier are in the table. -/
theorem Logged.complete (h : s.Logged base) (hbatch : s.batch = cmd :: rest) (hchat : cmd.kind ≠ .chatAppend) :
    s.db.chatMessages = base ++ posts (s.done.map Prod.fst) := by
  obtain ⟨half, hdb, -, hhead⟩ := h.table
  by_cases hhalf : half = []
  · rw [hdb, hhalf, List.append_nil]
  · obtain ⟨message, rest', hmessage⟩ := hhead hhalf
    obtain ⟨rfl, -⟩ := List.cons.inj (hbatch.symm.trans hmessage)
    exact absurd rfl hchat

/-- The table has nothing but what was there and what was admitted, in its order. -/
theorem Logged.table_eq (h : s.Logged base) : ∃ log, log <+: posts s.admitted ∧ s.db.chatMessages = base ++ log := by
  obtain ⟨half, hdb, hhalf, -⟩ := h.table
  refine ⟨posts (s.done.map Prod.fst) ++ half, ?_, by rw [hdb, List.append_assoc]⟩
  rw [← h.turn, List.append_assoc, posts_append, posts_append]
  exact (List.prefix_append_right_inj _).mpr (hhalf.trans (List.prefix_append _ _))

theorem done_finish (s : Worker) (inputs : Inputs) (d : Database) (completion : List (SaveCommand × StoreResult)) :
    (s.finish (group s.batch) inputs d completion).done.map Prod.fst = s.done.map Prod.fst ++ group s.batch := by
  change (s.done ++ (group s.batch).map fun c => (c, inputs)).map Prod.fst = _
  rw [List.map_append, List.map_map]
  exact congrArg _ (List.map_id _)

theorem turn_finish (h : s.done.map Prod.fst ++ s.batch ++ s.queue = s.admitted) (hbatch : s.batch = cmd :: rest)
    (inputs : Inputs) (d : Database) (completion : List (SaveCommand × StoreResult)) :
    let t := s.finish (group s.batch) inputs d completion
    t.done.map Prod.fst = s.done.map Prod.fst ++ group s.batch ∧
      t.done.map Prod.fst ++ t.batch ++ t.queue = t.admitted := by
  have hdone := done_finish s inputs d completion
  refine ⟨hdone, ?_⟩
  rw [hdone]
  change s.done.map Prod.fst ++ group s.batch ++ s.batch.drop (group s.batch).length ++ s.queue = s.admitted
  rw [List.append_assoc (s.done.map Prod.fst), ← h, hbatch, group_append_drop]

/-- A batch of messages is stored, or is to be tried again. -/
theorem attempt_chatAppend (s : Worker) (message : ChatAppendRequest) (fails : Nat → Bool) (inputs : Inputs) :
    let answer := perform raise inputs (.chatAppend message) (group s.batch) fails s.db
    (∃ r, answer.result = .ok r ∧
        s.attempt raise fails inputs (.chatAppend message) = s.finish (group s.batch) inputs answer.data []) ∨
      ∃ e, answer.result = .error e ∧ s.attempt raise fails inputs (.chatAppend message) =
        { s with db := answer.data, attempts := s.attempts + 1 } := by
  intro answer
  rw [Worker.attempt, if_pos (by rfl)]
  split
  · rename_i r hresult
    exact .inl ⟨r, hresult, rfl⟩
  · rename_i e hresult
    exact .inr ⟨e, hresult, rfl⟩

/-- The first messages of a batch that failed on its way have taken their ids, and it fails for ever. -/
theorem Logged.append {message : ChatAppendRequest} {fails : Nat → Bool} {inputs : Inputs} (h : s.Logged base)
    (hbatch : s.batch = .chatAppend message :: rest) :
    (s.attempt raise fails inputs (.chatAppend message)).Logged base := by
  let answer := perform raise inputs (.chatAppend message) (group s.batch) fails s.db
  have hattempt := @attempt_chatAppend raise s message fails inputs
  obtain ⟨half, hdb, hprefix, hhead⟩ := h.table
  by_cases hhalf : half = []
  · subst hhalf
    rw [List.append_nil] at hdb
    have htriple : Triple (fun d => d.chatMessages = base ++ posts (s.done.map Prod.fst))
        (saved (saveChatMessagesBatch (posts (group s.batch))))
        (fun _ d => d.chatMessages = base ++ posts (s.done.map Prod.fst) ++ posts (group s.batch))
        fun d => ∃ half, half <+: posts (group s.batch) ∧
          d.chatMessages = base ++ posts (s.done.map Prod.fst) ++ half :=
      (triple_saveChatMessages _).andThen fun _ => triple_ret fun _ hd => hd
    obtain ⟨hok, herror⟩ := htriple fails s.db hdb
    rcases hattempt with ⟨r, hresult, hfinish⟩ | ⟨e, hresult, hagain⟩
    · rw [hfinish]
      obtain ⟨hdone, hturn⟩ := turn_finish h.turn hbatch inputs answer.data []
      refine ⟨hturn, [], ?_, List.nil_prefix, fun hne => absurd rfl hne⟩
      rw [hdone, posts_append, ← List.append_assoc, List.append_nil]
      exact hok r hresult
    · rw [hagain]
      obtain ⟨half, hhalf, hdata⟩ := herror e hresult
      have hgroup : posts (group s.batch) <+: posts s.batch := by
        conv_rhs => rw [hbatch, ← group_append_drop, posts_append, ← hbatch]
        exact List.prefix_append _ _
      exact ⟨h.turn, half, hdata, hhalf.trans hgroup, fun _ => ⟨message, rest, hbatch⟩⟩
  · have htaken : message.id ∈ s.db.chatIds := by
      obtain ⟨first, half', rfl⟩ := List.exists_cons_of_ne_nil hhalf
      have hposts : posts s.batch = message :: posts rest := by rw [hbatch]; rfl
      rw [hposts, List.cons_prefix_cons] at hprefix
      refine List.mem_map.mpr ⟨message, ?_, rfl⟩
      rw [hdb, hprefix.1]
      exact List.mem_append_right _ List.mem_cons_self
    have hanswer : answer = ⟨.error .transient, s.db, 1⟩ := by
      change perform raise inputs _ (group s.batch) fails s.db = _
      rw [hbatch]
      exact taken_id_answers htaken inputs rest fails
    rcases hattempt with ⟨r, hresult, -⟩ | ⟨e, -, hagain⟩
    · rw [show perform raise inputs _ (group s.batch) fails s.db = _ from hanswer] at hresult
      cases hresult
    · rw [hagain, show perform raise inputs _ (group s.batch) fails s.db = _ from hanswer]
      exact ⟨h.turn, half, hdb, hprefix, hhead⟩

theorem Logged.attempt {fails : Nat → Bool} {inputs : Inputs} (h : s.Logged base) (hbatch : s.batch = cmd :: rest) :
    (s.attempt raise fails inputs cmd).Logged base := by
  by_cases hchat : cmd.kind = .chatAppend
  · obtain ⟨message, rfl⟩ : ∃ message, cmd = .chatAppend message := by
      cases cmd <;> cases hchat
      exact ⟨_, rfl⟩
    exact h.append hbatch
  · let answer := perform raise inputs cmd (group s.batch) fails s.db
    have hmessages : answer.data.chatMessages = s.db.chatMessages :=
      (keeps_chatMessages hchat inputs (group s.batch)).data (fun _ _ hd => hd) (fun _ hd => hd) rfl
    have hdb := hmessages.trans (h.complete hbatch hchat)
    have hnone : posts (group s.batch) = [] := by
      refine List.filterMap_eq_nil_iff.mpr fun c hc => ?_
      rw [hbatch] at hc
      have hkind := group_kind c hc
      cases c with
      | chatAppend _ => exact absurd hkind.symm hchat
      | _ => rfl
    rcases attempt_cases hbatch fails inputs with ⟨completion, -, hfinish, -⟩ | ⟨hagain, -⟩
    · rw [hfinish]
      obtain ⟨hdone, hturn⟩ := turn_finish h.turn hbatch inputs answer.data completion
      refine ⟨hturn, [], ?_, List.nil_prefix, fun hne => absurd rfl hne⟩
      rw [hdone, posts_append, hnone, List.append_nil, List.append_nil]
      exact hdb
    · rw [hagain]
      exact ⟨h.turn, [], by rw [List.append_nil]; exact hdb, List.nil_prefix, fun hne => absurd rfl hne⟩

theorem Logged.accept (h : s.Logged base) (cmd : SaveCommand) :
    Logged base { s with queue := s.queue ++ [cmd], admitted := s.admitted ++ [cmd] } :=
  ⟨by rw [← h.turn, List.append_assoc _ s.queue], h.table⟩

theorem Logged.step {e : WorkerEvent} (h : s.Logged base) (hstep : s.step raise e = some t) : t.Logged base := by
  cases e with
  | accept cmd =>
      obtain rfl := Option.some.inj hstep
      exact h.accept cmd
  | receive more =>
      rw [Worker.step] at hstep
      split at hstep
      · rename_i first rest hbatch hqueue
        obtain rfl := Option.some.inj hstep
        obtain ⟨half, hdb, hprefix, -⟩ := h.table
        rw [hbatch] at hprefix
        obtain rfl := List.prefix_nil.mp hprefix
        refine ⟨?_, [], hdb, List.nil_prefix, fun hne => absurd rfl hne⟩
        rw [← h.turn, hbatch, hqueue, List.append_nil, List.append_assoc, List.cons_append, List.take_append_drop]
      · cases hstep
  | attempt fails inputs =>
      rw [Worker.step] at hstep
      split at hstep
      · cases hstep
      · rename_i cmd rest hbatch
        exact Option.some.inj hstep ▸ h.attempt hbatch
  | wait =>
      obtain rfl := Option.some.inj hstep
      exact h

/-- Only a command that is accepted is admitted. -/
theorem admitted_step {e : WorkerEvent} (he : ∀ cmd, e ≠ .accept cmd) (hstep : s.step raise e = some t) :
    t.admitted = s.admitted := by
  cases e with
  | accept cmd => exact absurd rfl (he cmd)
  | receive more =>
      rw [Worker.step] at hstep
      split at hstep
      · obtain rfl := Option.some.inj hstep
        rfl
      · cases hstep
  | attempt fails inputs =>
      rw [Worker.step] at hstep
      split at hstep
      · cases hstep
      · rename_i cmd rest hbatch
        obtain rfl := Option.some.inj hstep
        rcases attempt_cases hbatch fails inputs with ⟨completion, -, hfinish, -⟩ | ⟨hagain, -⟩
        · rw [hfinish]
          rfl
        · rw [hagain]
  | wait =>
      obtain rfl := Option.some.inj hstep
      rfl

/-! ### Requests for messages -/

/-- The command asks for messages of the table. -/
def asks : SaveCommand → Bool
  | .chatResync _ => true
  | .chatPrivate _ => true
  | _ => false

theorem group_of_asks (h : asks cmd = true) : group (cmd :: rest) = [cmd] := by
  refine group_of_not_compatible ?_
  cases cmd <;> cases h <;> rfl

theorem asks_of_kind {c : SaveCommand} (h : c.kind = cmd.kind) : asks c = asks cmd := by
  cases c <;> cases cmd <;> first | rfl | cases h

/-- What is answered on the way to a state: the request at the head of the batch, or none. -/
def AsksStep (s t : Worker) : Prop :=
  (t.completions.drop s.completions.length).countP (fun c => asks c.1) = 0 ∧
      (t.done.map Prod.fst).filter asks = (s.done.map Prod.fst).filter asks ∨
    ∃ cmd rest, s.batch = cmd :: rest ∧ asks cmd = true ∧ t.done.map Prod.fst = s.done.map Prod.fst ++ [cmd] ∧
      (t.completions.drop s.completions.length).countP (fun c => asks c.1) = 1

theorem AsksStep.of_same (hcompletions : t.completions = s.completions) (hdone : t.done = s.done) : AsksStep s t := by
  refine .inl ⟨?_, by rw [hdone]⟩
  rw [hcompletions, List.drop_length]
  rfl

theorem asksStep_finish (hbatch : s.batch = cmd :: rest) {completion : List (SaveCommand × StoreResult)}
    (hcompletion : completion.map Prod.fst = (group s.batch).filter completes) (inputs : Inputs) (d : Database) :
    AsksStep s (s.finish (group s.batch) inputs d completion) := by
  have hdone := done_finish s inputs d completion
  have hnew : ((s.finish (group s.batch) inputs d completion).completions.drop s.completions.length).countP
      (fun c => asks c.1) = ((group s.batch).filter completes).countP asks := by
    change ((s.completions ++ completion).drop s.completions.length).countP _ = _
    rw [List.drop_left, ← hcompletion, List.countP_map]
    rfl
  cases hasks : asks cmd with
  | true =>
      have hgroup : group s.batch = [cmd] := by rw [hbatch, group_of_asks hasks]
      refine .inr ⟨cmd, rest, hbatch, hasks, by rw [hdone, hgroup], ?_⟩
      rw [hnew, hgroup]
      cases cmd <;> cases hasks <;> rfl
  | false =>
      have hnone : (group s.batch).filter asks = [] := List.filter_eq_nil_iff.mpr fun c hc => by
        rw [hbatch] at hc
        rw [asks_of_kind (group_kind c hc), hasks]
        exact Bool.false_ne_true
      refine .inl ⟨?_, by rw [hdone, List.filter_append, hnone, List.append_nil]⟩
      rw [hnew, List.countP_eq_length_filter, List.filter_comm, hnone]
      rfl

theorem asksStep {e : WorkerEvent} (hstep : s.step raise e = some t) : AsksStep s t := by
  cases e with
  | accept cmd =>
      obtain rfl := Option.some.inj hstep
      exact .of_same rfl rfl
  | receive more =>
      rw [Worker.step] at hstep
      split at hstep
      · obtain rfl := Option.some.inj hstep
        exact .of_same rfl rfl
      · cases hstep
  | attempt fails inputs =>
      rw [Worker.step] at hstep
      split at hstep
      · cases hstep
      · rename_i cmd rest hbatch
        obtain rfl := Option.some.inj hstep
        rcases attempt_cases hbatch fails inputs with ⟨completion, hcompletion, hfinish, -⟩ | ⟨hagain, -⟩
        · rw [hfinish]
          exact asksStep_finish hbatch hcompletion inputs _
        · rw [hagain]
          exact .of_same rfl rfl
  | wait =>
      obtain rfl := Option.some.inj hstep
      exact .of_same rfl rfl

end Worker

end OpenMines.Persistence
