import OpenMines.ChatFanout

namespace OpenMines

open Lib.Text Lib.Run Persistence ChatPackets

/-- A place in a list is known by how many are before it of those that are like the one at the place. -/
theorem prefix_eq_of_countP {α : Type} {p : α → Bool} {a b : List α} {x y : α} {c d : List α} (hx : p x = true)
    (hy : p y = true) (h : a ++ x :: c = b ++ y :: d) (hcount : a.countP p = b.countP p) : a = b := by
  induction a generalizing b with
  | nil =>
      cases b with
      | nil => rfl
      | cons z b =>
          obtain ⟨rfl, -⟩ := List.cons.inj h
          rw [List.countP_cons_of_pos hx] at hcount
          cases hcount
  | cons z a ih =>
      cases b with
      | nil =>
          obtain ⟨rfl, -⟩ := List.cons.inj h
          rw [List.countP_cons_of_pos hy] at hcount
          cases hcount
      | cons w b =>
          obtain ⟨rfl, htail⟩ := List.cons.inj h
          rw [ih htail]
          cases hz : p z with
          | true =>
              rw [List.countP_cons_of_pos hz, List.countP_cons_of_pos hz] at hcount
              exact Nat.succ.inj hcount
          | false =>
              rw [List.countP_cons_of_neg (by rw [hz]; exact Bool.false_ne_true),
                List.countP_cons_of_neg (by rw [hz]; exact Bool.false_ne_true)] at hcount
              exact hcount

namespace Chats

variable {s t u : Chats} {raise createdAt : Int → Int} {base : List ChatAppendRequest} {db : Database}

theorem asks_command (request : ChatRequest) : Worker.asks request.command = true := by
  cases request <;> rfl

/-- A step makes one request, or none. -/
theorem step_requests {e : ChatEvent} (hstep : s.step raise createdAt e = some t) :
    (∃ request, t = s.ask request) ∨
      t.requests = s.requests ∧
        ∃ cmds, t.worker.admitted = s.worker.admitted ++ cmds ∧ cmds.filter Worker.asks = [] := by
  have hsame : ∀ v : Chats, v.requests = s.requests → v.worker.admitted = s.worker.admitted → v.requests = s.requests ∧
      ∃ cmds, v.worker.admitted = s.worker.admitted ++ cmds ∧ cmds.filter Worker.asks = [] :=
    fun v hrequests hadmitted => ⟨hrequests, [], by rw [hadmitted, List.append_nil], rfl⟩
  cases StepTo.of_step hstep with
  | idle | complete hrequest hanswer hhistory | fanout hfanouts hchannels | world players active sessions =>
      exact .inr (hsame _ rfl rfl)
  | post hp queued => exact .inr ⟨rfl, _, rfl, rfl⟩
  | ask request => exact .inl ⟨request, rfl⟩
  | @save cmd hcmd hasks => exact .inr ⟨rfl, [cmd], rfl, by rw [List.filter_singleton, hasks]; rfl⟩
  | store hne hworker hanswers => exact .inr (hsame _ rfl (Worker.admitted_step hne hworker))

/-- A request that was made, and the state in which it was. -/
def MadeAt (createdAt raise : Int → Int) (db : Database) (es : List ChatEvent) (i : Nat) (request : ChatRequest)
    (u : Chats) : Prop :=
  ∃ before e after, es = before ++ e :: after ∧ run (step raise createdAt) (start createdAt db) before = some u ∧
    u.step raise createdAt e = some (u.ask request) ∧ u.requests.length = i

/-- What is known of the requests. -/
structure Asked (raise createdAt : Int → Int) (db : Database) (es : List ChatEvent) (s : Chats) : Prop where
  commands : s.worker.admitted.filter Worker.asks = s.requests.map ChatRequest.command
  made : ∀ i request, s.requests[i]? = some request → ∃ u, MadeAt createdAt raise db es i request u ∧
    u.worker.admitted ++ [request.command] <+: s.worker.admitted

theorem MadeAt.longer {es : List ChatEvent} {i : Nat} {request : ChatRequest}
    (h : MadeAt createdAt raise db es i request u) (e : ChatEvent) :
    MadeAt createdAt raise db (es ++ [e]) i request u := by
  obtain ⟨before, f, after, rfl, hrun, hstep, hi⟩ := h
  exact ⟨before, f, after ++ [e], by rw [List.append_assoc]; rfl, hrun, hstep, hi⟩

theorem Asked.step {es : List ChatEvent} {e : ChatEvent} (h : Asked raise createdAt db es s)
    (hrun : run (step raise createdAt) (start createdAt db) es = some s) (hstep : s.step raise createdAt e = some t) :
    Asked raise createdAt db (es ++ [e]) t := by
  rcases step_requests hstep with ⟨request, rfl⟩ | ⟨hrequests, cmds, hadmitted, hcmds⟩
  · have hadmitted : (s.ask request).worker.admitted = s.worker.admitted ++ [request.command] := rfl
    have hrequests : (s.ask request).requests = s.requests ++ [request] := rfl
    refine ⟨?_, fun i request' hi => ?_⟩
    · rw [hadmitted, hrequests, List.filter_append, h.commands, List.map_append, List.filter_singleton,
        asks_command request]
      rfl
    · rw [hrequests] at hi
      rcases Nat.lt_or_ge i s.requests.length with hlt | hge
      · rw [List.getElem?_append_left hlt] at hi
        obtain ⟨u, hmade, hprefix⟩ := h.made i request' hi
        exact ⟨u, hmade.longer e, hprefix.trans (List.prefix_append _ _)⟩
      · rw [List.getElem?_append_right hge] at hi
        rw [List.getElem?_singleton] at hi
        split at hi
        · obtain rfl := Option.some.inj hi
          exact ⟨s, ⟨es, e, [], rfl, hrun, hstep, by omega⟩, List.prefix_rfl⟩
        · cases hi
  · refine ⟨?_, fun i request hi => ?_⟩
    · rw [hadmitted, List.filter_append, hcmds, List.append_nil, h.commands, hrequests]
    · rw [hrequests] at hi
      obtain ⟨u, hmade, hprefix⟩ := h.made i request hi
      exact ⟨u, hmade.longer e, hprefix.trans (hadmitted ▸ List.prefix_append _ _)⟩

/-! ### Answers -/

/-- A history answers a request of the session. -/
def OpenedBy (s : Chats) (player : PlayerId) (session : SessionId) (tag : String) (messages : List ChatMessage) : Prop :=
  ∃ (i : Nat) (request : ChatRequest) (name : String), request.player = player ∧ request.session = session ∧
    s.requests[i]? = some request ∧ s.answers[i]? = some (ChatAnswer.opened tag name messages)

/-- What is known of the answers: each is of a table that has just what was posted before its request. -/
structure Answered (base : List ChatAppendRequest) (createdAt : Int → Int) (s : Chats) : Prop where
  logged : s.worker.Logged base
  done : ((s.worker.done.map Prod.fst).filter Worker.asks).length = s.answers.length
  le : s.answers.length ≤ s.requests.length
  answers : ∀ i request answer, s.requests[i]? = some request → s.answers[i]? = some answer → ∃ d before after,
    s.worker.admitted = before ++ request.command :: after ∧ before.countP Worker.asks = i ∧
      d.chatMessages = base ++ posts before ∧ answer = answerRequest createdAt d request
  sent : ∀ player session tag messages, .history player session tag messages ∈ s.sent →
    s.OpenedBy player session tag messages

theorem getElem?_of_prefix {α : Type} {as bs : List α} {i : Nat} {a : α} (h : as <+: bs) (ha : as[i]? = some a) :
    bs[i]? = some a := by
  obtain ⟨cs, rfl⟩ := h
  exact (List.getElem?_append_left (List.getElem?_eq_some_iff.mp ha).1).trans ha

/-- What adds to the commands and to the requests keeps the answers. -/
theorem Answered.grow (h : s.Answered base createdAt) (hlogged : t.worker.Logged base)
    (hdone : t.worker.done = s.worker.done) (hadmitted : s.worker.admitted <+: t.worker.admitted)
    (hrequests : s.requests <+: t.requests) (hanswers : t.answers = s.answers)
    (hsent : ∀ player session tag messages, .history player session tag messages ∈ t.sent →
      .history player session tag messages ∈ s.sent ∨ s.OpenedBy player session tag messages) :
    t.Answered base createdAt where
  logged := hlogged
  done := by rw [hdone, hanswers, h.done]
  le := hanswers ▸ h.le.trans hrequests.length_le
  answers i request answer hrequest hanswer := by
    rw [hanswers] at hanswer
    have hlt : i < s.requests.length := (List.getElem?_eq_some_iff.mp hanswer).1.trans_le h.le
    have hold : s.requests[i]? = some request := by
      obtain ⟨cs, hcs⟩ := hrequests
      rw [← hcs, List.getElem?_append_left hlt] at hrequest
      exact hrequest
    obtain ⟨d, before, after, hbefore, hcount, hd, heq⟩ := h.answers i request answer hold hanswer
    obtain ⟨cmds, hcmds⟩ := hadmitted
    exact ⟨d, before, after ++ cmds, by rw [← hcmds, hbefore, List.append_assoc]; rfl, hcount, hd, heq⟩
  sent player session tag messages hmem := by
    obtain ⟨i, request, name, hplayer, hsession, hrequest, hanswer⟩ :=
      (hsent player session tag messages hmem).elim (h.sent player session tag messages) id
    exact ⟨i, request, name, hplayer, hsession, getElem?_of_prefix hrequests hrequest, hanswers ▸ hanswer⟩

theorem Answered.accept (h : s.Answered base createdAt) (cmd : Persistence.SaveCommand) :
    (s.accept cmd).Answered base createdAt :=
  h.grow (h.logged.accept cmd) rfl (List.prefix_append _ _) List.prefix_rfl rfl fun _ _ _ _ => .inl

theorem Answered.ask (h : s.Answered base createdAt) (request : ChatRequest) : (s.ask request).Answered base createdAt :=
  h.grow (h.logged.accept _) rfl (List.prefix_append _ _) (List.prefix_append _ _) rfl fun _ _ _ _ => .inl

/-- The store answers the next request when it has done its command. -/
theorem Answered.store {e : WorkerEvent} {worker : Worker} {answers : List ChatAnswer} (h : s.Answered base createdAt)
    (hcommands : s.worker.admitted.filter Worker.asks = s.requests.map ChatRequest.command)
    (hne : ∀ cmd, e ≠ .accept cmd) (hworker : s.worker.step raise e = some worker)
    (hanswers : answers = s.answers ++ ((s.requests.drop s.answers.length).take
      ((worker.completions.drop s.worker.completions.length).countP fun c => Worker.asks c.1)).map
        (answerRequest createdAt s.worker.db)) : Answered base createdAt { s with worker, answers } := by
  have hadmitted := Worker.admitted_step hne hworker
  have hlogged : worker.Logged base := h.logged.step hworker
  have hprefix : s.answers <+: answers := hanswers ▸ List.prefix_append _ _
  have hsent : ∀ player session tag messages, .history player session tag messages ∈ s.sent →
      OpenedBy { s with worker, answers } player session tag messages := fun player session tag messages hmem => by
    obtain ⟨i, request, name, hplayer, hsession, hrequest, hanswer⟩ := h.sent player session tag messages hmem
    exact ⟨i, request, name, hplayer, hsession, hrequest, getElem?_of_prefix hprefix hanswer⟩
  rcases Worker.asksStep hworker with ⟨hcount, hdone⟩ | ⟨cmd, rest, hbatch, hasks, hdone, hcount⟩
  · have hnone : answers = s.answers := by rw [hanswers, hcount, List.take_zero, List.map_nil, List.append_nil]
    subst hnone
    exact ⟨hlogged, by rw [hdone, h.done], h.le, fun i request answer hrequest hanswer =>
      hadmitted ▸ h.answers i request answer hrequest hanswer, hsent⟩
  · have hturn : s.worker.done.map Prod.fst ++ cmd :: (rest ++ s.worker.queue) = s.worker.admitted := by
      rw [← h.logged.turn, hbatch, List.append_assoc, List.cons_append]
    -- the command is that of the first request that has no answer
    obtain ⟨request, hrequest, hcommand⟩ : ∃ request, s.requests[s.answers.length]? = some request ∧
        request.command = cmd := by
      have hmap : (s.requests.map ChatRequest.command)[s.answers.length]? = some cmd := by
        rw [← hcommands, ← hturn, List.filter_append, List.filter_cons_of_pos hasks, ← h.done,
          List.getElem?_append_right le_rfl, Nat.sub_self, List.getElem?_cons_zero]
      rw [List.getElem?_map] at hmap
      exact Option.map_eq_some_iff.mp hmap
    have hnext : answers = s.answers ++ [answerRequest createdAt s.worker.db request] := by
      obtain ⟨hlt, hget⟩ := List.getElem?_eq_some_iff.mp hrequest
      rw [hanswers, hcount, List.drop_eq_getElem_cons hlt, List.take_succ_cons, List.take_zero, hget]
      rfl
    have hchat : cmd.kind ≠ .chatAppend := by cases cmd <;> cases hasks <;> nofun
    refine ⟨hlogged, ?_, ?_, fun i request' answer hrequest' hanswer => ?_, hsent⟩
    · rw [hdone, List.filter_append, List.filter_singleton, hasks, List.length_append, h.done, hnext,
        List.length_append]
      rfl
    · rw [hnext, List.length_append, List.length_singleton]
      exact (List.getElem?_eq_some_iff.mp hrequest).1
    · rw [hnext] at hanswer
      rcases Nat.lt_or_ge i s.answers.length with hlt | hge
      · rw [List.getElem?_append_left hlt] at hanswer
        exact hadmitted ▸ h.answers i request' answer hrequest' hanswer
      · rw [List.getElem?_append_right hge, List.getElem?_singleton] at hanswer
        split at hanswer
        · have hi : i = s.answers.length := by omega
          subst hi
          obtain rfl := Option.some.inj hanswer
          obtain rfl := Option.some.inj (hrequest.symm.trans hrequest')
          refine ⟨s.worker.db, s.worker.done.map Prod.fst, rest ++ s.worker.queue, ?_, ?_, ?_, rfl⟩
          · rw [hcommand, hturn]
            exact hadmitted
          · rw [List.countP_eq_length_filter, h.done]
          · exact h.logged.complete hbatch hchat
        · cases hanswer

theorem Answered.step {e : ChatEvent} (h : s.Answered base createdAt)
    (hcommands : s.worker.admitted.filter Worker.asks = s.requests.map ChatRequest.command)
    (hstep : s.step raise createdAt e = some t) : t.Answered base createdAt := by
  cases StepTo.of_step hstep with
  | idle => exact h
  | post hp queued =>
      exact h.grow (h.logged.accept _) rfl (List.prefix_append _ _) List.prefix_rfl rfl fun _ _ _ _ => .inl
  | ask request => exact h.ask request
  | save hcmd hasks => exact h.accept _
  | store hne hworker hanswers => exact h.store hcommands hne hworker hanswers
  | complete hrequest hanswer hhistory =>
      refine h.grow h.logged rfl List.prefix_rfl List.prefix_rfl rfl fun player session tag messages hmem => ?_
      refine (List.mem_append.mp hmem).imp_right fun hnew => ?_
      obtain ⟨tag', name, messages', rfl, hsent⟩ := hhistory _ hnew
      obtain ⟨rfl, rfl, rfl, rfl⟩ := ChatSent.history.inj hsent
      exact ⟨s.applied, _, name, rfl, rfl, hrequest, hanswer⟩
  | fanout hfanouts hchannels =>
      refine h.grow h.logged rfl List.prefix_rfl List.prefix_rfl rfl fun player session tag messages hmem => .inl ?_
      refine (List.mem_append.mp hmem).resolve_right fun hlive => ?_
      obtain ⟨p, -, hmap⟩ := List.mem_filterMap.mp hlive
      obtain ⟨session', -, hsent⟩ := Option.map_eq_some_iff.mp hmap
      cases hsent
  | world players active sessions => exact ⟨h.logged, h.done, h.le, h.answers, h.sent⟩

theorem asked_run {es : List ChatEvent} (h : run (step raise createdAt) (start createdAt db) es = some s) :
    Asked raise createdAt db es s := by
  refine run_history_preserves ⟨rfl, fun i request hi => ?_⟩ (fun _ _ _ _ hu hasked hstep => hasked.step hu hstep) h
  cases hi

theorem answered_run {es : List ChatEvent} (h : run (step raise createdAt) (start createdAt db) es = some s) :
    s.Answered db.chatMessages createdAt := by
  refine run_history_preserves (J := fun _ s => s.Answered db.chatMessages createdAt) ?_
    (fun _ _ _ _ hu hanswered hstep => hanswered.step (asked_run hu).commands hstep) h
  refine ⟨routed_start.logged, rfl, le_rfl, fun i request answer hi => ?_, fun _ _ _ _ hmem => ?_⟩
  · cases hi
  · cases hmem

/-- Every history that comes to a session answers a request that this session made. It is of a table that has just the
messages that were posted before the request was made, whatever was posted, stored or tried again since. -/
theorem histories_answer {es : List ChatEvent} (h : run (step raise createdAt) (start createdAt db) es = some s)
    {player : PlayerId} {session : SessionId} {tag : String} {messages : List ChatMessage}
    (hsent : .history player session tag messages ∈ s.sent) :
    ∃ before e after u request d name, es = before ++ e :: after ∧
      run (step raise createdAt) (start createdAt db) before = some u ∧
      u.step raise createdAt e = some (u.ask request) ∧ request.player = player ∧ request.session = session ∧
      d.chatMessages = db.chatMessages ++ u.posted.map (fun post => post.2.request post.1) ∧
      answerRequest createdAt d request = .opened tag name messages := by
  have hanswered := answered_run h
  obtain ⟨i, request, name, hplayer, hsession, hrequest, hanswer⟩ := hanswered.sent player session tag messages hsent
  obtain ⟨d, cmds, cmds', hadmitted, hcount, hd, heq⟩ := hanswered.answers i request _ hrequest hanswer
  obtain ⟨u, ⟨before, e, after, hes, hu, hstep, hi⟩, rest, hrest⟩ := (asked_run h).made i request hrequest
  have hplace : u.worker.admitted ++ request.command :: rest = cmds ++ request.command :: cmds' := by
    rw [← hadmitted, ← hrest, List.append_assoc]
    rfl
  have hbefore : u.worker.admitted = cmds := by
    refine prefix_eq_of_countP (asks_command request) (asks_command request) hplace ?_
    rw [hcount, List.countP_eq_length_filter, (asked_run hu).commands, List.length_map, hi]
  refine ⟨before, e, after, u, request, d, name, hes, hu, hstep, hplayer, hsession, ?_, heq.symm⟩
  rw [hd, ← hbefore, (routed_run hu).table]

/-- Somebody opens the chat of the clan before a second message is posted, and gets the first. -/
def sampleReading : List ChatEvent :=
  sampleTalk ++ [.chatChoose 2 2 [67, 76, 65, 78, 95, 51], .channelChat 1 [104, 101] 0 true true true,
    .store (.receive 1), .store (.attempt (fun _ => false) ⟨0, 0⟩), .store (.attempt (fun _ => false) ⟨0, 0⟩), .complete]

theorem histories_answer_clan : ∃ s, run (step id id) (start id emptyDatabase) sampleReading = some s ∧
    ∃ messages, .history 2 2 "CLAN_3" messages ∈ s.sent ∧
      ∃ (u : Chats) (before after : List ChatEvent) (e : ChatEvent) (request : ChatRequest) (d : Database)
        (name : String), sampleReading = before ++ e :: after ∧
        u.step id id e = some (u.ask request) ∧ d.chatMessages = u.posted.map (fun post => post.2.request post.1) ∧
        answerRequest id d request = .opened "CLAN_3" name messages := by
  obtain ⟨s, hrun, messages, hsent⟩ : ∃ s, run (step id id) (start id emptyDatabase) sampleReading = some s ∧
      ∃ messages, .history 2 2 "CLAN_3" messages ∈ s.sent := ⟨_, rfl, _, .tail _ (.tail _ (.head _))⟩
  obtain ⟨before, e, after, u, request, d, name, hes, -, hstep, -, -, hd, hanswer⟩ := histories_answer hrun hsent
  exact ⟨s, hrun, messages, hsent, u, before, after, e, request, d, name, hes, hstep, hd, hanswer⟩

end Chats

end OpenMines
