import OpenMines.Chats
import OpenMines.Lib.RunHistory

namespace OpenMines

open Lib.Text Lib.Run Persistence ChatPackets

theorem toList_clanTag (clanId : Int32) : (clanTag clanId).toList = "CLAN_".toList ++ decimal clanId.toInt :=
  String.toList_ofList

theorem clanTag_injective {a b : Int32} (h : clanTag a = clanTag b) : a = b := by
  have hchars := congrArg String.toList h
  simp only [toList_clanTag] at hchars
  have hdecimal := parseI32_decimal a
  rw [List.append_cancel_left hchars, parseI32_decimal] at hdecimal
  exact (Option.some.inj hdecimal).symm

theorem parsePrivateTag_clanTag (clanId : Int32) : parsePrivateTag (clanTag clanId) = none := by
  have hstrip : stripPrefix (clanTag clanId) "_" = none := by
    simp only [stripPrefix, toList_clanTag]
    rfl
  simp only [parsePrivateTag, hstrip, Option.bind_none]

def defaultTags : List String := ["FED", "DNO", "LOC"]

theorem clanTag_notMem (clanId : Int32) : clanTag clanId ∉ defaultTags := by
  intro h
  have hfirst : ∀ tag ∈ defaultTags, tag.toList.head? ≠ some 'C' := by decide
  refine hfirst _ h ?_
  simp only [toList_clanTag]
  rfl

theorem parsePrivateTag_default : ∀ tag ∈ defaultTags, parsePrivateTag tag = none := by decide

/-- The users of a route are those of its tag, and a global one is that of a channel. -/
def ChannelChatRoute.Sound : ChannelChatRoute → Prop
  | .global tag => tag ∈ defaultTags
  | .clan _ => True
  | .pair tag users => parsePrivateTag tag = some users

namespace Chats

variable {s t u : Chats} {raise createdAt : Int → Int} {player : PlayerId} {tag : String} {db : Database}

/-- A private channel is for its two players, and that of a clan for its members. -/
structure Admits (s : Chats) (player : PlayerId) (tag : String) : Prop where
  pair : ∀ users, parsePrivateTag tag = some users → player = users.1 ∨ player = users.2
  clan : ∀ clanId, tag = clanTag clanId → ∃ p, s.players player = some p ∧ p.clanId = some clanId

theorem admits_default (h : tag ∈ defaultTags) : s.Admits player tag where
  pair users husers := by
    rw [parsePrivateTag_default tag h] at husers
    cases husers
  clan clanId htag := absurd (htag ▸ h) (clanTag_notMem clanId)

theorem admits_clan {clanId : Int32} {p : ChatPlayer} (hp : s.players player = some p)
    (hclan : p.clanId = some clanId) : s.Admits player (clanTag clanId) where
  pair users husers := by
    rw [parsePrivateTag_clanTag] at husers
    cases husers
  clan clanId' htag := clanTag_injective htag ▸ ⟨p, hp, hclan⟩

theorem admits_pair {users : Int32 × Int32} (h : parsePrivateTag tag = some users)
    (hplayer : player = users.1 ∨ player = users.2) : s.Admits player tag where
  pair users' husers := Option.some.inj (h.symm.trans husers) ▸ hplayer
  clan clanId htag := by
    rw [htag, parsePrivateTag_clanTag] at h
    cases h

/-- Whoever a message is sent to may read it. -/
theorem admits_recipient {route : ChannelChatRoute} (hroute : route.Sound) (h : player ∈ s.recipients route) :
    s.Admits player route.dbTag := by
  cases route with
  | global tag => exact admits_default hroute
  | clan clanId =>
      obtain ⟨-, hmember⟩ := List.mem_filter.mp h
      cases hp : s.players player with
      | none =>
          rw [hp] at hmember
          cases hmember
      | some p =>
          rw [hp] at hmember
          exact admits_clan hp (of_decide_eq_true hmember)
  | pair tag users =>
      refine admits_pair hroute ?_
      simpa [recipients] using h

/-- A message that is prepared goes where its author may write. -/
theorem prepareChannelChat_spec {text : String} {now : Int} {p : PreparedChannelChat}
    (htags : s.channels.map ChatChannel.tag = defaultTags) (h : s.prepareChannelChat player text now = some p) :
    p.userId = player ∧ p.route.Sound ∧ p.route.dbTag = p.dbTag ∧ s.Admits player p.dbTag := by
  rw [prepareChannelChat] at h
  split at h
  · cases h
  obtain ⟨m, hm, h⟩ := Option.bind_eq_some_iff.mp h
  dsimp only at h
  have hdefault : (s.channels.any fun c => decide (c.tag = m.currentChat)) = true ↔ m.currentChat ∈ defaultTags := by
    rw [← htags, List.any_eq_true, List.mem_map]
    exact exists_congr fun c => and_congr_right fun _ => decide_eq_true_iff
  split at h
  · rename_i hallowed
    obtain ⟨route, hroute, rfl⟩ := Option.map_eq_some_iff.mp h
    refine ⟨rfl, ?_⟩
    dsimp only
    split at hroute
    · rename_i hglobal
      obtain rfl := Option.some.inj hroute
      have hmem := hdefault.mp hglobal
      have hclan : m.currentChat ≠ "CLAN" := fun heq => absurd (heq ▸ hmem) (by decide)
      rw [if_neg (by simpa using hclan)]
      exact ⟨hmem, rfl, admits_default hmem⟩
    · rename_i hglobal
      split at hroute
      · rename_i hclan
        obtain rfl := Option.some.inj hroute
        have hprivate : parsePrivateTag m.currentChat = none := by
          rw [hclan]
          decide
        rw [if_pos hclan]
        refine ⟨trivial, rfl, ?_⟩
        cases hclanId : m.clanId with
        | none => simp [hglobal, hprivate, hclanId] at hallowed
        | some clanId => exact admits_clan hm hclanId
      · rename_i hclan
        obtain ⟨users, husers, rfl⟩ := Option.map_eq_some_iff.mp hroute
        rw [if_neg hclan]
        refine ⟨husers, rfl, admits_pair husers ?_⟩
        simpa [hglobal, hclan, husers] using hallowed
  · cases h

/-- A command for a channel posts a message that is prepared, or does nothing. -/
theorem applyChannelChat_cases {payload : List UInt8} {now : Int} {allowed permit queued : Bool}
    (h : s.applyChannelChat player payload now allowed permit queued = some t) :
    t = s ∨ ∃ text p, s.prepareChannelChat player text now = some p ∧ t = s.post p queued := by
  rw [applyChannelChat] at h
  split at h
  · exact .inl (Option.some.inj h).symm
  · split at h
    · exact .inl (Option.some.inj h).symm
    · rename_i p hp
      split at h
      · exact .inr ⟨_, p, hp, (Option.some.inj h).symm⟩
      · cases h

theorem tags_remember (tag : String) (message : ChatMessage) (channels : List ChatChannel) :
    (remember tag message channels).map ChatChannel.tag = channels.map ChatChannel.tag := by
  induction channels with
  | nil => rfl
  | cons c cs ih =>
      rw [remember]
      split
      · rfl
      · rw [List.map_cons, ih, List.map_cons]

/-- A completion puts the answer to a request before the session that made it, or nothing. -/
theorem applyAnswer_eq (s : Chats) (request : ChatRequest) (answer : ChatAnswer) :
    ∃ players history, s.applyAnswer request answer = { s with players, sent := s.sent ++ history } ∧
      ∀ sent ∈ history, ∃ tag name messages, answer = .opened tag name messages ∧
        sent = .history request.player request.session tag messages := by
  have hnone : ∃ players history, s = { s with players, sent := s.sent ++ history } ∧
      ∀ sent ∈ history, ∃ tag name messages, answer = .opened tag name messages ∧
        sent = .history request.player request.session tag messages :=
    ⟨s.players, [], by rw [List.append_nil], List.forall_mem_nil _⟩
  cases answer with
  | targetNotFound => exact hnone
  | opened tag name messages =>
      rw [applyAnswer]
      split
      · exact ⟨_, _, rfl, List.forall_mem_singleton.mpr ⟨tag, name, messages, rfl, rfl⟩⟩
      · exact hnone

/-- What a step does. -/
inductive StepTo (raise createdAt : Int → Int) (s : Chats) : Chats → Prop
  | idle : StepTo raise createdAt s s
  | post {player : PlayerId} {text : String} {now : Int} {p : PreparedChannelChat}
      (hp : s.prepareChannelChat player text now = some p) (queued : Bool) : StepTo raise createdAt s (s.post p queued)
  | ask (request : ChatRequest) : StepTo raise createdAt s (s.ask request)
  | save {cmd : Persistence.SaveCommand} (hcmd : cmd.chatMessage = none) (hasks : Worker.asks cmd = false) :
      StepTo raise createdAt s (s.accept cmd)
  | store {e : WorkerEvent} {worker : Worker} {answers : List ChatAnswer} (hne : ∀ cmd, e ≠ .accept cmd)
      (hworker : s.worker.step raise e = some worker)
      (hanswers : answers = s.answers ++ ((s.requests.drop s.answers.length).take
        ((worker.completions.drop s.worker.completions.length).countP fun c => Worker.asks c.1)).map
          (answerRequest createdAt s.worker.db)) : StepTo raise createdAt s { s with worker, answers }
  | complete {request : ChatRequest} {answer : ChatAnswer} {players : PlayerId → Option ChatPlayer}
      {history : List ChatSent} (hrequest : s.requests[s.applied]? = some request)
      (hanswer : s.answers[s.applied]? = some answer)
      (hhistory : ∀ sent ∈ history, ∃ tag name messages, answer = .opened tag name messages ∧
        sent = .history request.player request.session tag messages) :
      StepTo raise createdAt s { s with applied := s.applied + 1, players, sent := s.sent ++ history }
  | fanout {route : ChannelChatRoute} {message : ChatMessage} {fanouts : List (ChannelChatRoute × ChatMessage)}
      {channels : List ChatChannel} (hfanouts : s.fanouts = (route, message) :: fanouts)
      (hchannels : channels.map ChatChannel.tag = s.channels.map ChatChannel.tag) :
      StepTo raise createdAt s { s with fanouts, channels, sent := s.sent ++ s.live route message }
  | world (players : PlayerId → Option ChatPlayer) (active : List PlayerId) (sessions : PlayerId → Option SessionId) :
      StepTo raise createdAt s { s with players, active, sessions }

theorem StepTo.of_store {e : WorkerEvent} (h : s.stepStore raise createdAt e = some t) :
    s.StepTo raise createdAt t := by
  rw [stepStore.eq_def] at h
  split at h
  · cases h
  · rename_i hne
    obtain ⟨worker, hworker, rfl⟩ := Option.map_eq_some_iff.mp h
    exact .store (fun cmd => hne cmd) hworker rfl

theorem StepTo.of_complete (h : s.complete = some t) : s.StepTo raise createdAt t := by
  rw [Chats.complete] at h
  split at h
  · rename_i request answer hrequest hanswer
    obtain rfl := Option.some.inj h
    obtain ⟨players, history, heq, hhistory⟩ := applyAnswer_eq { s with applied := s.applied + 1 } request answer
    rw [heq]
    exact .complete hrequest hanswer hhistory
  · cases h

theorem StepTo.of_fanout (h : s.deliverChatFanout = some t) : s.StepTo raise createdAt t := by
  rw [deliverChatFanout] at h
  split at h
  · cases h
  · rename_i route message fanouts hfanouts
    obtain rfl := Option.some.inj h
    refine .fanout hfanouts ?_
    split
    · exact tags_remember _ _ _
    · rfl

theorem StepTo.of_step {e : ChatEvent} (h : s.step raise createdAt e = some t) : s.StepTo raise createdAt t := by
  cases e with
  | channelChat player payload now allowed permit queued =>
      have hpost : s.applyChannelChat player payload now allowed permit queued = some t := h
      rcases applyChannelChat_cases hpost with rfl | ⟨text, p, hp, rfl⟩
      · exact .idle
      · exact .post hp queued
  | chatResync player session payload | chatChoose player session payload =>
      obtain rfl := Option.some.inj h
      exact .ask _
  | chatPrivate player session payload =>
      obtain rfl := Option.some.inj h
      rw [chatPrivate]
      split
      · exact .ask _
      · exact .idle
  | save cmd =>
      rw [Chats.step] at h
      split at h
      · rename_i hforeign
        obtain rfl := Option.some.inj h
        obtain ⟨hchat, hasks⟩ := Bool.and_eq_true_iff.mp hforeign
        exact .save (Option.isNone_iff_eq_none.mp hchat) (by simpa using hasks)
      · cases h
  | store e => exact .of_store h
  | complete => exact .of_complete h
  | fanout => exact .of_fanout h
  | presence active sessions =>
      obtain rfl := Option.some.inj h
      exact .world s.players active sessions
  | players players =>
      obtain rfl := Option.some.inj h
      exact .world players s.active s.sessions

/-- What is known of the messages that were posted. -/
structure Routed (base : List ChatAppendRequest) (s : Chats) : Prop where
  tags : s.channels.map ChatChannel.tag = defaultTags
  posted : ∀ post ∈ s.posted, post.2.route.Sound ∧ post.2.route.dbTag = post.2.dbTag
  fanouts : ∀ entry ∈ s.fanouts, ∃ post ∈ s.posted, entry = (post.2.route, post.2.message post.1)
  table : posts s.worker.admitted = s.posted.map fun post => post.2.request post.1
  logged : s.worker.Logged base

variable {base : List ChatAppendRequest}

theorem routed_start : (start createdAt db).Routed db.chatMessages where
  tags := rfl
  posted := List.forall_mem_nil _
  fanouts := List.forall_mem_nil _
  table := rfl
  logged := ⟨rfl, [], by simp [start, posts], List.nil_prefix, fun hne => absurd rfl hne⟩

theorem Routed.accept (h : s.Routed base) {cmd : Persistence.SaveCommand} (hcmd : cmd.chatMessage = none) :
    (s.accept cmd).Routed base := by
  refine ⟨h.tags, h.posted, h.fanouts, ?_, h.logged.accept cmd⟩
  refine (posts_append _ _).trans ?_
  have hnone : posts [cmd] = [] := List.filterMap_cons_none hcmd
  rw [hnone, List.append_nil]
  exact h.table

theorem Routed.ask (h : s.Routed base) (request : ChatRequest) : (s.ask request).Routed base := by
  have haccept : (s.accept request.command).Routed base := h.accept (by cases request <;> rfl)
  exact ⟨haccept.tags, haccept.posted, haccept.fanouts, haccept.table, haccept.logged⟩

theorem Routed.post (h : s.Routed base) {p : PreparedChannelChat} (hsound : p.route.Sound)
    (htag : p.route.dbTag = p.dbTag) (queued : Bool) : (s.post p queued).Routed base where
  tags := h.tags
  posted := List.forall_mem_append.mpr ⟨h.posted, List.forall_mem_singleton.mpr ⟨hsound, htag⟩⟩
  fanouts := by
    have hold : ∀ entry ∈ s.fanouts, ∃ post ∈ (s.post p queued).posted, entry = (post.2.route, post.2.message post.1) :=
      fun entry hentry => by
        obtain ⟨post, hpost, heq⟩ := h.fanouts entry hentry
        exact ⟨post, List.mem_append_left _ hpost, heq⟩
    cases queued with
    | false => exact hold
    | true =>
        refine List.forall_mem_append.mpr ⟨hold, List.forall_mem_singleton.mpr ?_⟩
        exact ⟨(s.chatIdSeq + 1, p), List.mem_append_right _ List.mem_cons_self, rfl⟩
  table := by
    refine (posts_append _ _).trans ?_
    change _ = List.map _ (s.posted ++ [(s.chatIdSeq + 1, p)])
    rw [h.table, List.map_append]
    rfl
  logged := h.logged.accept _

theorem Routed.step {e : ChatEvent} (h : s.Routed base) (hstep : s.step raise createdAt e = some t) :
    t.Routed base := by
  cases StepTo.of_step hstep with
  | idle => exact h
  | post hp queued =>
      obtain ⟨-, hsound, htag, -⟩ := prepareChannelChat_spec h.tags hp
      exact h.post hsound htag queued
  | ask request => exact h.ask request
  | save hcmd hasks => exact h.accept hcmd
  | store hne hworker hanswers =>
      exact ⟨h.tags, h.posted, h.fanouts, (Worker.admitted_step hne hworker).symm ▸ h.table, h.logged.step hworker⟩
  | complete hrequest hanswer hhistory => exact ⟨h.tags, h.posted, h.fanouts, h.table, h.logged⟩
  | fanout hfanouts hchannels =>
      refine ⟨hchannels.trans h.tags, h.posted, fun entry hentry => h.fanouts entry ?_, h.table, h.logged⟩
      rw [hfanouts]
      exact List.mem_cons_of_mem _ hentry
  | world players active sessions => exact ⟨h.tags, h.posted, h.fanouts, h.table, h.logged⟩

theorem traffic_eq_iff {id : Int} {posted : List (Int × PreparedChannelChat)}
    {fanouts dropped : List (ChannelChatRoute × ChatMessage)} : t.traffic = (id, posted, fanouts, dropped) ↔
      t.chatIdSeq = id ∧ t.posted = posted ∧ t.fanouts = fanouts ∧ t.dropped = dropped := by
  simp only [traffic, Prod.mk.injEq]

/-- What a step posts and sends. -/
theorem step_log {e : ChatEvent} (hstep : s.step raise createdAt e = some t) :
    (∃ history, t.traffic = s.traffic ∧ t.sent = s.sent ++ history ∧ ∀ sent ∈ history, sent.isLive = false) ∨
      (∃ player text now p queued, s.prepareChannelChat player text now = some p ∧ t = s.post p queued) ∨
      ∃ route message fanouts, s.fanouts = (route, message) :: fanouts ∧
        t.traffic = (s.chatIdSeq, s.posted, fanouts, s.dropped) ∧ t.sent = s.sent ++ s.live route message := by
  cases StepTo.of_step hstep with
  | idle | ask request | save hcmd hasks | store hne hworker hanswers | world players active sessions =>
      exact .inl ⟨[], rfl, (List.append_nil _).symm, List.forall_mem_nil _⟩
  | post hp queued => exact .inr (.inl ⟨_, _, _, _, queued, hp, rfl⟩)
  | complete hrequest hanswer hhistory =>
      refine .inl ⟨_, rfl, rfl, fun sent hsent => ?_⟩
      obtain ⟨tag, name, messages, -, rfl⟩ := hhistory sent hsent
      rfl
  | fanout hfanouts hchannels => exact .inr (.inr ⟨_, _, _, hfanouts, rfl, rfl⟩)

theorem Routed.posts_admitted {e : ChatEvent} (h : s.Routed base) (hstep : s.step raise createdAt e = some t) :
    ∀ post ∈ t.posted, post ∈ s.posted ∨ s.Admits post.2.userId post.2.dbTag := by
  intro post hpost
  rcases step_log hstep with ⟨history, heq, -⟩ | ⟨player, text, now, p, queued, hp, rfl⟩ |
    ⟨route, message, fanouts, -, heq, -⟩
  · exact .inl ((traffic_eq_iff.mp heq).2.1 ▸ hpost)
  · rcases List.mem_append.mp hpost with hold | hnew
    · exact .inl hold
    · obtain rfl := List.mem_singleton.mp hnew
      obtain ⟨huser, -, -, hadmits⟩ := prepareChannelChat_spec h.tags hp
      exact .inr (huser ▸ hadmits)
  · exact .inl ((traffic_eq_iff.mp heq).2.1 ▸ hpost)

/-- A message that was posted comes live to a session of somebody who may read it now. -/
def Delivers (s : Chats) (sent : ChatSent) : Prop :=
  ∀ player session route message, sent = .live player session route message →
    s.sessions player = some session ∧ s.Admits player route.dbTag ∧
      ∃ post ∈ s.posted, post.2.dbTag = route.dbTag ∧ post.2.message post.1 = message

theorem Routed.sends_delivered {e : ChatEvent} (h : s.Routed base) (hstep : s.step raise createdAt e = some t) :
    ∀ sent ∈ t.sent, sent ∈ s.sent ∨ s.Delivers sent := by
  intro sent hsent
  rcases step_log hstep with ⟨history, -, heq, hhistory⟩ | ⟨player, text, now, p, queued, hp, rfl⟩ |
    ⟨route, message, fanouts, hfanouts, -, heq⟩
  · rw [heq] at hsent
    refine (List.mem_append.mp hsent).imp_right fun hnew player session route message hlive => ?_
    have hfalse := hhistory sent hnew
    rw [hlive] at hfalse
    cases hfalse
  · exact .inl hsent
  · rw [heq] at hsent
    rcases List.mem_append.mp hsent with hold | hnew
    · exact .inl hold
    · obtain ⟨player, hplayer, hmap⟩ := List.mem_filterMap.mp hnew
      obtain ⟨session, hsession, rfl⟩ := Option.map_eq_some_iff.mp hmap
      obtain ⟨post, hpost, hentry⟩ := h.fanouts (route, message) (hfanouts ▸ List.mem_cons_self)
      obtain ⟨rfl, rfl⟩ := Prod.mk.inj hentry
      obtain ⟨hsound, htag⟩ := h.posted post hpost
      refine .inr fun player' session' route' message' hlive => ?_
      obtain ⟨rfl, rfl, rfl, rfl⟩ := ChatSent.live.inj hlive
      exact ⟨hsession, admits_recipient hsound hplayer, post, hpost, htag.symm, rfl⟩

theorem routed_run {es : List ChatEvent} (h : run (step raise createdAt) (start createdAt db) es = some s) :
    s.Routed db.chatMessages :=
  run_preserves routed_start (fun _ _ _ _ hu hstep => hu.step hstep) h

/-- Two members of a clan, and somebody who is in the chat of a clan without being in one. -/
def sampleChatters (player : PlayerId) : Option ChatPlayer :=
  match player with
  | 1 => some ⟨"bob", some 3, "CLAN", 0⟩
  | 2 => some ⟨"ann", some 3, "FED", 0⟩
  | 4 => some ⟨"eve", none, "CLAN", 0⟩
  | _ => none

def sampleTalk : List ChatEvent :=
  [.players sampleChatters, .presence [1, 2, 4] fun p => some p.toNatClampNeg,
    .channelChat 4 [104, 111] 0 true true true, .channelChat 1 [104, 105] 0 true true true,
    .store (.receive 0), .store (.attempt (fun _ => false) ⟨0, 0⟩), .fanout]

end Chats

end OpenMines
