import OpenMines.ChatConfinement

namespace OpenMines

open Lib.Run Persistence ChatPackets

namespace Chats

variable {s t : Chats} {raise createdAt : Int → Int} {db : Database}

/-- The event of the presentation for a message that was posted. -/
def fanout (post : Int × PreparedChannelChat) : ChannelChatRoute × ChatMessage :=
  (post.2.route, post.2.message post.1)

/-- What has become of the messages that were posted: each was delivered in a state, waits, or was lost. -/
structure Ledger (s : Chats) (deliveries : List (Chats × (Int × PreparedChannelChat)))
    (waiting lost : List (Int × PreparedChannelChat)) : Prop where
  ordered : (deliveries.map Prod.snd ++ waiting).Sublist s.posted
  all : (deliveries.map Prod.snd ++ waiting ++ lost).Perm s.posted
  fanouts : s.fanouts = waiting.map fanout
  dropped : s.dropped = lost.map fanout
  sent : s.sent.filter ChatSent.isLive = deliveries.flatMap fun d => d.1.live d.2.2.route (d.2.2.message d.2.1)

variable {deliveries : List (Chats × (Int × PreparedChannelChat))} {waiting lost : List (Int × PreparedChannelChat)}

theorem isLive_live (s : Chats) (route : ChannelChatRoute) (message : ChatMessage) :
    (s.live route message).filter ChatSent.isLive = s.live route message := by
  refine List.filter_eq_self.mpr fun sent hsent => ?_
  obtain ⟨player, -, hmap⟩ := List.mem_filterMap.mp hsent
  obtain ⟨session, -, rfl⟩ := Option.map_eq_some_iff.mp hmap
  rfl

theorem Ledger.quiet (h : s.Ledger deliveries waiting lost) {history : List ChatSent}
    (htraffic : t.traffic = s.traffic) (hsent : t.sent = s.sent ++ history)
    (hhistory : ∀ sent ∈ history, sent.isLive = false) : t.Ledger deliveries waiting lost := by
  obtain ⟨-, hposted, hfanouts, hdropped⟩ := traffic_eq_iff.mp htraffic
  refine ⟨hposted ▸ h.ordered, hposted ▸ h.all, hfanouts.trans h.fanouts, hdropped.trans h.dropped, ?_⟩
  have hnone : history.filter ChatSent.isLive = [] :=
    List.filter_eq_nil_iff.mpr fun sent hmem => by rw [hhistory sent hmem]; exact Bool.false_ne_true
  rw [hsent, List.filter_append, hnone, List.append_nil, h.sent]

/-- A message that is posted waits, or is lost when the queue is full. -/
theorem Ledger.post (h : s.Ledger deliveries waiting lost) (p : PreparedChannelChat) (queued : Bool) :
    ∃ waiting lost, (s.post p queued).Ledger deliveries waiting lost := by
  let post : Int × PreparedChannelChat := (s.chatIdSeq + 1, p)
  cases queued with
  | false =>
      refine ⟨waiting, lost ++ [post], ?_, ?_, h.fanouts, ?_, h.sent⟩
      · exact h.ordered.trans (List.sublist_append_left _ _)
      · rw [← List.append_assoc]
        exact h.all.append_right _
      · rw [List.map_append, ← h.dropped]
        rfl
  | true =>
      refine ⟨waiting ++ [post], lost, ?_, ?_, ?_, h.dropped, h.sent⟩
      · rw [← List.append_assoc]
        exact h.ordered.append (List.Sublist.refl [post])
      · refine List.Perm.trans ?_ (h.all.append_right [post])
        simp only [List.append_assoc]
        exact ((List.perm_append_comm).append_left _).append_left _
      · rw [List.map_append, ← h.fanouts]
        rfl

/-- The message that waits longest is delivered. -/
theorem Ledger.deliver (h : s.Ledger deliveries waiting lost) {route : ChannelChatRoute} {message : ChatMessage}
    {fanouts : List (ChannelChatRoute × ChatMessage)} (hfanouts : s.fanouts = (route, message) :: fanouts)
    (htraffic : t.traffic = (s.chatIdSeq, s.posted, fanouts, s.dropped))
    (hsent : t.sent = s.sent ++ s.live route message) :
    ∃ post waiting, t.Ledger (deliveries ++ [(s, post)]) waiting lost := by
  obtain ⟨-, hposted, htfanouts, hdropped⟩ := traffic_eq_iff.mp htraffic
  obtain ⟨post, waiting, rfl, hpost, hwaiting⟩ := List.map_eq_cons_iff.mp (h.fanouts.symm.trans hfanouts)
  obtain ⟨rfl, rfl⟩ := Prod.mk.inj hpost
  have hmoved : (deliveries ++ [(s, post)]).map Prod.snd ++ waiting = deliveries.map Prod.snd ++ post :: waiting := by
    rw [List.map_append, List.append_assoc]
    rfl
  refine ⟨post, waiting, ?_, ?_, htfanouts.trans hwaiting.symm, hdropped.trans h.dropped, ?_⟩
  · rw [hmoved, hposted]
    exact h.ordered
  · rw [hmoved, hposted]
    exact h.all
  · rw [hsent, List.filter_append, isLive_live, h.sent, List.flatMap_append, List.flatMap_singleton]

/-- The numbers of the messages go on from the largest of the table. -/
structure Numbered (db : Database) (s : Chats) : Prop where
  last : s.chatIdSeq = maxChatId db + s.posted.length
  numbers : s.posted.map Prod.fst = (List.range s.posted.length).map fun i => maxChatId db + (i + 1 : Nat)

theorem Numbered.step {e : ChatEvent} (h : s.Numbered db) (hstep : s.step raise createdAt e = some t) :
    t.Numbered db := by
  have hsame : t.chatIdSeq = s.chatIdSeq → t.posted = s.posted → t.Numbered db := fun hid hposted =>
    ⟨by rw [hid, hposted, h.last], by rw [hposted, h.numbers]⟩
  rcases step_log hstep with ⟨history, htraffic, -, -⟩ | ⟨player, text, now, p, queued, hp, rfl⟩ |
    ⟨route, message, fanouts, -, htraffic, -⟩
  · obtain ⟨hid, hposted, -, -⟩ := traffic_eq_iff.mp htraffic
    exact hsame hid hposted
  · have hposted : (s.post p queued).posted = s.posted ++ [(s.chatIdSeq + 1, p)] := rfl
    have hid : (s.post p queued).chatIdSeq = s.chatIdSeq + 1 := rfl
    refine ⟨?_, ?_⟩
    · rw [hid, hposted, h.last, List.length_append, List.length_singleton]
      omega
    · rw [hposted, List.map_append, h.numbers, List.length_append, List.length_singleton, List.range_succ,
        List.map_append, List.map_singleton, List.map_singleton, h.last]
      simp only [Nat.cast_add, Nat.cast_one, add_assoc]
  · obtain ⟨hid, hposted, -, -⟩ := traffic_eq_iff.mp htraffic
    exact hsame hid hposted

theorem Numbered.nodup (h : s.Numbered db) : s.posted.Nodup := by
  refine List.Nodup.of_map Prod.fst ?_
  rw [h.numbers]
  refine List.nodup_range.map fun i j hij => ?_
  omega

/-- A step keeps the ledger, but for a message that it delivers. -/
theorem Ledger.step {e : ChatEvent} (h : s.Ledger deliveries waiting lost)
    (hstep : s.step raise createdAt e = some t) : ∃ new waiting lost, t.Ledger (deliveries ++ new) waiting lost ∧
      ∀ d ∈ new, d.1 = s := by
  rcases step_log hstep with ⟨history, htraffic, hsent, hhistory⟩ | ⟨player, text, now, p, queued, -, rfl⟩ |
    ⟨route, message, fanouts, hfanouts, htraffic, hsent⟩
  · refine ⟨[], waiting, lost, ?_, List.forall_mem_nil _⟩
    rw [List.append_nil]
    exact h.quiet htraffic hsent hhistory
  · obtain ⟨waiting, lost, hpost⟩ := h.post p queued
    refine ⟨[], waiting, lost, ?_, List.forall_mem_nil _⟩
    rw [List.append_nil]
    exact hpost
  · obtain ⟨post, waiting, hdeliver⟩ := h.deliver hfanouts htraffic hsent
    exact ⟨[(s, post)], waiting, lost, hdeliver, List.forall_mem_singleton.mpr rfl⟩

theorem ledger_run {es : List ChatEvent} (h : run (step raise createdAt) (start createdAt db) es = some s) :
    ∃ deliveries waiting lost, s.Ledger deliveries waiting lost ∧ ∀ d ∈ deliveries, ∃ before after,
      es = before ++ after ∧ run (step raise createdAt) (start createdAt db) before = some d.1 := by
  refine run_history_preserves (J := fun es s => ∃ deliveries waiting lost, s.Ledger deliveries waiting lost ∧
    ∀ d ∈ deliveries, ∃ before after, es = before ++ after ∧
      run (step raise createdAt) (start createdAt db) before = some d.1) ?_ ?_ h
  · exact ⟨[], [], [], ⟨List.Sublist.refl _, .nil, rfl, rfl, rfl⟩, List.forall_mem_nil _⟩
  · rintro fs u e v hu ⟨deliveries, waiting, lost, hledger, hstates⟩ hstep
    obtain ⟨new, waiting, lost, hnext, hnew⟩ := hledger.step hstep
    refine ⟨deliveries ++ new, waiting, lost, hnext, List.forall_mem_append.mpr ⟨fun d hd => ?_, fun d hd => ?_⟩⟩
    · exact visited_concat e (hstates d hd)
    · exact ⟨fs, [e], rfl, (hnew d hd).symm ▸ hu⟩

end Chats

end OpenMines
