import OpenMines.PlayerOwnership
import OpenMines.SessionTeardown

namespace OpenMines

open Lib.Run

/-- The handler waits in `init_player` for a place in the lifecycle queue. -/
def Phase.waiting : Phase → Bool
  | .init _ _ => true
  | _ => false

theorem Conn.waiting_of_running {c : Conn} (h : c.phase.running = true) : c.phase.waiting = false := by
  cases hphase : c.phase <;> simp_all [Phase.running, Phase.waiting]

theorem Conn.Continues.waiting {c c' : Conn} (h : c.Continues c') : c'.phase.waiting = false := by
  rcases h.phase with hrun | ⟨hphase, -⟩ | ⟨hphase, -⟩ | hphase
  · exact c'.waiting_of_running hrun
  all_goals simp [hphase, Phase.waiting]

namespace Server

variable {P : Type} {cfg : AuthConfig} {ops : PlayerOps P} {srv srv' : Server P}

/-- The session of a player is about to be the active one, or to be closed, or is the active one. -/
def Settling (srv : Server P) (player : PlayerId) (session : SessionId) : Prop :=
  (∃ c, srv.conns session = some c ∧ (c.phase.waiting = true ∨ c.phase = .closing)) ∨
    (∃ row, ⟨player, session, .connect row⟩ ∈ srv.lifecycle) ∨
    srv.game.activeSession player = some session

/-- How the lifecycle queue, the handlers and the active sessions belong together. -/
structure Queued (srv : Server P) : Prop where
  sender : ∀ q ∈ srv.lifecycle, ∃ c, srv.conns q.sessionId = some c ∧ c.bound = some q.playerId ∧
    c.phase.waiting = false ∧ (∀ row, q.command = .connect row → row.id = q.playerId) ∧
    (q.command = .disconnect → c.phase.left = true)
  settling : ∀ p s, srv.hub.players p = some s → srv.Settling p s
  active : ∀ p s, srv.game.activeSession p = some s → ∃ c, srv.conns s = some c ∧ c.bound = some p ∧
    c.phase.waiting = false ∧ (c.phase.left = true → ⟨p, s, .disconnect⟩ ∈ srv.lifecycle)
  order : ∀ before after p s row c, srv.lifecycle = before ++ ⟨p, s, .connect row⟩ :: after →
    srv.conns s = some c → c.phase.left = true → ⟨p, s, .disconnect⟩ ∈ after

/-- How the handler of a bound session moves on, and the commands that it sends. -/
structure Sends (session : SessionId) (c c' : Conn) (sent : List QueuedLifecycle) : Prop where
  bound : ∀ p, c.bound = some p → c'.bound = some p ∧ c'.phase.waiting = false ∧
    (c.phase.left = true → c'.phase.left = true) ∧
    (c'.phase.left = true → c.phase.left = true ∨ ⟨p, session, .disconnect⟩ ∈ sent)
  sent : ∀ q ∈ sent, q.sessionId = session ∧ c.bound = some q.playerId ∧
    (∀ row, q.command = .connect row → row.id = q.playerId ∧ c'.phase.left = false) ∧
    (q.command = .disconnect → c'.phase.left = true)

theorem mem_sent_or_split {α : Type} {l sent before after : List α} {x : α}
    (h : l ++ sent = before ++ x :: after) :
    x ∈ sent ∨ ∃ rest, l = before ++ x :: rest ∧ after = rest ++ sent := by
  rcases List.append_eq_append_iff.mp h with ⟨mid, -, hsent⟩ | ⟨mid, hl, hafter⟩
  · exact .inl (by simp [hsent])
  · cases mid with
    | nil => exact .inl (by simp [← show x :: after = sent from hafter])
    | cons y rest =>
        obtain ⟨rfl, hrest⟩ := List.cons.inj hafter
        exact .inr ⟨rest, hl, hrest⟩

theorem Queued.setConn {session : SessionId} {c c' : Conn} {sent : List QueuedLifecycle}
    (hq : srv.Queued) (hconn : srv.conns session = some c) (hconns : srv'.conns = srv.conns)
    (hlife : srv'.lifecycle = srv.lifecycle ++ sent) (hgame : srv'.game = srv.game)
    (hsends : Sends session c c' sent)
    (hsettling : ∀ p s, srv'.hub.players p = some s → (srv'.setConn session c').Settling p s) :
    (srv'.setConn session c').Queued := by
  have hkept (s : SessionId) (d : Conn) (hs : srv.conns s = some d) :
      ∃ d', (srv'.setConn session c').conns s = some d' ∧
        ∀ p, d.bound = some p → d.phase.waiting = false → d'.bound = some p ∧ d'.phase.waiting = false ∧
          (d.phase.left = true → d'.phase.left = true) ∧
          (d'.phase.left = true → d.phase.left = true ∨ ⟨p, s, .disconnect⟩ ∈ sent) := by
    rw [setConn_conns]
    by_cases heq : s = session
    · subst heq
      cases hconn.symm.trans hs
      exact ⟨c', if_pos rfl, fun p hp _ => hsends.bound p hp⟩
    · exact ⟨d, by rw [if_neg heq, hconns, hs], fun p hp hw => ⟨hp, hw, id, .inl⟩⟩
  refine ⟨?_, hsettling, ?_, ?_⟩
  · intro q hmem
    rw [setConn_lifecycle, hlife, List.mem_append] at hmem
    rcases hmem with hmem | hmem
    · obtain ⟨d, hd, hbound, hwait, hrow, hleft⟩ := hq.sender q hmem
      obtain ⟨d', hd', hkeeps⟩ := hkept q.sessionId d hd
      obtain ⟨hbound', hwait', hleft', -⟩ := hkeeps q.playerId hbound hwait
      exact ⟨d', hd', hbound', hwait', hrow, fun hdis => hleft' (hleft hdis)⟩
    · obtain ⟨hid, hbound, hrow, hleft⟩ := hsends.sent q hmem
      obtain ⟨hbound', hwait', -, -⟩ := hsends.bound q.playerId hbound
      refine ⟨c', ?_, hbound', hwait', fun row h => (hrow row h).1, hleft⟩
      rw [setConn_conns, if_pos hid]
  · intro p s hactive
    rw [setConn_game, hgame] at hactive
    obtain ⟨d, hd, hbound, hwait, hleft⟩ := hq.active p s hactive
    obtain ⟨d', hd', hkeeps⟩ := hkept s d hd
    obtain ⟨hbound', hwait', -, hnew⟩ := hkeeps p hbound hwait
    refine ⟨d', hd', hbound', hwait', fun hleft' => ?_⟩
    rw [setConn_lifecycle, hlife, List.mem_append]
    exact (hnew hleft').imp hleft id
  · intro before after p s row d' hsplit hd' hleft'
    rw [setConn_lifecycle, hlife] at hsplit
    rcases mem_sent_or_split hsplit with hmem | ⟨rest, hold, rfl⟩
    · obtain ⟨hid, -, hrow, -⟩ := hsends.sent _ hmem
      simp only at hid
      rw [setConn_conns, if_pos hid] at hd'
      cases hd'
      rw [(hrow row rfl).2] at hleft'
      cases hleft'
    · obtain ⟨d, hd, hbound, hwait, -, -⟩ := hq.sender ⟨p, s, .connect row⟩ (by simp [hold])
      obtain ⟨d'', hd'', hkeeps⟩ := hkept s d hd
      cases hd'.symm.trans hd''
      obtain ⟨-, -, -, hnew⟩ := hkeeps p hbound hwait
      rw [List.mem_append]
      exact (hnew hleft').imp (hq.order before rest p s row d hold hd) id

/-- A session goes on settling when its own handler has not moved. -/
theorem Settling.setConn {session s : SessionId} {p : PlayerId} {c' : Conn} {sent : List QueuedLifecycle}
    (h : srv.Settling p s) (hne : s ≠ session) (hconns : srv'.conns = srv.conns)
    (hlife : srv'.lifecycle = srv.lifecycle ++ sent) (hgame : srv'.game = srv.game) :
    (srv'.setConn session c').Settling p s := by
  rcases h with ⟨c, hc, hphase⟩ | ⟨row, hrow⟩ | hactive
  · exact .inl ⟨c, by rw [setConn_conns, if_neg hne, hconns, hc], hphase⟩
  · refine .inr (.inl ⟨row, ?_⟩)
    rw [setConn_lifecycle, hlife]
    exact List.mem_append_left _ hrow
  · exact .inr (.inr (by rw [setConn_game, hgame, hactive]))

theorem queued_on {session : SessionId} {c c' : Conn} (hq : srv.Queued)
    (hconn : srv.conns session = some c) (hon : c.Continues c') : (srv.setConn session c').Queued := by
  refine hq.setConn hconn rfl (List.append_nil _).symm rfl ⟨?_, by simp⟩ ?_
  · intro p hp
    refine ⟨hon.bound.trans hp, hon.waiting, ?_, ?_⟩
    · intro hleft
      rw [c.left_of_running hon.running] at hleft
      cases hleft
    · intro hleft
      rw [hon.bound_of_left hleft] at hp
      cases hp
  · intro p s hp
    have hsettling := hq.settling p s hp
    by_cases hs : s = session
    · subst hs
      rcases hsettling with ⟨d, hd, hphase⟩ | hrow | hactive
      · cases hconn.symm.trans hd
        have hrun := hon.running
        rcases hphase with hwait | hclosing
        · rw [c.waiting_of_running hrun] at hwait
          cases hwait
        · simp [hclosing, Phase.running] at hrun
      · exact .inr (.inl hrow)
      · exact .inr (.inr hactive)
    · exact hsettling.setConn hs rfl (List.append_nil _).symm rfl

theorem queued_bind {session : SessionId} {c c' : Conn} {hub : SessionHub} {blocked : Bool} {row : PlayerRow}
    (hsane : srv.Sane) (hq : srv.Queued) (hconn : srv.conns session = some c)
    (hrun : c.phase.running = true) (hnone : c.auth.playerId = none)
    (hphase : c'.phase = .init blocked row)
    (hbind : srv.hub.bindPlayer session row.id = (hub, true)) :
    ({ srv with hub, inits := srv.inits ++ [(session, row.id)] }.setConn session c').Queued := by
  have hbound : c.bound = none := (c.bound_of_running hrun).trans hnone
  have hbefore := hsane.isSome_playerOf hconn (c.ne_ended_of_running hrun false)
  obtain ⟨hub', heq, -, hplayers, -, -⟩ := SessionHub.bindPlayer_spec row.id hbefore
  cases hbind.symm.trans heq
  refine hq.setConn hconn rfl (List.append_nil _).symm rfl ⟨by simp [hbound], by simp⟩ ?_
  intro p s hp
  simp only [hplayers, Function.update_apply] at hp
  by_cases hs : s = session
  · refine .inl ⟨c', ?_, .inl (by simp [hphase, Phase.waiting])⟩
    rw [setConn_conns, if_pos hs]
  · split at hp
    · exact absurd (Option.some.inj hp).symm hs
    · exact (hq.settling p s hp).setConn hs rfl (List.append_nil _).symm rfl

theorem queued_connect {session : SessionId} {c : Conn} {blocked : Bool} {row : PlayerRow}
    (hsane : srv.Sane) (hq : srv.Queued) (hconn : srv.conns session = some c)
    (hphase : c.phase = .init blocked row) (hopen : srv.lifecycleOpen = true) :
    ((srv.enqueueLifecycle ⟨row.id, session, .connect row⟩).1.setConn session
      (authenticated c row.id blocked)).Queued := by
  have hbound : c.bound = some row.id := by simp [Conn.bound, hphase]
  have hplayerOf := hsane.isSome_playerOf hconn (by simp [hphase])
  rw [enqueueLifecycle_of_open hopen]
  refine hq.setConn hconn rfl rfl rfl ⟨?_, ?_⟩ ?_
  · intro p hp
    rw [hbound] at hp
    cases hp
    exact ⟨rfl, rfl, by simp [hphase, Phase.left], by simp [authenticated, Phase.left]⟩
  · intro q hmem
    rw [List.mem_singleton.mp hmem]
    exact ⟨rfl, hbound, fun row' h => by cases h; exact ⟨rfl, rfl⟩, fun h => by cases h⟩
  · intro p s hp
    by_cases hs : s = session
    · subst hs
      have howner := hsane.owner p s hp
      rw [hplayerOf, hbound] at howner
      cases howner
      exact .inr (.inl ⟨row, by simp⟩)
    · exact (hq.settling p s hp).setConn hs rfl rfl rfl

theorem queued_disconnect {session : SessionId} {c : Conn} {player : PlayerId} (hq : srv.Queued)
    (hconn : srv.conns session = some c) (hphase : c.phase = .disconnecting)
    (hplayer : c.auth.playerId = some player) (hopen : srv.lifecycleOpen = true) :
    ((srv.enqueueLifecycle ⟨player, session, .disconnect⟩).1.setConn session
      { c with phase := .closing }).Queued := by
  have hbound : c.bound = some player := by simp [Conn.bound, hphase, hplayer]
  rw [enqueueLifecycle_of_open hopen]
  refine hq.setConn hconn rfl rfl rfl ⟨?_, ?_⟩ ?_
  · intro p hp
    rw [hbound] at hp
    cases hp
    exact ⟨hplayer, rfl, fun _ => rfl, fun _ => .inr (by simp)⟩
  · intro q hmem
    rw [List.mem_singleton.mp hmem]
    exact ⟨rfl, hbound, fun row' h => (by cases h), fun _ => rfl⟩
  · intro p s hp
    by_cases hs : s = session
    · exact .inl ⟨{ c with phase := .closing }, by rw [setConn_conns, if_pos hs], .inr rfl⟩
    · exact (hq.settling p s hp).setConn hs rfl rfl rfl

theorem queued_close {session : SessionId} {c : Conn} (hsane : srv.Sane) (hq : srv.Queued)
    (hconn : srv.conns session = some c) (hphase : c.phase = .closing) :
    ({ srv with hub := (srv.hub.close session).1 }.setConn session
      { c with phase := .ended false }).Queued := by
  have hbound : c.bound = c.auth.playerId := by simp [Conn.bound, hphase]
  have hplayerOf := hsane.isSome_playerOf hconn (by simp [hphase])
  obtain ⟨-, hplayers, -, -⟩ := SessionHub.close_spec hplayerOf
  refine hq.setConn hconn rfl (List.append_nil _).symm rfl ⟨?_, by simp⟩ ?_
  · intro p hp
    exact ⟨hbound.symm.trans hp, rfl, fun _ => rfl, fun _ => .inl (by simp [hphase, Phase.left])⟩
  · intro p s hp
    simp only [hplayers] at hp
    split at hp
    · cases hp
    · rename_i hkept
      have hne : s ≠ session := by
        rintro rfl
        have howner := hsane.owner p s hp
        rw [hplayerOf] at howner
        exact hkept ⟨Option.some.inj howner, hp⟩
      exact (hq.settling p s hp).setConn hne rfl (List.append_nil _).symm rfl

theorem queued_moved {session : SessionId} {c : Conn} {e : ConnEvent} (hsane : srv.Sane) (hq : srv.Queued)
    (hlife : srv'.lifecycleOpen = true) (hconn : srv.conns session = some c)
    (h : Moved cfg srv session c e srv') : srv'.Queued := by
  cases h with
  | on c' hon hfails => exact queued_on hq hconn hon
  | bind c' hub blocked row hrun hnone hnone' hphase hbind hfails =>
      exact queued_bind hsane hq hconn hrun hnone hphase hbind
  | skip c' hub row hrun hrun' hbind hfails =>
      obtain ⟨hub', heq, -⟩ := SessionHub.bindPlayer_spec row.id
        (hsane.isSome_playerOf hconn (c.ne_ended_of_running hrun false))
      cases hbind.symm.trans heq
  | connect blocked row hphase hopen hfails => exact queued_connect hsane hq hconn hphase hopen
  | refuse blocked row hphase hopen hfails =>
      rw [setConn_lifecycleOpen] at hlife
      exact absurd (hlife.symm.trans hopen) (by simp)
  | disconnect player hphase hplayer hfails =>
      rw [setConn_lifecycleOpen, lifecycleOpen_enqueueLifecycle] at hlife
      exact queued_disconnect hq hconn hphase hplayer hlife
  | close hphase hfails => exact queued_close hsane hq hconn hphase

/-- The simulation does not apply the login of an open session that the hub has taken
the player from, once the session that the hub gave the player to is the active one. -/
def NoStaleConnect (srv : Server P) : ServerEvent → Prop
  | .apply => ∀ q rest row, srv.lifecycle = q :: rest → q.command = .connect row →
      srv.hub.isOpen q.sessionId = true → ∀ s, srv.hub.sessionForPlayer q.playerId = some s →
      srv.game.activeSession q.playerId = some s → s = q.sessionId
  | _ => True

/-- The queue once its first command is gone, and what has to be shown of the game then. -/
theorem Queued.tail {q : QueuedLifecycle} {rest : List QueuedLifecycle} {g : GameState P}
    (hq : srv.Queued) (hlife : srv.lifecycle = q :: rest)
    (hsettling : ∀ p s, srv.hub.players p = some s →
      ({ srv with lifecycle := rest, game := g } : Server P).Settling p s)
    (hactive : ∀ p s, g.activeSession p = some s → ∃ c, srv.conns s = some c ∧ c.bound = some p ∧
      c.phase.waiting = false ∧ (c.phase.left = true → ⟨p, s, .disconnect⟩ ∈ rest)) :
    ({ srv with lifecycle := rest, game := g } : Server P).Queued where
  sender := fun q' hmem => hq.sender q' (by rw [hlife]; exact List.mem_cons_of_mem _ hmem)
  settling := hsettling
  active := hactive
  order := by
    intro before after p s row c hsplit
    have hsplit' : srv.lifecycle = (q :: before) ++ ⟨p, s, .connect row⟩ :: after := by
      rw [hlife, List.cons_append]
      exact congrArg _ hsplit
    exact hq.order (q :: before) after p s row c hsplit'

theorem mem_of_ne_head {q x : QueuedLifecycle} {rest : List QueuedLifecycle} (hlife : srv.lifecycle = q :: rest)
    (hmem : x ∈ srv.lifecycle) (hne : x ≠ q) : x ∈ rest := by
  rw [hlife] at hmem
  exact (List.mem_cons.mp hmem).resolve_left hne

/-- After a step of the game that keeps the active session of the player. -/
theorem Settling.tail {q : QueuedLifecycle} {rest : List QueuedLifecycle} {g : GameState P} {p : PlayerId}
    {s : SessionId} (h : srv.Settling p s) (hlife : srv.lifecycle = q :: rest)
    (hne : ∀ row, q ≠ ⟨p, s, .connect row⟩)
    (hactive : srv.game.activeSession p = some s → g.activeSession p = some s) :
    ({ srv with lifecycle := rest, game := g } : Server P).Settling p s := by
  rcases h with hphase | ⟨row, hrow⟩ | hcurrent
  · exact .inl hphase
  · exact .inr (.inl ⟨row, mem_of_ne_head hlife hrow (hne row).symm⟩)
  · exact .inr (.inr (hactive hcurrent))

theorem queued_connectInTick {q : QueuedLifecycle} {rest : List QueuedLifecycle} {row : PlayerRow}
    (hsane : srv.Sane) (hq : srv.Queued) (hlife : srv.lifecycle = q :: rest)
    (hcommand : q.command = .connect row) (hfresh : srv.NoStaleConnect .apply) :
    ({ srv with
       lifecycle := rest
       game := srv.game.connectEntityInTick ops srv.hub row q.sessionId } : Server P).Queued := by
  obtain ⟨c, hconn, hbound, hwait, hrow, -⟩ := hq.sender q (by simp [hlife])
  have hid : row.id = q.playerId := hrow row hcommand
  have hstay (p : PlayerId) (s : SessionId) (hd : (⟨p, s, .disconnect⟩ : QueuedLifecycle) ∈ srv.lifecycle) :
      ⟨p, s, .disconnect⟩ ∈ rest := by
    refine mem_of_ne_head hlife hd ?_
    rintro rfl
    cases hcommand
  have hhead : srv.lifecycle = [] ++ ⟨q.playerId, q.sessionId, .connect row⟩ :: rest := by
    rw [← hcommand]
    exact hlife
  cases hopen : srv.hub.isOpen q.sessionId with
  | false =>
      rw [GameState.connectEntityInTick_closed hopen]
      refine hq.tail hlife ?_ ?_
      · intro p s hp
        refine (hq.settling p s hp).tail hlife ?_ id
        rintro row' rfl
        have howner := hsane.owner p s hp
        rw [SessionHub.isOpen_eq, howner] at hopen
        cases hopen
      · intro p s hactive
        obtain ⟨d, hd, hdbound, hdwait, hleft⟩ := hq.active p s hactive
        exact ⟨d, hd, hdbound, hdwait, fun h => hstay p s (hleft h)⟩
  | true =>
      have hactive (p : PlayerId) :
          (srv.game.connectEntityInTick ops srv.hub row q.sessionId).activeSession p =
            if p = row.id then some q.sessionId else srv.game.activeSession p :=
        GameState.activeSession_connect hopen p
      refine hq.tail hlife ?_ ?_
      · intro p s hp
        by_cases hs : p = q.playerId ∧ s = q.sessionId
        · obtain ⟨rfl, rfl⟩ := hs
          exact .inr (.inr (by rw [hactive, if_pos hid.symm]))
        · refine (hq.settling p s hp).tail hlife ?_ ?_
          · rintro row' rfl
            exact hs ⟨rfl, rfl⟩
          · intro hcurrent
            rw [hactive, if_neg, hcurrent]
            rw [hid]
            rintro rfl
            exact hs ⟨rfl, hfresh q rest row hlife hcommand hopen s hp hcurrent⟩
      · intro p s hcurrent
        rw [hactive] at hcurrent
        split at hcurrent
        · rename_i hp
          cases hcurrent
          rw [hp, hid]
          refine ⟨c, hconn, hbound, hwait, fun hleft => ?_⟩
          exact hq.order [] rest q.playerId q.sessionId row c hhead hconn hleft
        · obtain ⟨d, hd, hdbound, hdwait, hleft⟩ := hq.active p s hcurrent
          exact ⟨d, hd, hdbound, hdwait, fun h => hstay p s (hleft h)⟩

theorem queued_disconnectInTick {q : QueuedLifecycle} {rest : List QueuedLifecycle} (hsane : srv.Sane)
    (hq : srv.Queued) (hlife : srv.lifecycle = q :: rest) (hcommand : q.command = .disconnect) :
    ({ srv with
       lifecycle := rest
       game := (srv.game.disconnectInTick ops q.playerId q.sessionId).1 } : Server P).Queued := by
  obtain ⟨c, hconn, hbound, hwait, -, hleft⟩ := hq.sender q (by simp [hlife])
  have hne (p : PlayerId) (s : SessionId) (row : PlayerRow) : q ≠ ⟨p, s, .connect row⟩ := by
    rintro rfl
    cases hcommand
  by_cases hown : srv.game.activeSession q.playerId = some q.sessionId
  · have hactive (p : PlayerId) :
        (srv.game.disconnectInTick ops q.playerId q.sessionId).1.activeSession p =
          if p = q.playerId then none else srv.game.activeSession p :=
      GameState.activeSession_disconnect hown p
    refine hq.tail hlife ?_ ?_
    · intro p s hp
      by_cases hs : p = q.playerId ∧ s = q.sessionId
      · obtain ⟨rfl, rfl⟩ := hs
        refine .inl ⟨c, hconn, .inr ?_⟩
        have howner := hsane.owner q.playerId q.sessionId hp
        rw [(hsane.conn q.sessionId c hconn).playerOf] at howner
        have hleft' := hleft hcommand
        unfold Phase.left at hleft'
        split at hleft'
        · rename_i hphase
          exact hphase
        · rename_i hphase
          rw [if_pos hphase] at howner
          cases howner
        · cases hleft'
      · refine (hq.settling p s hp).tail hlife (hne p s) fun hcurrent => ?_
        rw [hactive, if_neg, hcurrent]
        rintro rfl
        exact hs ⟨rfl, Option.some.inj (hcurrent.symm.trans hown)⟩
    · intro p s hcurrent
      rw [hactive] at hcurrent
      split at hcurrent
      · cases hcurrent
      · rename_i hp
        obtain ⟨d, hd, hdbound, hdwait, hdleft⟩ := hq.active p s hcurrent
        refine ⟨d, hd, hdbound, hdwait, fun h => mem_of_ne_head hlife (hdleft h) ?_⟩
        rintro rfl
        exact hp rfl
  · rw [GameState.disconnectInTick_stale hown]
    refine hq.tail hlife (fun p s hp => (hq.settling p s hp).tail hlife (hne p s) id) ?_
    intro p s hcurrent
    obtain ⟨d, hd, hdbound, hdwait, hdleft⟩ := hq.active p s hcurrent
    refine ⟨d, hd, hdbound, hdwait, fun h => mem_of_ne_head hlife (hdleft h) ?_⟩
    rintro rfl
    exact hown hcurrent

theorem queued_accept (hsane : srv.Sane) (hq : srv.Queued) (sid : String) :
    ({ srv with hub := srv.hub.open.1 }.setConn srv.hub.open.2 (.accepted sid)).Queued := by
  have hfresh : srv.conns srv.hub.open.2 = none := hsane.fresh _ (Nat.le_refl _)
  have hkept {s : SessionId} {c : Conn} (hs : srv.conns s = some c) :
      ({ srv with hub := srv.hub.open.1 }.setConn srv.hub.open.2 (.accepted sid)).conns s = some c := by
    rw [setConn_conns, if_neg, hs]
    rintro rfl
    cases hfresh.symm.trans hs
  refine ⟨?_, ?_, ?_, ?_⟩
  · intro q hmem
    obtain ⟨c, hc, hrest⟩ := hq.sender q hmem
    exact ⟨c, hkept hc, hrest⟩
  · intro p s hp
    exact (hq.settling p s hp).imp (fun ⟨c, hc, hphase⟩ => ⟨c, hkept hc, hphase⟩) id
  · intro p s hactive
    obtain ⟨c, hc, hrest⟩ := hq.active p s hactive
    exact ⟨c, hkept hc, hrest⟩
  · intro before after p s row c hsplit hs
    have hsplit' : srv.lifecycle = before ++ ⟨p, s, .connect row⟩ :: after := hsplit
    obtain ⟨d, hd, -⟩ := hq.sender ⟨p, s, .connect row⟩ (by simp [hsplit'])
    cases (hkept hd).symm.trans hs
    exact hq.order before after p s row c hsplit' hd

theorem queued_step {e : ServerEvent} (hsane : srv.Sane) (hq : srv.Queued) (hfresh : srv.NoStaleConnect e)
    (hlife : srv'.lifecycleOpen = true) (h : step cfg ops srv e = some srv') : srv'.Queued := by
  cases e with
  | accept sid =>
      cases h
      exact queued_accept hsane hq sid
  | conn session e =>
      obtain ⟨c, hconn, hstep⟩ := Option.bind_eq_some_iff.mp h
      exact queued_moved hsane hq hlife hconn (connStep_moved hstep)
  | kick session =>
      cases h
      refine ⟨hq.sender, ?_, hq.active, hq.order⟩
      intro p s hp
      rw [SessionHub.players_kickSession] at hp
      exact hq.settling p s hp
  | apply =>
      simp only [step] at h
      split at h
      · cases h
      · rename_i q rest hqueue
        cases h
        unfold GameState.applyLifecycle
        split
        · rename_i row hcommand
          exact queued_connectInTick hsane hq hqueue hcommand hfresh
        · rename_i hcommand
          exact queued_disconnectInTick hsane hq hqueue hcommand
  | closeLifecycle =>
      cases h
      cases hlife

theorem queued_start : (start : Server P).Queued where
  sender := by
    intro q hmem
    cases hmem
  settling := by
    intro p s hp
    cases hp
  active := by
    intro p s hactive
    cases hactive
  order := by
    intro before after p s row c hsplit hs
    cases hs

theorem lifecycleOpen_of_step {e : ServerEvent} (h : step cfg ops srv e = some srv')
    (hopen : srv'.lifecycleOpen = true) : srv.lifecycleOpen = true := by
  cases e with
  | accept sid =>
      cases h
      exact hopen
  | conn session e =>
      obtain ⟨c, -, hstep⟩ := Option.bind_eq_some_iff.mp h
      cases connStep_moved hstep with
      | connect blocked row hphase hopen' hfails => exact hopen'
      | disconnect player hphase hplayer hfails =>
          rwa [setConn_lifecycleOpen, lifecycleOpen_enqueueLifecycle] at hopen
      | _ => exact hopen
  | kick session =>
      cases h
      exact hopen
  | apply =>
      simp only [step] at h
      split at h
      · cases h
      · cases h
        exact hopen
  | closeLifecycle =>
      cases h
      cases hopen

theorem game_of_moved {session : SessionId} {c : Conn} {e : ConnEvent}
    (h : Moved cfg srv session c e srv') : srv'.game = srv.game := by
  cases h with
  | connect blocked row hphase hopen hfails => rw [setConn_game, enqueueLifecycle_of_open hopen]
  | disconnect player hphase hplayer hfails => rw [setConn_game, game_enqueueLifecycle]
  | _ => rfl

theorem owned_step {e : ServerEvent} (howned : srv.game.Owned) (h : step cfg ops srv e = some srv') :
    srv'.game.Owned := by
  cases e with
  | conn session e =>
      obtain ⟨c, -, hstep⟩ := Option.bind_eq_some_iff.mp h
      rw [game_of_moved (connStep_moved hstep)]
      exact howned
  | apply =>
      simp only [step] at h
      split at h
      · cases h
      · cases h
        exact GameState.owned_applyLifecycle howned ops _ _
  | accept _ | kick _ | closeLifecycle =>
      cases h
      exact howned

theorem queued_run {es : List ServerEvent} (h : run (step cfg ops) start es = some srv)
    (hmeets : Meets (step cfg ops) NoStaleConnect start es) (hopen : srv.lifecycleOpen = true) :
    srv.Queued := by
  have hinv : srv.Sane ∧ (srv.lifecycleOpen = true → srv.Queued) := by
    refine run_preserves_of_meets (P := fun srv : Server P => srv.Sane ∧ (srv.lifecycleOpen = true → srv.Queued))
      ⟨sane_start, fun _ => queued_start⟩ hmeets ?_ h
    rintro e u v ⟨hsane, hq⟩ hfresh hstep
    exact ⟨sane_step hsane hstep, fun hlife =>
      queued_step hsane (hq (lifecycleOpen_of_step hstep hlife)) hfresh hlife hstep⟩
  exact hinv.2 hopen

theorem owned_run {es : List ServerEvent} (h : run (step cfg ops) start es = some srv) : srv.game.Owned :=
  run_preserves (P := fun srv : Server P => srv.game.Owned) GameState.owned_new
    (fun _ _ _ _ howned hstep => owned_step howned hstep) h

/-- Nothing that concerns the player is under way: its commands have been applied, its
session is not between `bind_player` and the sending of its login nor between the
sending of its logout and `close`, and without a session in the hub no session that
was bound to it is still open. -/
structure AtRest (srv : Server P) (player : PlayerId) : Prop where
  applied : ∀ q ∈ srv.lifecycle, q.playerId ≠ player
  settled : ∀ s c, srv.hub.sessionForPlayer player = some s → srv.conns s = some c →
    c.phase.waiting = false ∧ c.phase ≠ .closing
  gone : srv.hub.sessionForPlayer player = none → ∀ s, srv.hub.playerOf s ≠ some (some player)

theorem Queued.activeSession_eq (hsane : srv.Sane) (hq : srv.Queued) {player : PlayerId}
    (hrest : srv.AtRest player) : srv.game.activeSession player = srv.hub.sessionForPlayer player := by
  cases hhub : srv.hub.sessionForPlayer player with
  | some s =>
      rcases hq.settling player s hhub with ⟨c, hc, hphase⟩ | ⟨row, hrow⟩ | hactive
      · obtain ⟨hwait, hclosing⟩ := hrest.settled s c hhub hc
        rcases hphase with hphase | hphase
        · exact absurd (hwait.symm.trans hphase) (by simp)
        · exact absurd hphase hclosing
      · exact absurd rfl (hrest.applied _ hrow)
      · exact hactive
  | none =>
      cases hactive : srv.game.activeSession player with
      | none => rfl
      | some s =>
          obtain ⟨c, hc, hbound, -, hleft⟩ := hq.active player s hactive
          have hrunning : c.phase ≠ .ended false := fun hphase =>
            hrest.applied _ (hleft (by simp [hphase, Phase.left])) rfl
          exact absurd ((hsane.isSome_playerOf hc hrunning).trans (by rw [hbound])) (hrest.gone hhub s)

/-- In every run without a stale login, the active session of a player at rest is the
open session that the hub maps the player to; it owns the entity of the player, and
the logout of any other session changes nothing. -/
theorem activeSession_iff_atRest (cfg : AuthConfig) (ops : PlayerOps P) {es : List ServerEvent}
    {srv : Server P} {player : PlayerId} (h : run (step cfg ops) start es = some srv)
    (hmeets : Meets (step cfg ops) NoStaleConnect start es) (hopen : srv.lifecycleOpen = true)
    (hrest : srv.AtRest player) :
    (∀ s, srv.game.activeSession player = some s ↔
      srv.hub.sessionForPlayer player = some s ∧ srv.hub.isOpen s = true) ∧
    (∀ s, srv.hub.sessionForPlayer player = some s → ∃ entity k,
      srv.game.activePlayers player = some ⟨entity, s⟩ ∧
      srv.game.playerEntities player = some entity ∧ srv.game.ecs entity = some k ∧
      k.id = player ∧ k.connection = some s) ∧
    ∀ s s', srv.game.activeSession player = some s → s' ≠ s →
      srv.game.disconnectInTick ops player s' = (srv.game, none) := by
  have hsane := sane_run h
  have howned := owned_run h
  have heq := (queued_run h hmeets hopen).activeSession_eq hsane hrest
  refine ⟨?_, ?_, ?_⟩
  · intro s
    rw [heq, iff_self_and]
    intro hs
    rw [SessionHub.isOpen_eq, hsane.owner player s hs]
    rfl
  · intro s hs
    rw [← heq] at hs
    obtain ⟨a, ha, rfl⟩ := Option.map_eq_some_iff.mp hs
    obtain ⟨hentity, k, hk, hconnection⟩ := howned.active player a ha
    exact ⟨a.ecsEntity, k, ha, hentity, hk, howned.identity player _ k hentity hk, hconnection⟩
  · intro s s' hactive hne
    refine GameState.disconnectInTick_stale ?_
    rw [hactive]
    exact fun hs => hne (Option.some.inj hs).symm

/-- A handler that has been kicked logs its player out. -/
def kickedRun (session : SessionId) : List ServerEvent :=
  [.conn session .kicked, .conn session .disconnectQueued, .apply, .conn session .close]

/-- A second login takes the player over from the first session. -/
def takeoverRun : List ServerEvent :=
  loginRun 1 ++ [.apply] ++ loginRun 2 ++ [.apply] ++ kickedRun 1

theorem activeSession_takeoverRun : ∃ srv, run (step sampleConfig sampleOps) start takeoverRun = some srv ∧
    srv.hub.sessionForPlayer 7 = some 2 ∧ srv.game.activeSession 7 = some 2 := by
  obtain ⟨srv, c, hrun, hopen, hlife, hhub, hisOpen, hconn, hphase⟩ : ∃ srv c,
      run (step sampleConfig sampleOps) start takeoverRun = some srv ∧ srv.lifecycleOpen = true ∧
        srv.lifecycle = [] ∧ srv.hub.sessionForPlayer 7 = some 2 ∧ srv.hub.isOpen 2 = true ∧
        srv.conns 2 = some c ∧ c.phase = .select false :=
    ⟨_, _, rfl, rfl, rfl, rfl, rfl, rfl, rfl⟩
  have hrest : srv.AtRest 7 := by
    refine ⟨by simp [hlife], ?_, by simp [hhub]⟩
    intro s d hs hd
    cases hhub.symm.trans hs
    cases hconn.symm.trans hd
    simp [hphase, Phase.waiting]
  refine ⟨srv, hrun, hhub, ?_⟩
  refine ((activeSession_iff_atRest sampleConfig sampleOps hrun ?_ hopen hrest).1 2).mpr ⟨hhub, hisOpen⟩
  iterate 10 refine ⟨trivial, ?_⟩; rintro _ ⟨⟩
  refine ⟨?_, ?_⟩
  · rintro q rest row hq hcommand - s hs ⟨⟩
  rintro _ ⟨⟩
  iterate 10 refine ⟨trivial, ?_⟩; rintro _ ⟨⟩
  refine ⟨?_, ?_⟩
  · rintro q rest row ⟨⟩ hcommand - s ⟨⟩ -
    rfl
  rintro _ ⟨⟩
  iterate 2 refine ⟨trivial, ?_⟩; rintro _ ⟨⟩
  refine ⟨?_, ?_⟩
  · rintro q rest row ⟨⟩ ⟨⟩
  rintro _ ⟨⟩
  iterate 1 refine ⟨trivial, ?_⟩; rintro _ ⟨⟩
  trivial

/-- The login of the first session arrives after that of the second. -/
def staleConnectRun : List ServerEvent :=
  (loginRun 1).take 7 ++ (loginRun 2).take 7 ++ [.conn 2 .connectQueued, .apply] ++
    [.conn 1 .connectQueued, .apply] ++ (loginRun 1).drop 8 ++ kickedRun 1 ++ (loginRun 2).drop 8

/-- The second session is the only one left and the hub maps the player to it, but
the player is not in the game. -/
theorem not_activeSession_of_staleConnect :
    ∃ srv, run (step sampleConfig sampleOps) start staleConnectRun = some srv ∧
      srv.lifecycleOpen = true ∧ srv.AtRest 7 ∧ srv.hub.sessionForPlayer 7 = some 2 ∧
      srv.hub.isOpen 2 = true ∧ (srv.conns 2).map Conn.phase = some (.select false) ∧
      srv.game.activeSession 7 = none ∧ srv.game.playerEntities 7 = none := by
  obtain ⟨srv, hrun, hopen, hlife, hhub, hisOpen, hphase, hactive, hentity⟩ : ∃ srv,
      run (step sampleConfig sampleOps) start staleConnectRun = some srv ∧ srv.lifecycleOpen = true ∧
        srv.lifecycle = [] ∧ srv.hub.sessionForPlayer 7 = some 2 ∧ srv.hub.isOpen 2 = true ∧
        (srv.conns 2).map Conn.phase = some (.select false) ∧ srv.game.activeSession 7 = none ∧
        srv.game.playerEntities 7 = none :=
    ⟨_, rfl, rfl, rfl, rfl, rfl, rfl, rfl, rfl⟩
  refine ⟨srv, hrun, hopen, ⟨by simp [hlife], ?_, by simp [hhub]⟩, hhub, hisOpen, hphase, hactive, hentity⟩
  intro s d hs hd
  cases hhub.symm.trans hs
  have hd' : d.phase = .select false := by simpa [hd] using hphase
  simp [hd', Phase.waiting]

end Server

end OpenMines
