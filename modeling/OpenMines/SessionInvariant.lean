import Mathlib.Data.List.Count
import OpenMines.ConnectionSteps

namespace OpenMines

open Lib.Run

/-- The handler is done with the logout. -/
def Phase.left : Phase → Bool
  | .closing | .ended false => true
  | _ => false

namespace Conn

theorem bound_of_running {c : Conn} (h : c.phase.running = true) : c.bound = c.auth.playerId := by
  unfold bound
  split
  · rename_i hphase
    simp [hphase, Phase.running] at h
  · rfl

theorem left_of_running {c : Conn} (h : c.phase.running = true) : c.phase.left = false := by
  cases hphase : c.phase <;> simp_all [Phase.running, Phase.left]

theorem ne_ended_of_running {c : Conn} (h : c.phase.running = true) (failed : Bool) :
    c.phase ≠ .ended failed := by
  intro hphase
  simp [hphase, Phase.running] at h

namespace Continues

variable {c c' : Conn}

theorem bound (h : c.Continues c') : c'.bound = c.bound := by
  rw [bound_of_running h.running, ← h.player]
  rcases h.phase with hrun | ⟨hphase, -⟩ | ⟨hphase, -⟩ | hphase
  · exact bound_of_running hrun
  all_goals simp [Conn.bound, hphase]

theorem ne_ended (h : c.Continues c') : c'.phase ≠ .ended false := by
  rcases h.phase with hrun | ⟨hphase, -⟩ | ⟨hphase, -⟩ | hphase
  · exact ne_ended_of_running hrun false
  all_goals simp [hphase]

/-- Only a handler without a player skips the logout. -/
theorem bound_of_left (h : c.Continues c') (hleft : c'.phase.left = true) : c.bound = none := by
  rw [bound_of_running h.running]
  rcases h.phase with hrun | ⟨hphase, -⟩ | ⟨-, hnone⟩ | hphase
  · rw [left_of_running hrun] at hleft
    cases hleft
  · simp [hphase, Phase.left] at hleft
  · exact hnone
  · simp [hphase, Phase.left] at hleft

end Continues

end Conn

namespace Server

variable {P : Type} {cfg : AuthConfig} {ops : PlayerOps P} {srv srv' : Server P}

/-- What the hub and the commands sent so far say about the session of a handler. -/
structure ConnSane (srv : Server P) (session : SessionId) (c : Conn) : Prop where
  playerOf : srv.hub.playerOf session = if c.phase = .ended false then none else some c.bound
  inits : ∀ p, (session, p) ∈ srv.inits ↔ c.bound = some p
  logout : srv.lifecycleOpen = true → ∀ p, srv.enqueued.count ⟨p, session, .disconnect⟩ =
    if c.phase.left = true ∧ c.bound = some p then 1 else 0

structure Sane (srv : Server P) : Prop where
  fresh : ∀ s, srv.hub.nextId ≤ s → srv.conns s = none
  noConn : ∀ s, srv.conns s = none → srv.hub.playerOf s = none ∧
    ∀ p, (s, p) ∉ srv.inits ∧ srv.enqueued.count ⟨p, s, .disconnect⟩ = 0
  conn : ∀ s c, srv.conns s = some c → srv.ConnSane s c
  owner : ∀ p s, srv.hub.players p = some s → srv.hub.playerOf s = some (some p)

/-- Nothing has changed for the sessions other than one. -/
structure SameElse (srv srv' : Server P) (session : SessionId) : Prop where
  conns : srv'.conns = srv.conns
  nextId : srv'.hub.nextId = srv.hub.nextId
  lifecycleOpen : srv'.lifecycleOpen = srv.lifecycleOpen
  playerOf : ∀ s, s ≠ session → srv'.hub.playerOf s = srv.hub.playerOf s
  inits : ∀ s, s ≠ session → ∀ p, (s, p) ∈ srv'.inits ↔ (s, p) ∈ srv.inits
  logout : ∀ s, s ≠ session → ∀ p,
    srv'.enqueued.count ⟨p, s, .disconnect⟩ = srv.enqueued.count ⟨p, s, .disconnect⟩

@[simp] theorem setConn_hub (session : SessionId) (c : Conn) : (srv.setConn session c).hub = srv.hub := rfl

@[simp] theorem setConn_lifecycle (session : SessionId) (c : Conn) :
    (srv.setConn session c).lifecycle = srv.lifecycle := rfl

@[simp] theorem setConn_lifecycleOpen (session : SessionId) (c : Conn) :
    (srv.setConn session c).lifecycleOpen = srv.lifecycleOpen := rfl

@[simp] theorem setConn_game (session : SessionId) (c : Conn) : (srv.setConn session c).game = srv.game := rfl

theorem setConn_conns (session s : SessionId) (c : Conn) :
    (srv.setConn session c).conns s = if s = session then some c else srv.conns s :=
  Function.update_apply _ _ _ _

theorem enqueueLifecycle_of_open (h : srv.lifecycleOpen = true) (q : QueuedLifecycle) :
    (srv.enqueueLifecycle q).1 =
      { srv with lifecycle := srv.lifecycle ++ [q], enqueued := srv.enqueued ++ [q] } := by
  simp [enqueueLifecycle, h]

theorem enqueueLifecycle_of_closed (h : srv.lifecycleOpen = false) (q : QueuedLifecycle) :
    (srv.enqueueLifecycle q).1 = srv := by
  simp [enqueueLifecycle, h]

@[simp] theorem conns_enqueueLifecycle (q : QueuedLifecycle) :
    (srv.enqueueLifecycle q).1.conns = srv.conns := by
  unfold enqueueLifecycle
  split <;> rfl

@[simp] theorem lifecycleOpen_enqueueLifecycle (q : QueuedLifecycle) :
    (srv.enqueueLifecycle q).1.lifecycleOpen = srv.lifecycleOpen := by
  unfold enqueueLifecycle
  split <;> rfl

@[simp] theorem game_enqueueLifecycle (q : QueuedLifecycle) :
    (srv.enqueueLifecycle q).1.game = srv.game := by
  unfold enqueueLifecycle
  split <;> rfl

theorem Sane.isSome_playerOf {session : SessionId} {c : Conn} (hsane : srv.Sane)
    (hconn : srv.conns session = some c) (hphase : c.phase ≠ .ended false) :
    srv.hub.playerOf session = some c.bound := by
  rw [(hsane.conn session c hconn).playerOf, if_neg hphase]

/-- A move of one handler keeps the server sane when it keeps its own session sane. -/
theorem Sane.setConn {session : SessionId} {c c' : Conn} (hsane : srv.Sane)
    (hconn : srv.conns session = some c) (hsame : srv.SameElse srv' session)
    (hself : srv'.ConnSane session c')
    (howner : ∀ p s, srv'.hub.players p = some s → srv'.hub.playerOf s = some (some p)) :
    (srv'.setConn session c').Sane where
  fresh := by
    intro s hs
    have hnone : srv.conns s = none := hsane.fresh s (by rw [← hsame.nextId]; exact hs)
    rw [setConn_conns, if_neg, hsame.conns, hnone]
    rintro rfl
    rw [hconn] at hnone
    cases hnone
  noConn := by
    intro s hs
    rw [setConn_conns] at hs
    split at hs
    · cases hs
    · rename_i hne
      rw [hsame.conns] at hs
      obtain ⟨hplayer, hsent⟩ := hsane.noConn s hs
      refine ⟨(hsame.playerOf s hne).trans hplayer, fun p => ⟨?_, ?_⟩⟩
      · exact fun hmem => (hsent p).1 ((hsame.inits s hne p).mp hmem)
      · exact (hsame.logout s hne p).trans (hsent p).2
  conn := by
    intro s d hs
    rw [setConn_conns] at hs
    split at hs
    · rename_i heq
      cases heq
      cases hs
      exact ⟨hself.playerOf, hself.inits, hself.logout⟩
    · rename_i hne
      rw [hsame.conns] at hs
      have hd := hsane.conn s d hs
      refine ⟨(hsame.playerOf s hne).trans hd.playerOf, ?_, ?_⟩
      · exact fun p => (hsame.inits s hne p).trans (hd.inits p)
      · intro hopen p
        exact (hsame.logout s hne p).trans (hd.logout (hsame.lifecycleOpen ▸ hopen) p)
  owner := howner

theorem SameElse.refl (srv : Server P) (session : SessionId) : srv.SameElse srv session :=
  ⟨rfl, rfl, rfl, fun _ _ => rfl, fun _ _ _ => Iff.rfl, fun _ _ _ => rfl⟩

theorem sane_on {session : SessionId} {c c' : Conn} (hsane : srv.Sane)
    (hconn : srv.conns session = some c) (hon : c.Continues c') : (srv.setConn session c').Sane := by
  have hc := hsane.conn session c hconn
  refine hsane.setConn hconn (.refl srv session) ⟨?_, ?_, ?_⟩ hsane.owner
  · rw [if_neg hon.ne_ended, hon.bound, hsane.isSome_playerOf hconn (c.ne_ended_of_running hon.running false)]
  · intro p
    rw [hc.inits, hon.bound]
  · intro hopen p
    rw [hc.logout hopen, c.left_of_running hon.running, if_neg (by simp), if_neg]
    rintro ⟨hleft, hbound⟩
    rw [hon.bound, hon.bound_of_left hleft] at hbound
    cases hbound

theorem sane_bind {session : SessionId} {c c' : Conn} {hub : SessionHub} {blocked : Bool} {row : PlayerRow}
    (hsane : srv.Sane) (hconn : srv.conns session = some c) (hrun : c.phase.running = true)
    (hnone : c.auth.playerId = none) (hphase : c'.phase = .init blocked row)
    (hbind : srv.hub.bindPlayer session row.id = (hub, true)) :
    ({ srv with hub, inits := srv.inits ++ [(session, row.id)] }.setConn session c').Sane := by
  have hc := hsane.conn session c hconn
  have hbound : c.bound = none := (c.bound_of_running hrun).trans hnone
  have hbound' : c'.bound = some row.id := by simp [Conn.bound, hphase]
  have hbefore := hsane.isSome_playerOf hconn (c.ne_ended_of_running hrun false)
  obtain ⟨hub', heq, hnext, hplayers, hplayer, -⟩ := SessionHub.bindPlayer_spec row.id hbefore
  cases hbind.symm.trans heq
  refine hsane.setConn hconn ⟨rfl, hnext, rfl, ?_, ?_, fun _ _ _ => rfl⟩ ⟨?_, ?_, ?_⟩ ?_
  · intro s hs
    rw [hplayer, if_neg hs]
  · intro s hs p
    simp [hs]
  · simp [hplayer, hphase, hbound']
  · intro p
    have hnot : (session, p) ∉ srv.inits := by simp [hc.inits, hbound]
    simp [hnot, hbound', eq_comm]
  · intro hopen p
    have hcount := hc.logout hopen p
    rw [c.left_of_running hrun, if_neg (by simp)] at hcount
    simp [hcount, hphase, Phase.left]
  · intro p s hs
    simp only [hplayers, Function.update_apply] at hs
    simp only [hplayer]
    split at hs
    · rename_i hp
      cases hs
      simp [hp]
    · have hs' := hsane.owner p s hs
      rw [if_neg, hs']
      rintro rfl
      rw [hbefore, hbound] at hs'
      cases hs'

theorem bound_authenticated (c : Conn) (player : PlayerId) (blocked : Bool) :
    (authenticated c player blocked).bound = some player := rfl

theorem sane_connect {session : SessionId} {c : Conn} {blocked : Bool} {row : PlayerRow}
    (hsane : srv.Sane) (hconn : srv.conns session = some c) (hphase : c.phase = .init blocked row)
    (hopen : srv.lifecycleOpen = true) :
    ((srv.enqueueLifecycle ⟨row.id, session, .connect row⟩).1.setConn session
      (authenticated c row.id blocked)).Sane := by
  have hc := hsane.conn session c hconn
  have hbound : c.bound = some row.id := by simp [Conn.bound, hphase]
  rw [enqueueLifecycle_of_open hopen]
  refine hsane.setConn hconn ⟨rfl, rfl, rfl, fun _ _ => rfl, fun _ _ _ => Iff.rfl, ?_⟩ ⟨?_, ?_, ?_⟩
    hsane.owner
  · intro s _ p
    simp
  · rw [bound_authenticated, ← hbound]
    exact hsane.isSome_playerOf hconn (by simp [hphase])
  · intro p
    rw [bound_authenticated, ← hbound]
    exact hc.inits p
  · intro _ p
    have hcount := hc.logout hopen p
    simpa [hphase, Phase.left, authenticated] using hcount

theorem sane_refuse {session : SessionId} {c : Conn} {blocked : Bool} {row : PlayerRow}
    (hsane : srv.Sane) (hconn : srv.conns session = some c) (hphase : c.phase = .init blocked row)
    (hopen : srv.lifecycleOpen = false) :
    ({ srv with hub := (srv.hub.kickSession session).1 }.setConn session
      (authenticated c row.id blocked)).Sane := by
  have hc := hsane.conn session c hconn
  have hbound : c.bound = some row.id := by simp [Conn.bound, hphase]
  refine hsane.setConn hconn ⟨rfl, by simp, rfl, by simp, fun _ _ _ => Iff.rfl, fun _ _ _ => rfl⟩
    ⟨?_, ?_, ?_⟩ (by simpa using hsane.owner)
  · rw [bound_authenticated, ← hbound, SessionHub.playerOf_kickSession]
    exact hsane.isSome_playerOf hconn (by simp [hphase])
  · intro p
    rw [bound_authenticated, ← hbound]
    exact hc.inits p
  · intro hopen'
    exact absurd hopen' (by simp [hopen])

theorem sane_disconnect {session : SessionId} {c : Conn} {player : PlayerId}
    (hsane : srv.Sane) (hconn : srv.conns session = some c) (hphase : c.phase = .disconnecting)
    (hplayer : c.auth.playerId = some player) :
    ((srv.enqueueLifecycle ⟨player, session, .disconnect⟩).1.setConn session
      { c with phase := .closing }).Sane := by
  have hc := hsane.conn session c hconn
  have hbound : c.bound = some player := by simp [Conn.bound, hphase, hplayer]
  have hbound' : Conn.bound { c with phase := .closing } = some player := hplayer
  have hplayerOf := hsane.isSome_playerOf hconn (by simp [hphase])
  cases hopen : srv.lifecycleOpen with
  | false =>
      rw [enqueueLifecycle_of_closed hopen]
      refine hsane.setConn hconn (.refl srv session) ⟨?_, ?_, ?_⟩ hsane.owner
      · rw [hbound', ← hbound]
        exact hplayerOf
      · intro p
        rw [hc.inits, hbound, hbound']
      · intro hopen'
        exact absurd hopen' (by simp [hopen])
  | true =>
      rw [enqueueLifecycle_of_open hopen]
      refine hsane.setConn hconn ⟨rfl, rfl, rfl, fun _ _ => rfl, fun _ _ _ => Iff.rfl, ?_⟩ ⟨?_, ?_, ?_⟩
        hsane.owner
      · intro s hs p
        simp [Ne.symm hs]
      · rw [hbound', ← hbound]
        exact hplayerOf
      · intro p
        rw [hc.inits, hbound, hbound']
      · intro _ p
        have hcount := hc.logout hopen p
        rw [hphase, if_neg (by simp [Phase.left])] at hcount
        simp only [List.count_append, hcount, List.count_singleton, hbound', Phase.left]
        simp

theorem sane_close {session : SessionId} {c : Conn} (hsane : srv.Sane)
    (hconn : srv.conns session = some c) (hphase : c.phase = .closing) :
    ({ srv with hub := (srv.hub.close session).1 }.setConn session
      { c with phase := .ended false }).Sane := by
  have hc := hsane.conn session c hconn
  have hbound : c.bound = c.auth.playerId := by simp [Conn.bound, hphase]
  have hplayerOf := hsane.isSome_playerOf hconn (by simp [hphase])
  obtain ⟨hnext, hplayers, hplayer, -⟩ := SessionHub.close_spec hplayerOf
  refine hsane.setConn hconn ⟨rfl, hnext, rfl, ?_, fun _ _ _ => Iff.rfl, fun _ _ _ => rfl⟩ ⟨?_, ?_, ?_⟩ ?_
  · intro s hs
    rw [hplayer, if_neg hs]
  · simp [hplayer]
  · intro p
    rw [hc.inits, hbound]
    rfl
  · intro hopen p
    have hcount := hc.logout hopen p
    simpa [hphase, Phase.left, Conn.bound] using hcount
  · intro p s hs
    simp only [hplayers] at hs
    split at hs
    · cases hs
    · rename_i hkept
      have howner := hsane.owner p s hs
      have hne : s ≠ session := by
        rintro rfl
        rw [hplayerOf] at howner
        exact hkept ⟨Option.some.inj howner, hs⟩
      simp only [hplayer, if_neg hne, howner]

theorem sane_moved {session : SessionId} {c : Conn} {e : ConnEvent} (hsane : srv.Sane)
    (hconn : srv.conns session = some c) (h : Moved cfg srv session c e srv') : srv'.Sane := by
  cases h with
  | on c' hon hfails => exact sane_on hsane hconn hon
  | bind c' hub blocked row hrun hnone hnone' hphase hbind hfails =>
      exact sane_bind hsane hconn hrun hnone hphase hbind
  | skip c' hub row hrun hrun' hbind hfails =>
      obtain ⟨hub', heq, -⟩ := SessionHub.bindPlayer_spec row.id
        (hsane.isSome_playerOf hconn (c.ne_ended_of_running hrun false))
      cases hbind.symm.trans heq
  | connect blocked row hphase hopen hfails => exact sane_connect hsane hconn hphase hopen
  | refuse blocked row hphase hopen hfails => exact sane_refuse hsane hconn hphase hopen
  | disconnect player hphase hplayer hfails => exact sane_disconnect hsane hconn hphase hplayer
  | close hphase hfails => exact sane_close hsane hconn hphase

theorem sane_accept (hsane : srv.Sane) (sid : String) :
    ({ srv with hub := srv.hub.open.1 }.setConn srv.hub.open.2 (.accepted sid)).Sane := by
  obtain ⟨hid, hnext, hplayers, hplayer, -⟩ := SessionHub.open_spec srv.hub
  have hnone := hsane.fresh srv.hub.nextId (Nat.le_refl _)
  obtain ⟨hclosed, hsent⟩ := hsane.noConn srv.hub.nextId hnone
  rw [hid]
  refine ⟨?_, ?_, ?_, ?_⟩
  · intro s hs
    have hs' : srv.hub.nextId + 1 ≤ s := by simpa [hnext] using hs
    rw [setConn_conns, if_neg (Nat.ne_of_gt hs')]
    exact hsane.fresh s (Nat.le_of_succ_le hs')
  · intro s hs
    rw [setConn_conns] at hs
    split at hs
    · cases hs
    · rename_i hne
      obtain ⟨hplayer', hsent'⟩ := hsane.noConn s hs
      refine ⟨?_, hsent'⟩
      simp only [setConn_hub, hplayer, if_neg hne, hplayer']
  · intro s c hs
    rw [setConn_conns] at hs
    split at hs
    · rename_i heq
      cases heq
      cases hs
      refine ⟨?_, ?_, ?_⟩
      · simp only [setConn_hub, hplayer, if_true]
        rfl
      · intro p
        exact iff_of_false (hsent p).1 (by simp [Conn.bound, Conn.accepted, AuthState.playerId])
      · intro _ p
        exact (hsent p).2
    · rename_i hne
      have hc := hsane.conn s c hs
      refine ⟨?_, hc.inits, hc.logout⟩
      simp only [setConn_hub, hplayer, if_neg hne]
      exact hc.playerOf
  · intro p s hs
    simp only [setConn_hub, hplayers] at hs
    have howner := hsane.owner p s hs
    simp only [setConn_hub, hplayer]
    rw [if_neg, howner]
    rintro rfl
    rw [hclosed] at howner
    cases howner

theorem sane_start : (start : Server P).Sane where
  fresh := fun _ _ => rfl
  noConn := fun _ _ => ⟨rfl, fun _ => ⟨List.not_mem_nil, rfl⟩⟩
  conn := by
    intro s c hs
    cases hs
  owner := by
    intro p s hs
    cases hs

theorem sane_step {e : ServerEvent} (hsane : srv.Sane) (h : step cfg ops srv e = some srv') :
    srv'.Sane := by
  cases e with
  | accept sid =>
      cases h
      exact sane_accept hsane sid
  | conn session e =>
      obtain ⟨c, hconn, hstep⟩ := Option.bind_eq_some_iff.mp h
      exact sane_moved hsane hconn (connStep_moved hstep)
  | kick session =>
      cases h
      refine ⟨?_, ?_, ?_, ?_⟩
      · simpa using hsane.fresh
      · simpa using hsane.noConn
      · intro s c hs
        have hc := hsane.conn s c hs
        exact ⟨by simpa using hc.playerOf, hc.inits, hc.logout⟩
      · simpa using hsane.owner
  | apply =>
      simp only [step] at h
      split at h
      · cases h
      · cases h
        exact ⟨hsane.fresh, hsane.noConn,
          fun s c hs => ⟨(hsane.conn s c hs).playerOf, (hsane.conn s c hs).inits, (hsane.conn s c hs).logout⟩,
          hsane.owner⟩
  | closeLifecycle =>
      cases h
      refine ⟨hsane.fresh, hsane.noConn, ?_, hsane.owner⟩
      intro s c hs
      have hc := hsane.conn s c hs
      exact ⟨hc.playerOf, hc.inits, by simp⟩

theorem sane_run {es : List ServerEvent} (h : run (step cfg ops) start es = some srv) : srv.Sane :=
  run_preserves sane_start (fun _ _ _ _ hsane hstep => sane_step hsane hstep) h

end Server

end OpenMines
