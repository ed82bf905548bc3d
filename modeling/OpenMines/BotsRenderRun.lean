import OpenMines.BotsRender
import OpenMines.SingleSession

namespace OpenMines

open Lib.Run

namespace BotsRenderSchedule

variable {active : PlayerId → Option SessionId} {now limit nextAt : Nat} {s : BotsRenderSchedule} {due : BotsRenderDue}

theorem mem_schedule {entry : BotsRenderDue} : entry ∈ s.schedule due ↔ entry = due ∨ entry ∈ s :=
  List.mem_orderedInsert BotsRenderDue.Before

theorem countP_schedule (p : BotsRenderDue → Bool) :
    (s.schedule due).countP p = s.countP p + if p due then 1 else 0 := by
  rw [schedule, (List.perm_orderedInsert BotsRenderDue.Before due s).countP_eq, List.countP_cons]

/-- What is taken and what stays come from the schedule. -/
theorem takeDue_sublist (active : PlayerId → Option SessionId) (now : Nat) (s : BotsRenderSchedule) (limit : Nat) :
    ((takeDue active now s limit).1 ++ (takeDue active now s limit).2).Sublist s := by
  induction s generalizing limit with
  | nil => cases limit <;> exact .refl []
  | cons due rest ih =>
      cases limit with
      | zero => exact .refl _
      | succ limit =>
          rw [takeDue]
          split
          · exact .refl _
          · split
            · exact (ih limit).cons_cons due
            · exact (ih (limit + 1)).cons due

/-- An entry of an active session is taken or stays. -/
theorem mem_takeDue (hmem : due ∈ s) (hactive : active due.playerId = some due.sessionToken) :
    due ∈ (takeDue active now s limit).1 ++ (takeDue active now s limit).2 := by
  induction s generalizing limit with
  | nil => exact absurd hmem List.not_mem_nil
  | cons first rest ih =>
      cases limit with
      | zero => exact hmem
      | succ limit =>
          rw [takeDue]
          split
          · exact hmem
          · rcases List.mem_cons.mp hmem with rfl | hrest
            · rw [if_pos hactive]
              exact List.mem_cons_self
            · split
              · exact List.mem_cons_of_mem _ (ih hrest)
              · exact ih hrest

theorem mem_reschedule_of_mem (h : due ∈ s) (first : BotsRenderDue) : due ∈ s.reschedule active first nextAt := by
  rw [reschedule]
  split
  · exact mem_schedule.mpr (.inr h)
  · exact h

theorem mem_reschedule (hactive : active due.playerId = some due.sessionToken) :
    { due with dueAt := nextAt } ∈ s.reschedule active due nextAt := by
  rw [reschedule, if_pos hactive]
  exact mem_schedule.mpr (.inl rfl)

theorem countP_reschedule_le {p : BotsRenderDue → Bool} (hp : p { due with dueAt := nextAt } = p due) :
    (s.reschedule active due nextAt).countP p ≤ s.countP p + if p due then 1 else 0 := by
  rw [reschedule]
  split
  · rw [countP_schedule, hp]
  · exact Nat.le_add_right _ _

/-- The entries in which a batch ends, one after another. -/
def rescheduleAll (active : PlayerId → Option SessionId) (nextAt : Nat) (s : BotsRenderSchedule)
    (dues : List BotsRenderDue) : BotsRenderSchedule :=
  dues.foldl (fun s due => s.reschedule active due nextAt) s

theorem mem_rescheduleAll_of_mem (h : due ∈ s) (dues : List BotsRenderDue) :
    due ∈ rescheduleAll active nextAt s dues := by
  induction dues generalizing s with
  | nil => exact h
  | cons first dues ih => exact ih (mem_reschedule_of_mem h first)

theorem mem_rescheduleAll {dues : List BotsRenderDue} (h : due ∈ dues)
    (hactive : active due.playerId = some due.sessionToken) :
    { due with dueAt := nextAt } ∈ rescheduleAll active nextAt s dues := by
  induction dues generalizing s with
  | nil => exact absurd h List.not_mem_nil
  | cons first dues ih =>
      rcases List.mem_cons.mp h with rfl | hrest
      · exact mem_rescheduleAll_of_mem (mem_reschedule hactive) dues
      · exact ih hrest

theorem countP_rescheduleAll_le {p : BotsRenderDue → Bool} (hp : ∀ due, p { due with dueAt := nextAt } = p due)
    (dues : List BotsRenderDue) : (rescheduleAll active nextAt s dues).countP p ≤ s.countP p + dues.countP p := by
  induction dues generalizing s with
  | nil => exact Nat.le_refl _
  | cons first dues ih =>
      have hfirst : (s.reschedule active first nextAt).countP p ≤ s.countP p + if p first then 1 else 0 :=
        countP_reschedule_le (hp first)
      refine (@ih (s.reschedule active first nextAt)).trans ?_
      rw [List.countP_cons]
      omega

end BotsRenderSchedule

def botsRenderInterval : Nat := 4000000000

namespace BotsRenderSchedule

variable {active : PlayerId → Option SessionId} {tickBudget now : Nat} {s : BotsRenderSchedule}
  {result : BotsRenderBatchResult} {due : BotsRenderDue}

/-- The end of `render_bots`. -/
def rescheduleBatch (active : PlayerId → Option SessionId) (tickBudget now : Nat) (s : BotsRenderSchedule)
    (result : BotsRenderBatchResult) : BotsRenderSchedule :=
  rescheduleAll active (now + tickBudget) (rescheduleAll active (now + botsRenderInterval) s result.completed)
    result.deferred

theorem mem_rescheduleBatch_of_mem (h : due ∈ s) (result : BotsRenderBatchResult) :
    due ∈ s.rescheduleBatch active tickBudget now result :=
  mem_rescheduleAll_of_mem (mem_rescheduleAll_of_mem h _) _

theorem mem_rescheduleBatch_completed (h : due ∈ result.completed)
    (hactive : active due.playerId = some due.sessionToken) :
    { due with dueAt := now + botsRenderInterval } ∈ s.rescheduleBatch active tickBudget now result :=
  mem_rescheduleAll_of_mem (mem_rescheduleAll h hactive) _

theorem mem_rescheduleBatch_deferred (h : due ∈ result.deferred)
    (hactive : active due.playerId = some due.sessionToken) :
    { due with dueAt := now + tickBudget } ∈ s.rescheduleBatch active tickBudget now result :=
  mem_rescheduleAll h hactive

theorem countP_rescheduleBatch_le {p : BotsRenderDue → Bool} (hp : ∀ due nextAt, p { due with dueAt := nextAt } = p due)
    (result : BotsRenderBatchResult) : (s.rescheduleBatch active tickBudget now result).countP p ≤
      s.countP p + (result.completed ++ result.deferred).countP p := by
  rw [List.countP_append, ← Nat.add_assoc]
  refine (countP_rescheduleAll_le (fun due => hp due _) _).trans ?_
  exact Nat.add_le_add_right (countP_rescheduleAll_le (fun due => hp due _) _) _

end BotsRenderSchedule

def botsRenderObserverBudget : Nat := 32

def botsRenderByteBudget : Nat := 1024 * 1024

/-- The server with the schedule of the rendering; `taken` is what waits to be rendered in this tick. -/
structure RenderedServer (P : Type) where
  srv : Server P
  schedule : BotsRenderSchedule
  slotSeq : Nat
  taken : List BotsRenderDue

inductive RenderEvent
  | server (e : ServerEvent) (now : Nat)
  | take (now : Nat)
  /-- `world` has the players and the spots as they are in the chunks now. -/
  | render (world : OverlayWorld) (now : Nat)

/-- The schedules of a tick, in nanoseconds but for the rate of the game loop. -/
structure TickRate where
  tickMs : Nat
  tickBudget : Nat

/-- The first rendering for a session: the sessions take turns among the ticks of an interval. -/
def TickRate.registerDueAt (rate : TickRate) (slotSeq now : Nat) : Nat :=
  let tickMs := max rate.tickMs 1
  let slots := max (4000 / tickMs) 1
  now + tickMs * (slotSeq % slots + 1) * 1000000

namespace RenderedServer

variable {P : Type}

/-- Whom the event registers as an active player. -/
def registers (srv : Server P) : ServerEvent → Option (PlayerId × SessionId)
  | .apply =>
      match srv.lifecycle with
      | ⟨_, session, .connect row⟩ :: _ => if srv.hub.isOpen session then some (row.id, session) else none
      | _ => none
  | _ => none

/-- `render_bots`, without what it publishes. -/
def renderBots (rate : TickRate) (s : RenderedServer P) (world : OverlayWorld) (now : Nat) : BotsRenderSchedule :=
  s.schedule.rescheduleBatch s.srv.game.activeSession rate.tickBudget now
    ({ world with session := s.srv.hub.sessionForPlayer }.botsRenderBatch s.taken botsRenderByteBudget)

def step (cfg : AuthConfig) (ops : PlayerOps P) (rate : TickRate) (s : RenderedServer P) :
    RenderEvent → Option (RenderedServer P)
  | .server e now =>
      (s.srv.step cfg ops e).map fun srv =>
        match registers s.srv e with
        | some (player, session) =>
            { s with
              srv
              schedule := s.schedule.schedule ⟨rate.registerDueAt s.slotSeq now, player, session⟩
              slotSeq := s.slotSeq + 1 }
        | none => { s with srv }
  | .take now =>
      let taken := s.schedule.takeDue s.srv.game.activeSession now botsRenderObserverBudget
      some { s with schedule := taken.2, taken := s.taken ++ taken.1 }
  | .render world now => some { s with schedule := s.renderBots rate world now, taken := [] }

def start : RenderedServer P := ⟨.start, [], 0, []⟩

def entries (s : RenderedServer P) : List BotsRenderDue := s.schedule ++ s.taken

/-- How many entries the session has. -/
def tokens (entries : List BotsRenderDue) (session : SessionId) : Nat :=
  entries.countP fun due => due.sessionToken = session

def isConnect : LifecycleCommand → Bool
  | .connect _ => true
  | .disconnect => false

/-- How many logins of the session wait in the queue. -/
def pending (lifecycle : List QueuedLifecycle) (session : SessionId) : Nat :=
  lifecycle.countP fun q => decide (q.sessionId = session) && isConnect q.command

/-- A session logs in once: a login that waits, or one entry. -/
structure ConnectsOnce (srv : Server P) (held : SessionId → Nat) : Prop where
  once : ∀ session, held session + pending srv.lifecycle session ≤ 1
  fresh : ∀ session, (∀ c, srv.conns session = some c → c.auth.playerId = none) →
    held session + pending srv.lifecycle session = 0
  init : ∀ session c blocked row, srv.conns session = some c → c.phase = .init blocked row →
    c.auth.playerId = none

variable {cfg : AuthConfig} {ops : PlayerOps P} {rate : TickRate} {srv srv' : Server P} {held : SessionId → Nat}
  {session : SessionId} {c c' : Conn}

/-- After a step of a handler that sends no login. -/
theorem ConnectsOnce.setConn (h : ConnectsOnce srv held) (hconn : srv.conns session = some c)
    (hconns : srv'.conns = srv.conns) (hpending : ∀ s, pending srv'.lifecycle s = pending srv.lifecycle s)
    (hauth : c'.auth.playerId = none → c.auth.playerId = none)
    (hinit : ∀ blocked row, c'.phase = .init blocked row → c'.auth.playerId = none) :
    ConnectsOnce (srv'.setConn session c') held where
  once s := by
    rw [Server.setConn_lifecycle, hpending]
    exact h.once s
  fresh s hnone := by
    rw [Server.setConn_lifecycle, hpending]
    refine h.fresh s fun d hd => ?_
    by_cases hs : s = session
    · subst hs
      obtain rfl := Option.some.inj (hconn.symm.trans hd)
      exact hauth (hnone c' (by rw [Server.setConn_conns, if_pos rfl]))
    · exact hnone d (by rw [Server.setConn_conns, if_neg hs, hconns, hd])
  init s d blocked row hd hphase := by
    rw [Server.setConn_conns] at hd
    split at hd
    · obtain rfl := Option.some.inj hd
      exact hinit blocked row hphase
    · exact h.init s d blocked row (hconns ▸ hd) hphase

theorem pending_append (lifecycle sent : List QueuedLifecycle) (session : SessionId) :
    pending (lifecycle ++ sent) session = pending lifecycle session + pending sent session := List.countP_append

/-- Where a handler sends its login. -/
theorem ConnectsOnce.connect (h : ConnectsOnce srv held) (hconn : srv.conns session = some c) (blocked : Bool)
    {row : PlayerRow} (hphase : c.phase = .init blocked row) (hopen : srv.lifecycleOpen = true) :
    ConnectsOnce ((srv.enqueueLifecycle ⟨row.id, session, .connect row⟩).1.setConn session
      (Server.authenticated c row.id blocked)) held := by
  have hzero : held session + pending srv.lifecycle session = 0 := by
    refine h.fresh session fun d hd => ?_
    obtain rfl := Option.some.inj (hconn.symm.trans hd)
    exact h.init session c blocked row hconn hphase
  rw [Server.enqueueLifecycle_of_open hopen]
  have hsent (s : SessionId) : pending [⟨row.id, session, .connect row⟩] s = if session = s then 1 else 0 := by
    by_cases hs : session = s <;> simp [pending, isConnect, hs]
  refine ⟨fun s => ?_, fun s hnone => ?_, fun s d blocked' row' hd hphase' => ?_⟩
  · rw [Server.setConn_lifecycle, pending_append, hsent]
    split
    · rename_i hs
      subst hs
      omega
    · exact h.once s
  · rw [Server.setConn_lifecycle, pending_append, hsent]
    split
    · rename_i hs
      subst hs
      have hsome := hnone _ (by rw [Server.setConn_conns, if_pos rfl])
      exact absurd hsome (Option.some_ne_none _)
    · rename_i hs
      exact h.fresh s fun d hd => hnone d (by rw [Server.setConn_conns, if_neg (Ne.symm hs)]; exact hd)
  · rw [Server.setConn_conns] at hd
    split at hd
    · obtain rfl := Option.some.inj hd
      cases hphase'
    · exact h.init s d blocked' row' hd hphase'

theorem ConnectsOnce.moved {e : ConnEvent} (h : ConnectsOnce srv held) (hsane : srv.Sane)
    (hconn : srv.conns session = some c) (hmoved : Server.Moved cfg srv session c e srv') :
    ConnectsOnce srv' held := by
  cases hmoved with
  | on c' hon hfails =>
      refine h.setConn hconn rfl (fun _ => rfl) (fun hnone => hon.player ▸ hnone) fun blocked row hphase => ?_
      have hwaits := hon.waiting
      rw [hphase] at hwaits
      cases hwaits
  | bind c' hub blocked row hrun hnone hnone' hphase hbind hfails =>
      exact h.setConn hconn rfl (fun _ => rfl) (fun _ => hnone) fun _ _ _ => hnone'
  | skip c' hub row hrun hrun' hbind hfails =>
      obtain ⟨hub', heq, -⟩ := SessionHub.bindPlayer_spec row.id
        (hsane.isSome_playerOf hconn (c.ne_ended_of_running hrun false))
      cases hbind.symm.trans heq
  | connect blocked row hphase hopen hfails => exact h.connect hconn blocked hphase hopen
  | refuse blocked row hphase hopen hfails =>
      refine h.setConn hconn rfl (fun _ => rfl) (fun hnone => absurd hnone (Option.some_ne_none _)) ?_
      intro blocked' row' hphase'
      cases hphase'
  | disconnect player hphase hplayer hfails =>
      refine h.setConn hconn (Server.conns_enqueueLifecycle _) (fun s => ?_) (fun hnone => hnone) ?_
      · cases hopen : srv.lifecycleOpen with
        | true =>
            rw [Server.enqueueLifecycle_of_open hopen, pending_append]
            simp [pending, isConnect]
        | false => rw [Server.enqueueLifecycle_of_closed hopen]
      · intro blocked row hphase'
        cases hphase'
  | close hphase hfails =>
      refine h.setConn hconn rfl (fun _ => rfl) (fun hnone => hnone) ?_
      intro blocked row hphase'
      cases hphase'

/-- Where no login is sent and no entry comes without one. -/
theorem ConnectsOnce.mono {held' : SessionId → Nat} (h : ConnectsOnce srv held) (hconns : srv'.conns = srv.conns)
    (hle : ∀ s, held' s + pending srv'.lifecycle s ≤ held s + pending srv.lifecycle s) :
    ConnectsOnce srv' held' where
  once s := (hle s).trans (h.once s)
  fresh s hnone := by
    have hzero := h.fresh s fun c hc => hnone c (hconns ▸ hc)
    exact Nat.le_zero.mp (hzero ▸ hle s)
  init s d blocked row hd := h.init s d blocked row (hconns ▸ hd)

theorem ConnectsOnce.accept (h : ConnectsOnce srv held) (hsane : srv.Sane) (sid : String) :
    ConnectsOnce ({ srv with hub := srv.hub.open.1 }.setConn srv.hub.open.2 (.accepted sid)) held where
  once := h.once
  fresh s hnone := by
    refine h.fresh s fun c hc => ?_
    have hne : s ≠ srv.hub.open.2 := by
      rintro rfl
      cases hc.symm.trans (hsane.fresh _ (Nat.le_refl _))
    exact hnone c (by rw [Server.setConn_conns, if_neg hne]; exact hc)
  init s d blocked row hd hphase := by
    rw [Server.setConn_conns] at hd
    split at hd
    · obtain rfl := Option.some.inj hd
      cases hphase
    · exact h.init s d blocked row hd hphase

theorem pending_cons (q : QueuedLifecycle) (rest : List QueuedLifecycle) (session : SessionId) :
    pending (q :: rest) session = pending rest session + if q.sessionId = session ∧ isConnect q.command then 1 else 0 := by
  simp [pending, List.countP_cons]

theorem registers_connect {row : PlayerRow} {player : PlayerId} {rest : List QueuedLifecycle}
    (hqueue : srv.lifecycle = ⟨player, session, .connect row⟩ :: rest) :
    registers srv .apply = if srv.hub.isOpen session then some (row.id, session) else none := by
  simp only [registers, hqueue]

theorem registers_disconnect {player : PlayerId} {rest : List QueuedLifecycle}
    (hqueue : srv.lifecycle = ⟨player, session, .disconnect⟩ :: rest) : registers srv .apply = none := by
  simp only [registers, hqueue]

/-- Whom a step registers, that session has waited with its login. -/
theorem ConnectsOnce.step {e : ServerEvent} (h : ConnectsOnce srv held) (hsane : srv.Sane)
    (hstep : srv.step cfg ops e = some srv') : ConnectsOnce srv' fun session =>
      held session + if ((registers srv e).any fun player => player.2 = session) then 1 else 0 := by
  cases e with
  | accept sid =>
      cases hstep
      exact h.accept hsane sid
  | conn session e =>
      obtain ⟨c, hconn, hmove⟩ := Option.bind_eq_some_iff.mp hstep
      exact h.moved hsane hconn (Server.connStep_moved hmove)
  | kick session =>
      cases hstep
      exact h.mono rfl fun _ => Nat.le_refl _
  | closeLifecycle =>
      cases hstep
      exact h.mono rfl fun _ => Nat.le_refl _
  | apply =>
      rw [Server.step] at hstep
      split at hstep
      · cases hstep
      · rename_i q rest hqueue
        cases hstep
        refine h.mono rfl fun s => ?_
        rw [hqueue, pending_cons]
        obtain ⟨player, session, command⟩ := q
        cases command with
        | disconnect => simp [registers_disconnect hqueue]
        | connect row =>
            rw [registers_connect hqueue]
            by_cases hopen : srv.hub.isOpen session = true
            · rw [if_pos hopen]
              by_cases hs : session = s
              · simp [hs, isConnect]
                omega
              · simp [hs]
            · rw [if_neg hopen]
              simp

/-- Only a registration makes a session active. -/
theorem activeSession_step {e : ServerEvent} (hstep : srv.step cfg ops e = some srv') {p : PlayerId}
    (h : srv'.game.activeSession p = some session) :
    srv.game.activeSession p = some session ∨ registers srv e = some (p, session) := by
  cases e with
  | accept sid =>
      cases hstep
      exact .inl h
  | conn s e =>
      obtain ⟨c, hconn, hmove⟩ := Option.bind_eq_some_iff.mp hstep
      rw [Server.game_of_moved (Server.connStep_moved hmove)] at h
      exact .inl h
  | kick s =>
      cases hstep
      exact .inl h
  | closeLifecycle =>
      cases hstep
      exact .inl h
  | apply =>
      rw [Server.step] at hstep
      split at hstep
      · cases hstep
      · rename_i q rest hqueue
        cases hstep
        obtain ⟨player, s, command⟩ := q
        cases command with
        | disconnect =>
            change (srv.game.disconnectInTick ops player s).1.activeSession p = some session at h
            refine .inl ?_
            by_cases hactive : srv.game.activeSession player = some s
            · rw [GameState.activeSession_disconnect hactive] at h
              split at h
              · cases h
              · exact h
            · rwa [GameState.disconnectInTick_stale hactive] at h
        | connect row =>
            change (srv.game.connectEntityInTick ops srv.hub row s).activeSession p = some session at h
            rw [registers_connect hqueue]
            cases hopen : srv.hub.isOpen s with
            | false =>
                rw [GameState.connectEntityInTick_closed hopen] at h
                exact .inl h
            | true =>
                rw [GameState.activeSession_connect hopen] at h
                split at h
                · rename_i hp
                  obtain rfl := Option.some.inj h
                  exact .inr (by rw [if_pos rfl, hp])
                · exact .inl h

/-- The entries of a server: those of sessions that log in once, and one for each active session. -/
structure Sound (s : RenderedServer P) : Prop where
  sane : s.srv.Sane
  connects : ConnectsOnce s.srv (tokens s.entries)
  held : ∀ p session, s.srv.game.activeSession p = some session →
    ∃ due ∈ s.entries, due.playerId = p ∧ due.sessionToken = session

theorem sound_start : (start : RenderedServer P).Sound where
  sane := Server.sane_start
  connects := ⟨fun _ => Nat.zero_le _, fun _ _ => rfl, fun _ _ _ _ hconn => absurd hconn (Option.some_ne_none _).symm⟩
  held _ _ h := absurd h (Option.some_ne_none _).symm

variable {s s' : RenderedServer P}

/-- Where the server stays as it is and no entry of an active session is lost or doubled. -/
theorem Sound.entries (h : s.Sound) (hsrv : s'.srv = s.srv)
    (hle : ∀ session, tokens s'.entries session ≤ tokens s.entries session)
    (hkept : ∀ due ∈ s.entries, s.srv.game.activeSession due.playerId = some due.sessionToken →
      ∃ due' ∈ s'.entries, due'.playerId = due.playerId ∧ due'.sessionToken = due.sessionToken) : s'.Sound where
  sane := hsrv ▸ h.sane
  connects := h.connects.mono (congrArg Server.conns hsrv) fun session => by
    rw [hsrv]
    exact Nat.add_le_add_right (hle session) _
  held p session hactive := by
    rw [hsrv] at hactive
    obtain ⟨due, hmem, rfl, rfl⟩ := h.held p session hactive
    exact hkept due hmem hactive

theorem Sound.server {e : ServerEvent} {now : Nat} (h : s.Sound)
    (hstep : s.step cfg ops rate (.server e now) = some s') : s'.Sound := by
  obtain ⟨srv, hsrv, hs'⟩ := Option.map_eq_some_iff.mp hstep
  have hconnects := h.connects.step h.sane hsrv
  have hsane := Server.sane_step h.sane hsrv
  cases hreg : registers s.srv e with
  | none =>
      rw [hreg] at hs' hconnects
      subst hs'
      refine ⟨hsane, hconnects, fun p session hactive => ?_⟩
      rcases activeSession_step hsrv hactive with hbefore | hnow
      · exact h.held p session hbefore
      · cases hreg.symm.trans hnow
  | some registered =>
      obtain ⟨player, token⟩ := registered
      rw [hreg] at hs' hconnects
      subst hs'
      refine ⟨hsane, hconnects.mono rfl fun session => ?_, fun p session hactive => ?_⟩
      · simp only [tokens, RenderedServer.entries, List.countP_append, BotsRenderSchedule.countP_schedule,
          Option.any_some]
        omega
      · rcases activeSession_step hsrv hactive with hbefore | hnow
        · obtain ⟨due, hmem, hdue⟩ := h.held p session hbefore
          refine ⟨due, ?_, hdue⟩
          rcases List.mem_append.mp hmem with hmem | hmem
          · exact List.mem_append_left _ (BotsRenderSchedule.mem_schedule.mpr (.inr hmem))
          · exact List.mem_append_right _ hmem
        · cases hreg.symm.trans hnow
          exact ⟨_, List.mem_append_left _ (BotsRenderSchedule.mem_schedule.mpr (.inl rfl)), rfl, rfl⟩

theorem Sound.take {now : Nat} (h : s.Sound) (hstep : s.step cfg ops rate (.take now) = some s') : s'.Sound := by
  obtain rfl := Option.some.inj hstep
  refine h.entries rfl (fun session => ?_) fun due hmem hactive => ?_
  · have hsub := (BotsRenderSchedule.takeDue_sublist s.srv.game.activeSession now s.schedule
      botsRenderObserverBudget).countP_le (p := fun due => due.sessionToken = session)
    simp only [tokens, RenderedServer.entries, List.countP_append] at hsub ⊢
    omega
  · refine ⟨due, ?_, rfl, rfl⟩
    rcases List.mem_append.mp hmem with hmem | hmem
    · rcases List.mem_append.mp (BotsRenderSchedule.mem_takeDue hmem hactive) with htaken | hstays
      · exact List.mem_append_right _ (List.mem_append_right _ htaken)
      · exact List.mem_append_left _ hstays
    · exact List.mem_append_right _ (List.mem_append_left _ hmem)

theorem Sound.render {world : OverlayWorld} {now : Nat} (h : s.Sound)
    (hstep : s.step cfg ops rate (.render world now) = some s') : s'.Sound := by
  obtain rfl := Option.some.inj hstep
  have hperm := ({ world with session := s.srv.hub.sessionForPlayer }.botsRenderBatch_spec s.taken
    botsRenderByteBudget).1
  refine h.entries rfl (fun session => ?_) fun due hmem hactive => ?_
  · rw [tokens, tokens, RenderedServer.entries, RenderedServer.entries, List.append_nil, List.countP_append,
      ← hperm.countP_eq]
    exact BotsRenderSchedule.countP_rescheduleBatch_le (fun _ _ => rfl) _
  · simp only [RenderedServer.entries, List.append_nil]
    rcases List.mem_append.mp hmem with hmem | hmem
    · exact ⟨due, BotsRenderSchedule.mem_rescheduleBatch_of_mem hmem _, rfl, rfl⟩
    · rcases List.mem_append.mp (hperm.mem_iff.mpr hmem) with hcompleted | hdeferred
      · exact ⟨_, BotsRenderSchedule.mem_rescheduleBatch_completed hcompleted hactive, rfl, rfl⟩
      · exact ⟨_, BotsRenderSchedule.mem_rescheduleBatch_deferred hdeferred hactive, rfl, rfl⟩

theorem sound_run {es : List RenderEvent} (h : run (step cfg ops rate) start es = some s) : s.Sound := by
  refine run_preserves sound_start (fun e _ u v hu hv => ?_) h
  cases e with
  | server e now => exact hu.server hv
  | take now => exact hu.take hv
  | render world now => exact hu.render hv

/-- A session has no entry but its own player's, and each active session has one. -/
theorem Sound.countP_entries {p : PlayerId} (h : s.Sound) (hactive : s.srv.game.activeSession p = some session) :
    s.entries.countP (fun due => due.playerId = p ∧ due.sessionToken = session) = 1 := by
  obtain ⟨due, hmem, hplayer, htoken⟩ := h.held p session hactive
  refine Nat.le_antisymm ?_ (List.countP_pos_iff.mpr ⟨due, hmem, by simp [hplayer, htoken]⟩)
  have hle : s.entries.countP (fun due => due.playerId = p ∧ due.sessionToken = session) ≤ tokens s.entries session :=
    List.countP_mono_left fun due _ hdue => by simpa using (of_decide_eq_true hdue).2
  exact hle.trans ((Nat.le_add_right _ _).trans (h.connects.once session))

/-- Each active session has one entry, a batch completes or defers each entry, and each is rescheduled while its
session is active. -/
theorem botsRender_once (cfg : AuthConfig) (ops : PlayerOps P) (rate : TickRate) {es : List RenderEvent}
    (h : run (step cfg ops rate) start es = some s) :
    (∀ p session, s.srv.game.activeSession p = some session →
      s.entries.countP (fun due => due.playerId = p ∧ due.sessionToken = session) = 1) ∧
    ∀ (world : OverlayWorld) (due : List BotsRenderDue) (byteBudget now : Nat),
      let result := world.botsRenderBatch due byteBudget
      let schedule := s.schedule.rescheduleBatch s.srv.game.activeSession rate.tickBudget now result
      (result.completed ++ result.deferred).Perm due ∧
      (byteBudget < result.bytesEnqueued → result.observersSent = 1) ∧
      (∀ entry ∈ result.completed, s.srv.game.activeSession entry.playerId = some entry.sessionToken →
        { entry with dueAt := now + botsRenderInterval } ∈ schedule) ∧
      ∀ entry ∈ result.deferred, s.srv.game.activeSession entry.playerId = some entry.sessionToken →
        { entry with dueAt := now + rate.tickBudget } ∈ schedule := by
  refine ⟨fun p session hactive => (sound_run h).countP_entries hactive, fun world due byteBudget now => ?_⟩
  obtain ⟨hperm, hover⟩ := world.botsRenderBatch_spec due byteBudget
  refine ⟨hperm, hover, fun entry hmem hactive => ?_, fun entry hmem hactive => ?_⟩
  · exact BotsRenderSchedule.mem_rescheduleBatch_completed hmem hactive
  · exact BotsRenderSchedule.mem_rescheduleBatch_deferred hmem hactive

def emptyOverlay : OverlayWorld where
  chunksW := 1
  chunksH := 1
  chunkCells := fun _ _ => 0
  playersInChunk := fun _ => []
  bot := fun _ => none
  botspotsInChunk := fun _ => []
  chunkBuildings := fun _ => []
  session := fun _ => none

/-- A login, its first rendering, and the entry for the next one. -/
theorem botsRender_once_login :
    ∃ s, run (step Server.sampleConfig Server.sampleOps ⟨10, 10000000⟩) start
      ((Server.loginRun 1 ++ [ServerEvent.apply]).map (RenderEvent.server · 0) ++ [.take 10000000, .render emptyOverlay 10000000]) = some s ∧
      s.srv.game.activeSession 7 = some 1 ∧
      s.entries.countP (fun due => due.playerId = 7 ∧ due.sessionToken = 1) = 1 := by
  have hrun : ∃ s, run (step Server.sampleConfig Server.sampleOps ⟨10, 10000000⟩) start
      ((Server.loginRun 1 ++ [ServerEvent.apply]).map (RenderEvent.server · 0) ++ [.take 10000000, .render emptyOverlay 10000000]) = some s ∧
      s.srv.game.activeSession 7 = some 1 := ⟨_, rfl, rfl⟩
  obtain ⟨s, hs, hactive⟩ := hrun
  exact ⟨s, hs, hactive, (botsRender_once _ _ _ hs).1 7 1 hactive⟩

end RenderedServer

end OpenMines
