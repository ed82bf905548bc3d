import OpenMines.Connection

namespace OpenMines

/-- The phases before the handler leaves its loop, the wait of `init_player` apart. -/
def Phase.running : Phase → Bool
  | .handshake | .loopHead | .select _ | .decode _ => true
  | .init _ _ | .disconnecting | .closing | .ended _ => false

namespace Conn

/-- The events that end `handle` with an error. -/
def Fails (cfg : AuthConfig) (c : Conn) : ConnEvent → Prop
  | .handshake written => written = false
  | .read .failed => True
  | .flush written => written = false
  | .decode db _ => ∃ step button rest, c.auth = .guiAuth step ∧ c.buf = .ty (some button) :: rest ∧
      Lib.Text.startsWith button "exit" = false ∧ DbErrorIn cfg db button step
  | _ => False

/-- Where a handler stands after an event that concerns it alone. -/
structure Continues (c c' : Conn) : Prop where
  running : c.phase.running = true
  player : c'.auth.playerId = c.auth.playerId
  phase : c'.phase.running = true ∨ c'.phase = .disconnecting ∧ c.auth.playerId.isSome ∨
    c'.phase = .closing ∧ c.auth.playerId = none ∨ c'.phase = .ended true

theorem Continues.stay {c c' : Conn} (hrun : c.phase.running = true)
    (hplayer : c'.auth.playerId = c.auth.playerId) (hrun' : c'.phase.running = true) : c.Continues c' :=
  ⟨hrun, hplayer, .inl hrun'⟩

theorem Continues.fail {c c' : Conn} (hrun : c.phase.running = true)
    (hplayer : c'.auth.playerId = c.auth.playerId) : c.Continues c'.fail :=
  ⟨hrun, hplayer, .inr (.inr (.inr rfl))⟩

theorem Continues.leave {c c' : Conn} (hrun : c.phase.running = true)
    (hplayer : c'.auth.playerId = c.auth.playerId) : c.Continues c'.leave := by
  refine ⟨hrun, hplayer, ?_⟩
  unfold Conn.leave
  rw [hplayer]
  cases hid : c.auth.playerId with
  | none => exact .inr (.inr (.inl ⟨rfl, rfl⟩))
  | some player => exact .inr (.inl ⟨rfl, rfl⟩)

theorem Continues.loopEnd {c c' : Conn} (hrun : c.phase.running = true)
    (hplayer : c'.auth.playerId = c.auth.playerId) (blocked : Bool) :
    c.Continues (c'.loopEnd blocked) := by
  unfold Conn.loopEnd
  split
  · exact .leave hrun hplayer
  · exact .stay hrun hplayer rfl

@[simp] theorem phase_leave_ne (c : Conn) (failed : Bool) : c.leave.phase ≠ .ended failed := by
  unfold leave
  cases c.auth.playerId <;> simp

@[simp] theorem phase_loopEnd_ne (c : Conn) (blocked failed : Bool) :
    (c.loopEnd blocked).phase ≠ .ended failed := by
  unfold loopEnd
  split <;> simp

end Conn

namespace Server

variable {P : Type}

/-- What an event of a connection can do to the server. -/
inductive Moved (cfg : AuthConfig) (srv : Server P) (session : SessionId) (c : Conn) (e : ConnEvent) :
    Server P → Prop
  | on (c' : Conn) (hon : c.Continues c') (hfails : c.Fails cfg e ↔ c'.phase = .ended true) :
      Moved cfg srv session c e (srv.setConn session c')
  | bind (c' : Conn) (hub : SessionHub) (blocked : Bool) (row : PlayerRow)
      (hrun : c.phase.running = true) (hnone : c.auth.playerId = none) (hnone' : c'.auth.playerId = none)
      (hphase : c'.phase = .init blocked row) (hbind : srv.hub.bindPlayer session row.id = (hub, true))
      (hfails : ¬ c.Fails cfg e) :
      Moved cfg srv session c e
        ({ srv with hub, inits := srv.inits ++ [(session, row.id)] }.setConn session c')
  | skip (c' : Conn) (hub : SessionHub) (row : PlayerRow) (hrun : c.phase.running = true)
      (hrun' : c'.phase.running = true) (hbind : srv.hub.bindPlayer session row.id = (hub, false))
      (hfails : ¬ c.Fails cfg e) :
      Moved cfg srv session c e
        ({ srv with inits := srv.inits ++ [(session, row.id)] }.setConn session c')
  | connect (blocked : Bool) (row : PlayerRow) (hphase : c.phase = .init blocked row)
      (hopen : srv.lifecycleOpen = true) (hfails : ¬ c.Fails cfg e) :
      Moved cfg srv session c e
        ((srv.enqueueLifecycle ⟨row.id, session, .connect row⟩).1.setConn session
          (authenticated c row.id blocked))
  | refuse (blocked : Bool) (row : PlayerRow) (hphase : c.phase = .init blocked row)
      (hopen : srv.lifecycleOpen = false) (hfails : ¬ c.Fails cfg e) :
      Moved cfg srv session c e
        ({ srv with hub := (srv.hub.kickSession session).1 }.setConn session
          (authenticated c row.id blocked))
  | disconnect (player : PlayerId) (hphase : c.phase = .disconnecting)
      (hplayer : c.auth.playerId = some player) (hfails : ¬ c.Fails cfg e) :
      Moved cfg srv session c e
        ((srv.enqueueLifecycle ⟨player, session, .disconnect⟩).1.setConn session
          { c with phase := .closing })
  | close (hphase : c.phase = .closing) (hfails : ¬ c.Fails cfg e) :
      Moved cfg srv session c e
        ({ srv with hub := (srv.hub.close session).1 }.setConn session { c with phase := .ended false })

theorem moved_initPlayer {cfg : AuthConfig} {srv : Server P} {session : SessionId} {c c' : Conn}
    {blocked : Bool} {row : PlayerRow} {e : ConnEvent} (hphase : c.phase = .decode blocked)
    (hnone : c.auth.playerId = none) (hnone' : c'.auth.playerId = none) (hfails : ¬ c.Fails cfg e) :
    Moved cfg srv session c e (srv.initPlayer session c' blocked row) := by
  have hrun : c.phase.running = true := by simp [hphase, Phase.running]
  unfold initPlayer
  simp only
  split
  · rename_i hub hbind
    exact .skip _ hub row hrun rfl hbind hfails
  · rename_i hub hbind
    exact .bind _ hub blocked row hrun hnone hnone' rfl hbind hfails

theorem moved_authStep {cfg : AuthConfig} {srv : Server P} {session : SessionId} {c c' : Conn}
    {blocked blocks : Bool} {outcome : AuthOutcome} {e : ConnEvent}
    (hphase : c.phase = .decode blocked) (hphase' : c'.phase = .decode blocked)
    (hnone : c.auth.playerId = none) (hnone' : c'.auth.playerId = none)
    (hgo : ∀ auth, outcome = .go auth → auth.playerId = none)
    (hfails : c.Fails cfg e ↔ outcome = .failed) :
    Moved cfg srv session c e (srv.authStep session c' blocked blocks outcome) := by
  have hrun : c.phase.running = true := by simp [hphase, Phase.running]
  cases outcome with
  | failed =>
      exact .on _ (.fail hrun (hnone'.trans hnone.symm)) (by simpa [Conn.fail] using hfails)
  | login row => exact moved_initPlayer hphase hnone hnone' (by simpa using hfails)
  | go auth =>
      have hauth : auth.playerId = c.auth.playerId := (hgo auth rfl).trans hnone.symm
      have hfails : ¬ c.Fails cfg e := by simpa using hfails
      cases blocks with
      | true => exact .on _ (.loopEnd hrun hauth blocked) (by simpa using hfails)
      | false =>
          exact .on _ (.stay hrun hauth (by simp [hphase', Phase.running]))
            (by simpa [hphase'] using hfails)

theorem moved_decodeStep {cfg : AuthConfig} {srv : Server P} {session : SessionId} {c : Conn}
    {blocked : Bool} (db : DbAnswers) (blocks : Bool) (hphase : c.phase = .decode blocked) :
    Moved cfg srv session c (.decode db blocks)
      (srv.decodeStep cfg session c blocked db blocks) := by
  have hrun : c.phase.running = true := by simp [hphase, Phase.running]
  unfold decodeStep
  split
  · rename_i hbuf
    exact .on _ (.loopEnd hrun rfl blocked) (by simp [Conn.Fails, hbuf])
  · rename_i rest hbuf
    exact .on _ (.loopEnd hrun rfl blocked) (by simp [Conn.Fails, hbuf])
  · rename_i packet rest hgarbage hbuf
    simp only
    split
    · rename_i au hauth
      refine moved_authStep hphase hphase (by rw [hauth]; rfl) (by simp only [hauth]; rfl)
        (fun _ => playerId_of_handleAuth) ?_
      simp [Conn.Fails, hauth, handleAuth_ne_failed]
    · rename_i step button hauth
      refine moved_authStep hphase hphase (by rw [hauth]; rfl) (by simp only [hauth]; rfl)
        (fun _ => playerId_of_handleGuiAuthFlow) ?_
      rw [handleGuiAuthFlow_eq_failed]
      simp [Conn.Fails, hauth, hbuf]
    · rename_i hau hty
      refine .on _ (.stay hrun rfl hrun) ?_
      simp only [hphase, reduceCtorEq, iff_false]
      rintro ⟨step, button, rest', hauth, hbuf', -⟩
      rw [hbuf, List.cons.injEq] at hbuf'
      exact hty step button hauth hbuf'.1

theorem connStep_moved {cfg : AuthConfig} {srv srv' : Server P} {session : SessionId} {c : Conn}
    {e : ConnEvent} (h : srv.connStep cfg session c e = some srv') :
    Moved cfg srv session c e srv' := by
  cases e with
  | handshake written =>
      simp only [connStep] at h
      split at h
      · rename_i hphase
        have hrun : c.phase.running = true := by simp [hphase, Phase.running]
        cases h
        cases written with
        | true => exact .on _ (.stay hrun rfl rfl) (by simp [Conn.Fails])
        | false => exact .on _ (.fail hrun rfl) (by simp [Conn.Fails, Conn.fail])
      · cases h
  | loopHead blocked =>
      simp only [connStep] at h
      split at h
      · rename_i hphase
        cases h
        exact .on _ (.stay (by simp [hphase, Phase.running]) rfl rfl) (by simp [Conn.Fails])
      · cases h
  | kicked =>
      simp only [connStep] at h
      split at h
      · rename_i hphase
        split at h
        · cases h
          exact .on _ (.leave (by simp [hphase, Phase.running]) rfl) (by simp [Conn.Fails])
        · cases h
      · cases h
  | overflow =>
      simp only [connStep] at h
      split at h
      · rename_i hphase
        cases h
        exact .on _ (.leave (by simp [hphase, Phase.running]) rfl) (by simp [Conn.Fails])
      · cases h
  | heartbeat timedOut =>
      simp only [connStep] at h
      split at h
      · rename_i blocked hphase
        have hrun : c.phase.running = true := by simp [hphase, Phase.running]
        split at h
        · cases h
          exact .on _ (.stay hrun rfl rfl) (by simp [Conn.Fails])
        · split at h
          · cases h
            exact .on _ (.leave hrun rfl) (by simp [Conn.Fails])
          · cases h
            exact .on _ (.loopEnd hrun rfl blocked) (by simp [Conn.Fails])
      · cases h
  | read r =>
      simp only [connStep] at h
      split at h
      · rename_i blocked hphase
        have hrun : c.phase.running = true := by simp [hphase, Phase.running]
        cases r with
        | failed =>
            cases h
            exact .on _ (.fail hrun rfl) (by simp [Conn.Fails, Conn.fail])
        | closed =>
            cases h
            exact .on _ (.leave hrun rfl) (by simp [Conn.Fails])
        | packets ps =>
            cases h
            exact .on _ (.stay hrun rfl rfl) (by simp [Conn.Fails])
      · cases h
  | flush written =>
      simp only [connStep] at h
      split at h
      · rename_i blocked hphase
        have hrun : c.phase.running = true := by simp [hphase, Phase.running]
        cases written with
        | true =>
            cases h
            exact .on _ (.loopEnd hrun (by rfl) blocked) (by simp [Conn.Fails])
        | false =>
            cases h
            exact .on _ (.fail hrun rfl) (by simp [Conn.Fails, Conn.fail])
      · cases h
  | decode db blocks =>
      simp only [connStep] at h
      split at h
      · rename_i blocked hphase
        cases h
        exact moved_decodeStep db blocks hphase
      · cases h
  | connectQueued =>
      simp only [connStep] at h
      split at h
      · rename_i blocked row hphase
        cases hopen : srv.lifecycleOpen with
        | true =>
            have henq : srv.enqueueLifecycle ⟨row.id, session, .connect row⟩ =
                ((srv.enqueueLifecycle ⟨row.id, session, .connect row⟩).1, true) := by
              simp [enqueueLifecycle, hopen]
            rw [henq] at h
            cases h
            exact .connect blocked row hphase hopen (by simp [Conn.Fails])
        | false =>
            simp only [enqueueLifecycle, hopen] at h
            cases h
            exact .refuse blocked row hphase hopen (by simp [Conn.Fails])
      · cases h
  | disconnectQueued =>
      simp only [connStep] at h
      split at h
      · rename_i player hphase hplayer
        cases h
        exact .disconnect player hphase hplayer (by simp [Conn.Fails])
      · cases h
  | close =>
      simp only [connStep] at h
      split at h
      · rename_i hphase
        cases h
        exact .close hphase (by simp [Conn.Fails])
      · cases h

end Server

end OpenMines
