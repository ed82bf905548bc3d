import OpenMines.SessionInvariant

namespace OpenMines.Server

open Lib.Run

variable {P : Type} {cfg : AuthConfig} {ops : PlayerOps P} {srv srv' : Server P} {session : SessionId}

/-- What `handle` leaves behind when it cleans up. -/
structure TornDown (srv : Server P) (session : SessionId) : Prop where
  closed : srv.hub.isOpen session = false
  unowned : ∀ p, srv.hub.sessionForPlayer p ≠ some session
  logout : srv.lifecycleOpen = true → ∀ p, (session, p) ∈ srv.inits →
    srv.enqueued.count ⟨p, session, .disconnect⟩ = 1

/-- The event does not end the handler of the session with an error. -/
def NoFailure (cfg : AuthConfig) (session : SessionId) (srv : Server P) : ServerEvent → Prop
  | .conn s e => s = session → ∀ c, srv.conns s = some c → ¬ c.Fails cfg e
  | _ => True

/-- The handler of the session has not ended with an error. -/
def NotFailed (session : SessionId) (srv : Server P) : Prop :=
  ∀ c, srv.conns session = some c → c.phase ≠ .ended true

theorem notFailed_setConn {s : SessionId} {c : Conn} (srv : Server P) (h : srv'.conns = srv.conns) :
    (srv'.setConn s c).NotFailed session ↔
      if s = session then c.phase ≠ .ended true else srv.NotFailed session := by
  unfold NotFailed
  by_cases hs : s = session
  · simp [setConn_conns, hs]
  · simp [setConn_conns, hs, Ne.symm hs, h]

theorem notFailed_moved {c : Conn} {s : SessionId} {e : ConnEvent} (hconn : srv.conns s = some c)
    (h : Moved cfg srv s c e srv') :
    srv'.NotFailed session ↔ srv.NotFailed session ∧ srv.NoFailure cfg session (.conn s e) := by
  have hsplit : (srv.NotFailed session ∧ srv.NoFailure cfg session (.conn s e)) ↔
      if s = session then c.phase ≠ .ended true ∧ ¬ c.Fails cfg e else srv.NotFailed session := by
    by_cases hs : s = session
    · subst hs
      simp [NotFailed, NoFailure, hconn]
    · simp [NoFailure, hs]
  rw [hsplit]
  cases h with
  | on c' hon hfails =>
      refine (notFailed_setConn srv rfl).trans ?_
      simp [hfails, c.ne_ended_of_running hon.running true]
  | bind c' hub blocked row hrun hnone hnone' hphase hbind hfails =>
      refine (notFailed_setConn srv rfl).trans ?_
      simp [hphase, hfails, c.ne_ended_of_running hrun true]
  | skip c' hub row hrun hrun' hbind hfails =>
      refine (notFailed_setConn srv rfl).trans ?_
      simp [hfails, c.ne_ended_of_running hrun true, c'.ne_ended_of_running hrun' true]
  | connect blocked row hphase hopen hfails =>
      refine (notFailed_setConn srv (by rw [enqueueLifecycle_of_open hopen])).trans ?_
      simp [hphase, hfails, authenticated]
  | refuse blocked row hphase hopen hfails =>
      refine (notFailed_setConn srv rfl).trans ?_
      simp [hphase, hfails, authenticated]
  | disconnect player hphase hplayer hfails =>
      refine (notFailed_setConn srv (conns_enqueueLifecycle _)).trans ?_
      simp [hphase, hfails]
  | close hphase hfails =>
      refine (notFailed_setConn srv rfl).trans ?_
      simp [hphase, hfails]

theorem notFailed_step {e : ServerEvent} (hsane : srv.Sane) (h : step cfg ops srv e = some srv') :
    srv'.NotFailed session ↔ srv.NotFailed session ∧ srv.NoFailure cfg session e := by
  cases e with
  | accept sid =>
      cases h
      refine (notFailed_setConn srv rfl).trans ?_
      split
      · rename_i hs
        subst hs
        have hnone : srv.conns srv.hub.nextId = none := hsane.fresh _ (Nat.le_refl _)
        simp [NotFailed, NoFailure, hnone, Conn.accepted]
      · simp [NoFailure]
  | conn s e =>
      obtain ⟨c, hconn, hstep⟩ := Option.bind_eq_some_iff.mp h
      exact notFailed_moved hconn (connStep_moved hstep)
  | kick s =>
      cases h
      simp [NotFailed, NoFailure]
  | apply =>
      simp only [step] at h
      split at h
      · cases h
      · cases h
        simp [NotFailed, NoFailure]
  | closeLifecycle =>
      cases h
      simp [NotFailed, NoFailure]

theorem notFailed_iff_meets {es : List ServerEvent} (h : run (step cfg ops) start es = some srv) :
    srv.NotFailed session ↔ Meets (step cfg ops) (NoFailure cfg session) start es := by
  rw [run_iff_meets sane_start (fun _ _ _ => sane_step) (fun _ _ _ => notFailed_step) h]
  simp [NotFailed, start]

/-- A handler that has ended has cleaned up just when it has not ended with an error. -/
theorem Sane.tornDown_iff {c : Conn} {failed : Bool} (hsane : srv.Sane)
    (hconn : srv.conns session = some c) (hended : c.phase = .ended failed) :
    srv.TornDown session ↔ failed = false := by
  have hc := hsane.conn session c hconn
  have hplayer := hc.playerOf
  cases failed with
  | true =>
      rw [hended, if_neg (by simp)] at hplayer
      refine iff_of_false (fun htorn => ?_) (by simp)
      have hclosed := htorn.closed
      rw [SessionHub.isOpen_eq, hplayer] at hclosed
      cases hclosed
  | false =>
      rw [hended, if_pos rfl] at hplayer
      refine iff_of_true ⟨?_, ?_, ?_⟩ rfl
      · rw [SessionHub.isOpen_eq, hplayer]
        rfl
      · intro p hp
        have howner := hsane.owner p session hp
        rw [hplayer] at howner
        cases howner
      · intro hopen p hinit
        rw [hc.logout hopen p, if_pos ⟨by simp [hended, Phase.left], (hc.inits p).mp hinit⟩]

/-- In every run, a handler that has ended has closed its session and sent the
logout of its player just when no read, no write and no query of a login in the
window has failed in it. -/
theorem tornDown_iff_meets (cfg : AuthConfig) (ops : PlayerOps P) {es : List ServerEvent}
    {srv : Server P} {session : SessionId} {c : Conn} {failed : Bool}
    (h : run (step cfg ops) start es = some srv) (hconn : srv.conns session = some c)
    (hended : c.phase = .ended failed) :
    srv.TornDown session ↔ Meets (step cfg ops) (NoFailure cfg session) start es := by
  rw [(sane_run h).tornDown_iff hconn hended, ← notFailed_iff_meets h]
  simp [NotFailed, hconn, hended]

def samplePlayer : PlayerRow :=
  { id := 7, name := "bob", passwd := "x", hash := "h", x := 0, y := 0, dir := 0, health := 10
    maxHealth := 10, money := 0, creds := 0, skin := 0, autoDig := false, aggression := false
    crystals := #v[0, 0, 0, 0, 0, 0], clanId := none, respX := none, respY := none, inventory := []
    skills := { skills := [], totalSlots := 0 }, role := 0, selectedProgramId := none
    selectedProgram := none, programmatorRunning := false, programmatorSnapshot := none
    clanRank := 0, lastBonusAt := 0 }

def sampleOps : PlayerOps Unit :=
  { newProgrammator := (), select := fun _ _ => (), restoreSnapshot := fun _ _ => ()
    runProgram := fun _ _ => (), running := fun _ => false, selectedId := fun _ => none
    snapshot := fun _ => none, onHealthMax := fun _ => 100 }

/-- No hash is computed where a player with a password in clear text logs in. -/
def sampleConfig : AuthConfig :=
  { sha256Hex := id, tokenMatchesLegacyAuth := fun _ _ _ => false, grantAdmin := none }

def sampleAnswers : DbAnswers :=
  { getPlayerById := .ok none, getPlayerByName := .ok (some samplePlayer), playerNameExists := .ok true
    createPlayer := .ok samplePlayer, updatePlayerPasswd := .ok (), setPlayerRole := .ok false }

/-- A login in the window, up to the next turn of the loop. -/
def loginRun (session : SessionId) : List ServerEvent :=
  [.accept "s", .conn session (.handshake true), .conn session (.loopHead false),
    .conn session (.read (.packets [.au (some .noAuth), .ty (some "nick:bob"), .ty (some "passwd:x")])),
    .conn session (.decode sampleAnswers false), .conn session (.decode sampleAnswers false),
    .conn session (.decode sampleAnswers false), .conn session .connectQueued,
    .conn session (.decode sampleAnswers false), .conn session (.loopHead false)]

def logoutRun (session : SessionId) : List ServerEvent :=
  [.conn session (.read .closed), .conn session .disconnectQueued, .conn session .close]

/-- A player who logs in and hangs up. -/
theorem tornDown_logoutRun : ∃ srv, run (step sampleConfig sampleOps) start
      (loginRun 1 ++ logoutRun 1) = some srv ∧ (1, 7) ∈ srv.inits ∧ srv.TornDown 1 ∧
    Meets (step sampleConfig sampleOps) (NoFailure sampleConfig 1) start (loginRun 1 ++ logoutRun 1) := by
  obtain ⟨srv, c, hrun, hconn, hended, hinit⟩ : ∃ srv c,
      run (step sampleConfig sampleOps) start (loginRun 1 ++ logoutRun 1) = some srv ∧
        srv.conns 1 = some c ∧ c.phase = .ended false ∧ (1, 7) ∈ srv.inits :=
    ⟨_, _, rfl, rfl, rfl, by decide⟩
  have htorn : srv.TornDown 1 := ((sane_run hrun).tornDown_iff hconn hended).mpr rfl
  exact ⟨srv, hrun, hinit, htorn, (tornDown_iff_meets sampleConfig sampleOps hrun hconn hended).mp htorn⟩

/-- A read error after the login leaves the session and its player in the hub, and
sends no logout. -/
theorem not_tornDown_of_readError : ∃ srv, run (step sampleConfig sampleOps) start
      (loginRun 1 ++ [.conn 1 (.read .failed)]) = some srv ∧
    (srv.conns 1).map Conn.phase = some (.ended true) ∧ srv.lifecycleOpen = true ∧
    srv.hub.isOpen 1 = true ∧ srv.hub.sessionForPlayer 7 = some 1 ∧ (1, 7) ∈ srv.inits ∧
    srv.enqueued.count ⟨7, 1, .disconnect⟩ = 0 ∧ ¬ srv.TornDown 1 := by
  obtain ⟨srv, hrun, hended, hlife, hopen, hplayer, hinit, hcount⟩ : ∃ srv,
      run (step sampleConfig sampleOps) start (loginRun 1 ++ [.conn 1 (.read .failed)]) = some srv ∧
        (srv.conns 1).map Conn.phase = some (.ended true) ∧ srv.lifecycleOpen = true ∧
        srv.hub.isOpen 1 = true ∧ srv.hub.sessionForPlayer 7 = some 1 ∧ (1, 7) ∈ srv.inits ∧
        srv.enqueued.count ⟨7, 1, .disconnect⟩ = 0 :=
    ⟨_, rfl, rfl, rfl, rfl, rfl, by decide, rfl⟩
  refine ⟨srv, hrun, hended, hlife, hopen, hplayer, hinit, hcount, fun htorn => ?_⟩
  exact htorn.unowned 7 hplayer

end OpenMines.Server
