import OpenMines.Lib.Run
import OpenMines.Lifecycle
import OpenMines.SessionAuth

namespace OpenMines

open Lib.Run

inductive HeartbeatGate
  | waitingForAuthResponse
  | authResponseQueued
  | enabled
  deriving DecidableEq

def HeartbeatGate.enableIfAuthResponseFlushed : HeartbeatGate → HeartbeatGate
  | .authResponseQueued => .enabled
  | gate => gate

/-- What the decoder makes of the bytes in the buffer, packet after packet. -/
inductive Incoming
  | pong
  | au (auth : Option AuAuthType)
  /-- a `TY` packet, with the button when it is a `GUI_` event -/
  | ty (button : Option String)
  | other
  /-- bytes that are no packet; they stay in the buffer -/
  | garbage
  deriving DecidableEq

/-- Where a connection handler stands. `blocked` is what the address check said at
the head of the loop. -/
inductive Phase
  | handshake
  | loopHead
  | select (blocked : Bool)
  | decode (blocked : Bool)
  /-- in `init_player`: bound, waiting for a place in the lifecycle queue -/
  | init (blocked : Bool) (row : PlayerRow)
  | disconnecting
  | closing
  | ended (failed : Bool)
  deriving DecidableEq

structure Conn where
  /-- the random text of the handshake -/
  sid : String
  auth : AuthState
  gate : HeartbeatGate
  buf : List Incoming
  phase : Phase
  deriving DecidableEq

inductive ReadResult
  | failed
  | closed
  | packets (ps : List Incoming)

inductive ConnEvent
  | handshake (written : Bool)
  | loopHead (blocked : Bool)
  | kicked
  | overflow
  | heartbeat (timedOut : Bool)
  | read (r : ReadResult)
  | flush (written : Bool)
  /-- the next packet of the buffer; `blocks` when a failed login blocks the address -/
  | decode (db : DbAnswers) (blocks : Bool)
  | connectQueued
  | disconnectQueued
  | close

namespace Conn

def accepted (sid : String) : Conn :=
  { sid, auth := .preAuth, gate := .waitingForAuthResponse, buf := [], phase := .handshake }

/-- After the loop. -/
def leave (c : Conn) : Conn :=
  { c with phase := if c.auth.playerId.isSome then .disconnecting else .closing }

/-- The end of an iteration of the loop. -/
def loopEnd (c : Conn) (blocked : Bool) : Conn :=
  if blocked then c.leave else { c with phase := .loopHead }

def fail (c : Conn) : Conn := { c with phase := .ended true }

/-- The player whom `init_player` was called for. -/
def bound (c : Conn) : Option PlayerId :=
  match c.phase with
  | .init _ row => some row.id
  | _ => c.auth.playerId

end Conn

/-- The sessions of the server, the lifecycle queue and the game. `enqueued` and
`inits` remember all lifecycle commands and all calls of `init_player`. -/
structure Server (P : Type) where
  hub : SessionHub
  conns : SessionId → Option Conn
  lifecycle : List QueuedLifecycle
  lifecycleOpen : Bool
  game : GameState P
  enqueued : List QueuedLifecycle
  inits : List (SessionId × PlayerId)

inductive ServerEvent
  | accept (sid : String)
  | conn (session : SessionId) (e : ConnEvent)
  | kick (session : SessionId)
  /-- the simulation applies the next lifecycle command -/
  | apply
  | closeLifecycle

namespace Server

variable {P : Type}

def start : Server P :=
  { hub := .new, conns := fun _ => none, lifecycle := [], lifecycleOpen := true, game := .new
    enqueued := [], inits := [] }

def setConn (srv : Server P) (session : SessionId) (c : Conn) : Server P :=
  { srv with conns := Function.update srv.conns session (some c) }

def enqueueLifecycle (srv : Server P) (q : QueuedLifecycle) : Server P × Bool :=
  if srv.lifecycleOpen then
    ({ srv with lifecycle := srv.lifecycle ++ [q], enqueued := srv.enqueued ++ [q] }, true)
  else (srv, false)

/-- What follows `init_player` in the loop. -/
def authenticated (c : Conn) (player : PlayerId) (blocked : Bool) : Conn :=
  { c with auth := .authenticated player, gate := .authResponseQueued, phase := .decode blocked }

/-- `init_player` up to the wait for the lifecycle queue. -/
def initPlayer (srv : Server P) (session : SessionId) (c : Conn) (blocked : Bool) (row : PlayerRow) :
    Server P :=
  let srv := { srv with inits := srv.inits ++ [(session, row.id)] }
  match srv.hub.bindPlayer session row.id with
  | (_, false) => srv.setConn session (authenticated c row.id blocked)
  | (hub, true) => { srv with hub }.setConn session { c with phase := .init blocked row }

def authStep (srv : Server P) (session : SessionId) (c : Conn) (blocked blocks : Bool) :
    AuthOutcome → Server P
  | .failed => srv.setConn session c.fail
  | .login row => srv.initPlayer session c blocked row
  | .go auth =>
    let c := { c with auth }
    srv.setConn session (if blocks then c.loopEnd blocked else c)

/-- One packet of the inner loop. -/
def decodeStep (cfg : AuthConfig) (srv : Server P) (session : SessionId) (c : Conn) (blocked : Bool)
    (db : DbAnswers) (blocks : Bool) : Server P :=
  match c.buf with
  | [] | .garbage :: _ => srv.setConn session (c.loopEnd blocked)
  | packet :: rest =>
    let c := { c with buf := rest }
    match c.auth, packet with
    | .preAuth, .au (some au) =>
      srv.authStep session { c with gate := .authResponseQueued } blocked blocks
        (handleAuth cfg db au c.sid)
    | .guiAuth step, .ty (some button) =>
      srv.authStep session c blocked false (handleGuiAuthFlow cfg db button step)
    | _, _ => srv.setConn session c

def connStep (cfg : AuthConfig) (srv : Server P) (session : SessionId) (c : Conn) :
    ConnEvent → Option (Server P)
  | .handshake written =>
    match c.phase with
    | .handshake => some (srv.setConn session (if written then { c with phase := .loopHead } else c.fail))
    | _ => none
  | .loopHead blocked =>
    match c.phase with
    | .loopHead => some (srv.setConn session { c with phase := .select blocked })
    | _ => none
  | .kicked =>
    match c.phase with
    | .select _ =>
      if (srv.hub.sessions session).any (fun entry => !entry.kick) then some (srv.setConn session c.leave)
      else none
    | _ => none
  | .overflow =>
    match c.phase with
    | .select _ => some (srv.setConn session c.leave)
    | _ => none
  | .heartbeat timedOut =>
    match c.phase with
    | .select blocked =>
      if c.gate ≠ .enabled then some (srv.setConn session { c with phase := .loopHead })
      else if timedOut then some (srv.setConn session c.leave)
      else some (srv.setConn session (c.loopEnd blocked))
    | _ => none
  | .read r =>
    match c.phase with
    | .select blocked =>
      match r with
      | .failed => some (srv.setConn session c.fail)
      | .closed => some (srv.setConn session c.leave)
      | .packets ps => some (srv.setConn session { c with buf := c.buf ++ ps, phase := .decode blocked })
    | _ => none
  | .flush written =>
    match c.phase with
    | .select blocked =>
      if written then
        some (srv.setConn session
          ({ c with gate := c.gate.enableIfAuthResponseFlushed }.loopEnd blocked))
      else some (srv.setConn session c.fail)
    | _ => none
  | .decode db blocks =>
    match c.phase with
    | .decode blocked => some (srv.decodeStep cfg session c blocked db blocks)
    | _ => none
  | .connectQueued =>
    match c.phase with
    | .init blocked row =>
      match srv.enqueueLifecycle ⟨row.id, session, .connect row⟩ with
      | (srv, true) => some (srv.setConn session (authenticated c row.id blocked))
      | (srv, false) =>
        some ({ srv with hub := (srv.hub.kickSession session).1 }.setConn session
          (authenticated c row.id blocked))
    | _ => none
  | .disconnectQueued =>
    match c.phase, c.auth.playerId with
    | .disconnecting, some player =>
      some ((srv.enqueueLifecycle ⟨player, session, .disconnect⟩).1.setConn session
        { c with phase := .closing })
    | _, _ => none
  | .close =>
    match c.phase with
    | .closing =>
      some ({ srv with hub := (srv.hub.close session).1 }.setConn session { c with phase := .ended false })
    | _ => none

def step (cfg : AuthConfig) (ops : PlayerOps P) (srv : Server P) : ServerEvent → Option (Server P)
  | .accept sid =>
    let (hub, session) := srv.hub.open
    some ({ srv with hub }.setConn session (.accepted sid))
  | .conn session e => (srv.conns session).bind (fun c => srv.connStep cfg session c e)
  | .kick session => some { srv with hub := (srv.hub.kickSession session).1 }
  | .apply =>
    match srv.lifecycle with
    | [] => none
    | q :: rest =>
      some { srv with lifecycle := rest, game := (srv.game.applyLifecycle ops srv.hub q).1 }
  | .closeLifecycle => some { srv with lifecycleOpen := false }

end Server

end OpenMines
