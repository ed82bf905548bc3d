import OpenMines.ChatPackets
import OpenMines.ChatStore
import OpenMines.CommandSaves

namespace OpenMines

open Lib.Text Lib.Utf8 Persistence ChatPackets

/-- The minutes since the epoch of the client. -/
def dotnetEpochMinutes (unixSecs : Int) : Int := ((621355968000000000 + unixSecs * 10000000) / 10000) / 60000

structure ChatChannel where
  tag : String
  name : String
  global : Bool
  messages : List ChatMessage

/-- Where a message goes to; `pair` is `Private`. -/
inductive ChannelChatRoute
  | global (tag : String)
  | clan (clanId : Int32)
  | pair (tag : String) (users : Int32 × Int32)
  deriving DecidableEq

/-- The tag of the messages of a clan in the database. -/
def clanTag (clanId : Int32) : String := String.ofList ("CLAN_".toList ++ decimal clanId.toInt)

namespace ChannelChatRoute

/-- The tag that the client knows. -/
def wireTag : ChannelChatRoute → String
  | .global tag => tag
  | .clan _ => "CLAN"
  | .pair tag _ => tag

/-- The tag that the messages of the route have in the database. -/
def dbTag : ChannelChatRoute → String
  | .global tag => tag
  | .clan clanId => clanTag clanId
  | .pair tag _ => tag

end ChannelChatRoute

structure PreparedChannelChat where
  dbTag : String
  text : String
  nickname : String
  userId : Int32
  clanId : Int32
  route : ChannelChatRoute
  time : Int
  color : Int32

namespace PreparedChannelChat

variable (id : Int) (p : PreparedChannelChat)

/-- What is stored of a message. -/
def request : ChatAppendRequest := ⟨id, p.dbTag, p.nickname, p.text, p.userId, p.color⟩

/-- What those who are there get of it. -/
def message : ChatMessage := ⟨Int64.ofInt id, Int64.ofInt p.time, p.clanId, p.userId, p.nickname, p.text, p.color⟩

end PreparedChannelChat

/-! ### Requests -/

structure ChatResyncRequest where
  player : PlayerId
  session : SessionId
  channelTag : String
  lastId : Int

structure ChatPrivateRequest where
  player : PlayerId
  session : SessionId
  targetUid : PlayerId

inductive ChatRequest
  | resync (request : ChatResyncRequest)
  | openPrivate (request : ChatPrivateRequest)

namespace ChatRequest

def player : ChatRequest → PlayerId
  | .resync request => request.player
  | .openPrivate request => request.player

def session : ChatRequest → SessionId
  | .resync request => request.session
  | .openPrivate request => request.session

def command : ChatRequest → Persistence.SaveCommand
  | .resync request => .chatResync request.channelTag
  | .openPrivate request => .chatPrivate request.targetUid

end ChatRequest

inductive ChinResync
  | initial
  | incremental (current : String) (lastid : Int)

/-- The last number that is given for the channel, in pairs of channels and numbers. -/
def chinLast (current : String) : List String → Int → Option Int
  | [], lastid => some lastid
  | [_], _ => none
  | tag :: id :: rest, lastid =>
    if trim tag = "" ∨ trim id = "" then none
    else (parseI64 (trim id)).bind fun id => chinLast current rest (if trim tag = current then id else lastid)

def parseChinResyncPayload (payload : String) : Option ChinResync :=
  if trim payload = "_" then some .initial
  else
    (stripPrefix (trim payload) "1:").bind fun rest => (splitOnce rest ':').bind fun parts =>
      if trim parts.1 = "" then none
      else if parts.2 = "" then some (.incremental (trim parts.1) (-1))
      else (chinLast (trim parts.1) (splitOn parts.2 '#') (-1)).map (.incremental (trim parts.1))

/-! ### The table -/

/-- `ORDER BY id DESC` -/
def newestFirst (rows : List ChatAppendRequest) : List ChatAppendRequest :=
  rows.mergeSort fun a b => decide (b.id ≤ a.id)

def getRecentChatMessages (d : Database) (tag : String) (limit : Nat) : List ChatAppendRequest :=
  ((newestFirst (d.chatMessages.filter fun row => row.tag = tag)).take limit).reverse

/-- The clan that the author of a message is in now. -/
def authorClan (d : Database) (player : PlayerId) : Int32 :=
  ((d.clans.players.find? fun r => r.id = player).bind MemberRow.clanId).getD 0

/-- A row of the table as the client gets it, with a time of its own. -/
def rowMessage (d : Database) (time : Int → Int) (row : ChatAppendRequest) : ChatMessage :=
  ⟨Int64.ofInt row.id, Int64.ofInt (time row.id), authorClan d row.playerId, row.playerId, row.nickname, row.text,
    row.color⟩

/-- The first of `private_chat_tags`. -/
def latestPrivateTag (d : Database) (player : PlayerId) : Option String :=
  (newestFirst (d.chatMessages.filter fun row => Database.isPrivateTag player row.tag)).head?.map
    ChatAppendRequest.tag

inductive ChatAnswer
  | opened (tag name : String) (messages : List ChatMessage)
  | targetNotFound

/-- `chat_resync` and `chat_private`; `createdAt` has the second at which a row was written. The times of these
messages are seconds. -/
def answerRequest (createdAt : Int → Int) (d : Database) : ChatRequest → ChatAnswer
  | .resync request =>
    .opened request.channelTag request.channelTag
      (((getRecentChatMessages d request.channelTag 200).filter fun row => request.lastId < row.id).map
        (rowMessage d createdAt))
  | .openPrivate request =>
    match latestPrivateTag d request.targetUid with
    | none => .targetNotFound
    | some tag =>
      let rows := getRecentChatMessages d tag 200
      .opened tag ((rows.head?.map ChatAppendRequest.nickname).getD "") (rows.map (rowMessage d createdAt))

/-! ### The game -/

structure ChatPlayer where
  name : String
  clanId : Option Int32
  /-- `PlayerUI::current_chat` -/
  currentChat : String
  /-- the colour in the settings -/
  cc : Int32

/-- A packet with messages, for the outbox of a session. -/
inductive ChatSent
  | live (player : PlayerId) (session : SessionId) (route : ChannelChatRoute) (message : ChatMessage)
  | history (player : PlayerId) (session : SessionId) (tag : String) (messages : List ChatMessage)

def ChatSent.packet : ChatSent → List UInt8
  | .live _ _ route message => chatMessages route.wireTag [message]
  | .history _ _ tag messages => chatMessages tag messages

/-- A message that was posted while its reader was there. -/
def ChatSent.isLive : ChatSent → Bool
  | .live .. => true
  | .history .. => false

/-- The game with its chats. The requests are numbered; `answers` has the completions of the first of them, and
`applied` of these have come to the game. The last three fields remember what was sent, what the queue of the
presentation had no room for, and what was posted. -/
structure Chats where
  channels : List ChatChannel
  chatIdSeq : Int
  players : PlayerId → Option ChatPlayer
  /-- `active_player_ids` -/
  active : List PlayerId
  /-- the session of a player that has an outbox -/
  sessions : PlayerId → Option SessionId
  worker : Worker
  requests : List ChatRequest
  answers : List ChatAnswer
  applied : Nat
  /-- the events `ChatFanout` of the presentation -/
  fanouts : List (ChannelChatRoute × ChatMessage)
  sent : List ChatSent
  dropped : List (ChannelChatRoute × ChatMessage)
  posted : List (Int × PreparedChannelChat)

inductive ChatEvent
  /-- whether the rate is kept, whether there is a permit for the store, and whether the presentation has room -/
  | channelChat (player : PlayerId) (payload : List UInt8) (now : Int) (allowed permit queued : Bool)
  | chatResync (player : PlayerId) (session : SessionId) (payload : List UInt8)
  | chatChoose (player : PlayerId) (session : SessionId) (payload : List UInt8)
  | chatPrivate (player : PlayerId) (session : SessionId) (payload : List UInt8)
  /-- a command for the store from elsewhere -/
  | save (cmd : Persistence.SaveCommand)
  | store (e : WorkerEvent)
  /-- a completion comes to the game -/
  | complete
  /-- the presentation delivers an event -/
  | fanout
  | presence (active : List PlayerId) (sessions : PlayerId → Option SessionId)
  | players (players : PlayerId → Option ChatPlayer)

namespace Chats

/-- The last messages of a global channel are those of the database. -/
def defaultChannel (createdAt : Int → Int) (d : Database) (tag name : String) : ChatChannel :=
  ⟨tag, name, true, (getRecentChatMessages d tag chatHistoryLimit).map
    (rowMessage d fun id => dotnetEpochMinutes (createdAt id))⟩

/-- What is to be told of messages, without those who get them. -/
def traffic (s : Chats) : Int × List (Int × PreparedChannelChat) × List (ChannelChatRoute × ChatMessage) ×
    List (ChannelChatRoute × ChatMessage) := (s.chatIdSeq, s.posted, s.fanouts, s.dropped)

def maxChatId (d : Database) : Int := d.chatIds.max?.getD 0

def start (createdAt : Int → Int) (db : Database) : Chats where
  channels := [
    defaultChannel createdAt db "FED" "Федеральный чат",
    defaultChannel createdAt db "DNO" "Дно",
    ⟨"LOC", "Локальный", false, []⟩]
  chatIdSeq := maxChatId db
  players := fun _ => none
  active := []
  sessions := fun _ => none
  worker := ⟨db, [], [], 0, [], [], []⟩
  requests := []
  answers := []
  applied := 0
  fanouts := []
  sent := []
  dropped := []
  posted := []

variable (raise createdAt : Int → Int) (s : Chats)

def accept (cmd : Persistence.SaveCommand) : Chats :=
  { s with worker := { s.worker with queue := s.worker.queue ++ [cmd], admitted := s.worker.admitted ++ [cmd] } }

/-- `prepare_channel_chat_non_command` -/
def prepareChannelChat (player : PlayerId) (text : String) (now : Int) : Option PreparedChannelChat :=
  if !CommandState.plainText text then none
  else
    (s.players player).bind fun p =>
      let isGlobal := s.channels.any fun c => c.tag = p.currentChat
      let isClan := p.currentChat = "CLAN"
      let privIds := parsePrivateTag p.currentChat
      if isGlobal || (isClan && p.clanId.isSome) || privIds.any (fun pair => player = pair.1 || player = pair.2) then
        let route :=
          if isGlobal then some (.global p.currentChat)
          else if isClan then some (.clan (p.clanId.getD 0))
          else privIds.map (.pair p.currentChat)
        route.map fun route =>
          { dbTag := if isClan then clanTag (p.clanId.getD 0) else p.currentChat
            text := trim text
            nickname := p.name
            userId := player
            clanId := p.clanId.getD 0
            route
            time := dotnetEpochMinutes now
            color := p.cc }
      else none

/-- The number, the command for the store and the event of a message that is posted. -/
def post (p : PreparedChannelChat) (queued : Bool) : Chats :=
  let id := s.chatIdSeq + 1
  let fanout := [(p.route, p.message id)]
  { s.accept (.chatAppend (p.request id)) with
    chatIdSeq := id
    fanouts := if queued then s.fanouts ++ fanout else s.fanouts
    dropped := if queued then s.dropped else s.dropped ++ fanout
    posted := s.posted ++ [(id, p)] }

/-- `apply_channel_chat_command`; a command with a slash is not a message. The game panics over a message that has
no permit, and `persistence_kind` asks for none. -/
def applyChannelChat (player : PlayerId) (payload : List UInt8) (now : Int) (allowed permit queued : Bool) :
    Option Chats :=
  let text := extractChannelMessageText payload
  if !allowed || startsWith (trim text) "/" then some s
  else
    match s.prepareChannelChat player text now with
    | none => some s
    | some p => if permit then some (s.post p queued) else none

def ask (request : ChatRequest) : Chats := { s.accept request.command with requests := s.requests ++ [request] }

/-- The channel that the player is in. -/
def currentChat (player : PlayerId) : String := ((s.players player).map ChatPlayer.currentChat).getD ""

def resyncRequest (player : PlayerId) (session : SessionId) (payload : List UInt8) : ChatResyncRequest :=
  match parseChinResyncPayload (trim (String.ofList (fromUtf8Lossy payload))) with
  | some (.incremental current lastid) => ⟨player, session, current, lastid⟩
  | _ => ⟨player, session, s.currentChat player, 0⟩

def chooseRequest (player : PlayerId) (session : SessionId) (payload : List UInt8) : ChatResyncRequest :=
  let tag := trim (String.ofList (fromUtf8Lossy payload))
  ⟨player, session, if tag = "" then s.currentChat player else tag, 0⟩

def chatPrivate (player : PlayerId) (session : SessionId) (payload : List UInt8) : Chats :=
  match parseI32 (trim (String.ofList (fromUtf8Lossy payload))) with
  | some targetUid => s.ask (.openPrivate ⟨player, session, targetUid⟩)
  | none => s

/-- The commands of the store that the chats are not about. -/
def foreign (cmd : Persistence.SaveCommand) : Bool := cmd.chatMessage.isNone && !Worker.asks cmd

/-- A step of the worker, which answers the next request when it has done its command. -/
def stepStore (e : WorkerEvent) : Option Chats :=
  match e with
  | .accept _ => none
  | _ =>
    (s.worker.step raise e).map fun worker =>
      let done := (worker.completions.drop s.worker.completions.length).countP fun c => Worker.asks c.1
      { s with
        worker
        answers := s.answers ++
          ((s.requests.drop s.answers.length).take done).map (answerRequest createdAt s.worker.db) }

/-- The completion of a request of a session that is no more is dropped. -/
def applyAnswer (request : ChatRequest) : ChatAnswer → Chats
  | .targetNotFound => s
  | .opened tag _ messages =>
    if s.sessions request.player = some request.session then
      { s with
        players := Function.update s.players request.player
          ((s.players request.player).map fun p => { p with currentChat := tag })
        sent := s.sent ++ [.history request.player request.session tag messages] }
    else s

def complete : Option Chats :=
  match s.requests[s.applied]?, s.answers[s.applied]? with
  | some request, some answer => some ({ s with applied := s.applied + 1 }.applyAnswer request answer)
  | _, _ => none

/-- The last messages of the first channel with the tag. -/
def remember (tag : String) (message : ChatMessage) : List ChatChannel → List ChatChannel
  | [] => []
  | c :: cs =>
    if c.tag = tag then
      let messages := c.messages ++ [message]
      { c with messages := if chatHistoryLimit < messages.length then messages.drop 1 else messages } :: cs
    else c :: remember tag message cs

/-- Whom a message is sent to. -/
def recipients : ChannelChatRoute → List PlayerId
  | .global _ => s.active
  | .clan clanId => s.active.filter fun p => (s.players p).any fun m => m.clanId = some clanId
  | .pair _ users => [users.1, users.2]

/-- What the sessions of some recipients get of a message, as `fanout_mu_to_players` sends it. -/
def live (route : ChannelChatRoute) (message : ChatMessage) : List ChatSent :=
  (s.recipients route).filterMap fun p => (s.sessions p).map fun session => .live p session route message

/-- `deliver_chat_fanout` -/
def deliverChatFanout : Option Chats :=
  match s.fanouts with
  | [] => none
  | (route, message) :: fanouts =>
    some { s with
      fanouts
      channels := match route with
        | .global tag => remember tag message s.channels
        | _ => s.channels
      sent := s.sent ++ s.live route message }

def step : ChatEvent → Option Chats
  | .channelChat player payload now allowed permit queued => s.applyChannelChat player payload now allowed permit queued
  | .chatResync player session payload => some (s.ask (.resync (s.resyncRequest player session payload)))
  | .chatChoose player session payload => some (s.ask (.resync (s.chooseRequest player session payload)))
  | .chatPrivate player session payload => some (s.chatPrivate player session payload)
  | .save cmd => if foreign cmd then some (s.accept cmd) else none
  | .store e => s.stepStore raise createdAt e
  | .complete => s.complete
  | .fanout => s.deliverChatFanout
  | .presence active sessions => some { s with active, sessions }
  | .players players => some { s with players }

end Chats

end OpenMines
