import Geoff.Session

namespace Geoff

-- The whole server: g_sessions, the application, and the websocket_session
-- objects in the order they were accepted.
structure World where
  gSessions : WebsockSessionManager Session
  game : Game
  conns : List (WebsocketSession AppBuffer)

inductive ErrorCode where
  | closed
  | other (value : Int)
deriving DecidableEq, Repr

-- How an async_read completes. `beyond` is the memory behind the copy of the
-- message that the request handlers read from.
inductive ReadResult where
  | error (ec : ErrorCode)
  | message (bytes : List UInt8) (beyond : Nat → UInt8)

inductive Event where
  | accept
  | onRead (conn : Nat) (result : ReadResult)
  | onWrite (conn : Nat) (ec : Option ErrorCode)
  | posted (conn : Nat)
  | tick

variable (A : Arith)

namespace World

def make (rand : Rand) : World := ⟨.make,.make A rand,[]⟩

theorem make_game (rand : Rand) : (make A rand).game = Game.make A rand := by rw [make]

def setConn (w : World) (conn : Nat) (c : WebsocketSession AppBuffer) : World := {w with conns := w.conns.set conn c}

def onAccept (w : World) : Except Fault World :=
  let (sessionID,gSessions) := w.gSessions.addSession Session.make
  match gSessions.findById sessionID with
  | (none,_) => .error .nullSession
  | (some session,gSessions) =>
    let session := {session with txReadyCallback := some w.conns.length}
    .ok {w with gSessions := gSessions.update sessionID session, conns := w.conns ++ [.accepted sessionID]}

def onClose (w : World) (sessionID : UInt32) : World :=
  {w with gSessions := w.gSessions.deleteById sessionID}

def commsHandler (w : World) (sessionID : UInt32) (bytes : List UInt8) (beyond : Nat → UInt8) : Except Fault World :=
  match w.gSessions.findById sessionID with
  | (none,gSessions) => .ok {w with gSessions := gSessions}
  | (some session,gSessions) => do
    let (session,game) ← (session.commsHandler A w.game bytes beyond).1
    return {w with gSessions := gSessions.update sessionID session, game := game}

def sendFrom (w : World) (conn : Nat) (c : WebsocketSession AppBuffer) (session : Session) : World :=
  let sent := c.sendNext session.toWebsockSession
  {w with gSessions := w.gSessions.update c.sessionID {session with toWebsockSession := sent.2}}.setConn conn sent.1

def sendNext (w : World) (conn : Nat) (c : WebsocketSession AppBuffer) : World :=
  match w.gSessions.findById c.sessionID with
  | (none,gSessions) => {w with gSessions := gSessions}.setConn conn c
  | (some session,gSessions) => {w with gSessions := gSessions}.sendFrom conn c session

def onRead (w : World) (conn : Nat) (c : WebsocketSession AppBuffer) : ReadResult → Except Fault World
  | .error ec =>
    let w := w.setConn conn {c with reading := false}
    if ec = .closed then .ok (w.onClose c.sessionID) else .ok w
  | .message bytes beyond => do
    let w ← w.commsHandler A c.sessionID bytes beyond
    return w.sendNext conn c

-- websocket_session::on_write; after an error `m_write_active` stays set.
def onWrite (w : World) (conn : Nat) (c : WebsocketSession AppBuffer) : Option ErrorCode → World
  | some _ => w.setConn conn {c with writing := false}
  | none => w.sendNext conn c.writeDone

def callbackSession (w : World) (conn : Nat) (sessionID : UInt32) : Option Session :=
  match w.gSessions.sessions[sessionID]? with
  | some (some session) => if session.txReadyCallback = some conn then some session else none
  | _ => none

-- The posted lambda: it holds the WebsockSession by reference.
def onPosted (w : World) (conn : Nat) (c : WebsocketSession AppBuffer) : Except Fault World :=
  if c.alive = false then .error .endedConnection else
  match w.callbackSession conn c.sessionID with
  | none => .error .erasedSession
  | some session => .ok (w.sendFrom conn {c with posted := c.posted - 1} session)

def onTxReady (w : World) (session : Session) : Except Fault World :=
  match session.txReadyCallback with
  | none => .ok w
  | some conn =>
    match w.conns[conn]? with
    | none => .error .endedConnection
    | some c =>
      if c.alive = false then .error .endedConnection
      else .ok (w.setConn conn {c with posted := c.posted + 1})

def timerRound (w : World) (id : UInt32) : Except Fault World :=
  match w.gSessions.sessions[id]? with
  | some (some session) => do
    let (session,game) ← session.tickEvent A w.game
    let w := {w with gSessions := w.gSessions.update id session, game := game}
    w.onTxReady session
  | _ => .ok w

def tickEvent (w : World) : Except Fault World :=
  if w.game.gUniverse.timer.runTimer = false then .ok w else do
  let (game,sessions) ← w.game.tickEvent A w.gSessions.sessions w.game.gUniverse.timer.tick
  let w := {w with game := game, gSessions := {w.gSessions with sessions := sessions}}
  w.gSessions.sessions.keys.foldlM (timerRound A) w

-- A handler runs only if Asio holds it: a read or write that is outstanding, a
-- callback that was posted.
def step (w : World) : Event → Except Fault World
  | .accept => w.onAccept
  | .onRead conn result =>
    match w.conns[conn]? with
    | none => .error .notPending
    | some c => if c.reading then w.onRead A conn c result else .error .notPending
  | .onWrite conn ec =>
    match w.conns[conn]? with
    | none => .error .notPending
    | some c => if c.writing then .ok (w.onWrite conn c ec) else .error .notPending
  | .posted conn =>
    match w.conns[conn]? with
    | none => .error .notPending
    | some c => if c.posted = 0 then .error .notPending else w.onPosted conn c
  | .tick => w.tickEvent A

end World
end Geoff
