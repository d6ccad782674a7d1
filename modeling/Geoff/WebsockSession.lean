import Std.Data.TreeMap.Lemmas
import Mathlib.Data.UInt
import Mathlib.Tactic.Basic

namespace Geoff

-- lib/src/WebsockSession.cpp, over any type of queued message. The callback set
-- by on_accept is the number of the connection whose executor it posts to.
structure WebsockSession (Msg : Type) where
  sessionID : UInt32
  isLittleEndian : Bool
  txQue : List Msg
  txReadyCallback : Option Nat
deriving DecidableEq

namespace WebsockSession
variable {Msg : Type}

def make (sessionID : UInt32) : WebsockSession Msg := ⟨sessionID,true,[],none⟩

def txQueueEmpty (s : WebsockSession Msg) : Bool := s.txQue.isEmpty

def commitTxBuffer (s : WebsockSession Msg) (buffer : Msg) : WebsockSession Msg :=
  {s with txQue := s.txQue ++ [buffer]}

def getNextTxBuffer (s : WebsockSession Msg) : Option Msg × WebsockSession Msg :=
  match s.txQue with
  | [] => (none,s)
  | buff :: rest => (some buff,{s with txQue := rest})

end WebsockSession

-- lib/inc/websocket_session.h: the members its handlers use, and below them what
-- Asio holds for the object. `sent` is the history of the buffers handed to
-- async_write, oldest first.
structure WebsocketSession (Msg : Type) where
  sessionID : UInt32
  writeActive : Bool
  reading : Bool
  writing : Bool
  posted : Nat
  sent : List Msg
deriving DecidableEq

namespace WebsocketSession
variable {Msg : Type}

def accepted (sessionID : UInt32) : WebsocketSession Msg := ⟨sessionID,false,true,false,0,[]⟩

def doWrite (c : WebsocketSession Msg) (buffer : Msg) : WebsocketSession Msg :=
  if c.writeActive then c
  else {c with writeActive := true, writing := true, sent := c.sent ++ [buffer]}

def sendNext (c : WebsocketSession Msg) (session : WebsockSession Msg) :
    WebsocketSession Msg × WebsockSession Msg :=
  if session.txQueueEmpty then (c,session) else
  match session.getNextTxBuffer with
  | (some txBuff,session) => (c.doWrite txBuff,session)
  | (none,session) => (c,session)

def writeDone (c : WebsocketSession Msg) : WebsocketSession Msg :=
  {c with writeActive := false, writing := false}

-- The handlers bound to the object keep it alive; a posted callback does not.
def alive (c : WebsocketSession Msg) : Bool := c.reading || c.writing

@[simp] theorem sendNext_empty (c : WebsocketSession Msg) {s : WebsockSession Msg} (empty : s.txQue = []) :
    c.sendNext s = (c,s) := by
  simp [sendNext,WebsockSession.txQueueEmpty,empty]

theorem sendNext_cons (c : WebsocketSession Msg) {s : WebsockSession Msg} {head : Msg} {rest : List Msg}
    (queued : s.txQue = head :: rest) : c.sendNext s = (c.doWrite head,{s with txQue := rest}) := by
  simp [sendNext,WebsockSession.txQueueEmpty,WebsockSession.getNextTxBuffer,queued]

theorem doWrite_active {c : WebsocketSession Msg} (active : c.writeActive = true) (m : Msg) : c.doWrite m = c := by
  simp [doWrite,active]

theorem doWrite_idle {c : WebsocketSession Msg} (idle : c.writeActive = false) (m : Msg) :
    c.doWrite m = {c with writeActive := true, writing := true, sent := c.sent ++ [m]} := by
  simp [doWrite,idle]

theorem sendNext_reading (c : WebsocketSession Msg) (s : WebsockSession Msg) : (c.sendNext s).1.reading = c.reading := by
  cases queued : s.txQue with
  | nil => rw [sendNext_empty c queued]
  | cons head rest =>
    rw [sendNext_cons c queued,doWrite]
    split <;> rfl

end WebsocketSession

-- lib/inc/WebsockSessionManager.h. A null shared_ptr in the map is `some none`.
structure WebsockSessionManager (S : Type) where
  sessionId : UInt32
  sessions : Std.TreeMap UInt32 (Option S)

namespace WebsockSessionManager
variable {S : Type}

def make : WebsockSessionManager S := ⟨0,∅⟩

def addSession (m : WebsockSessionManager S) (makeShared : UInt32 → S) : UInt32 × WebsockSessionManager S :=
  (m.sessionId,⟨(m.sessionId + 1) &&& 0xFFFFFFFF,m.sessions.insert m.sessionId (some (makeShared m.sessionId))⟩)

-- map::operator[] inserts a null pointer under a key that is not there.
def findById (m : WebsockSessionManager S) (sessionID : UInt32) : Option S × WebsockSessionManager S :=
  match m.sessions[sessionID]? with
  | some found => (found,m)
  | none => (none,{m with sessions := m.sessions.insert sessionID none})

def deleteById (m : WebsockSessionManager S) (sessionID : UInt32) : WebsockSessionManager S :=
  {m with sessions := m.sessions.erase sessionID}

def getCount (m : WebsockSessionManager S) : Nat := m.sessions.size

def update (m : WebsockSessionManager S) (sessionID : UInt32) (s : S) : WebsockSessionManager S :=
  {m with sessions := m.sessions.insert sessionID (some s)}

end WebsockSessionManager
end Geoff
