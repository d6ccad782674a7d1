import Geoff.Universe

namespace Geoff
open Consts

-- What a request handler receives: the AppBuffer over the message without its
-- header byte, and whatever memory lies behind that allocation.
structure Rx where
  buffer : AppBuffer
  beyond : Nat → UInt8

def RxM (α : Type) : Type := Rx → α × List Nat

instance : Monad RxM where
  pure a := fun _ => (a,[])
  bind x f := fun rx => ((f (x rx).1 rx).1,(x rx).2 ++ (f (x rx).1 rx).2)

theorem RxM.bind_run {α β : Type} (x : RxM α) (f : α → RxM β) (rx : Rx) :
    (x >>= f) rx = ((f (x rx).1 rx).1,(x rx).2 ++ (f (x rx).1 rx).2) := rfl

def Rx.uint8 (rx : Rx) (byteOffset : Nat) : UInt8 := rx.buffer.getUint8At rx.beyond byteOffset
def Rx.uint16 (rx : Rx) (byteOffset : Nat) : UInt16 := rx.buffer.getUint16At rx.beyond byteOffset

def Rx.getUint8 (byteOffset : Nat) : RxM UInt8 := fun rx => (rx.uint8 byteOffset,[byteOffset])
def Rx.getUint16 (byteOffset : Nat) : RxM UInt16 := fun rx => (rx.uint16 byteOffset,[byteOffset,byteOffset + 1])

def Rx.isLittleEndian : RxM Bool := fun rx => (rx.buffer.isLittleEndian,[])

inductive RequestType where
  | registerSession
  | clickEvent
  | keyEvent
  | resizeEvent
deriving DecidableEq, Repr

def RequestType.ofUInt8 (b : UInt8) : Option RequestType :=
  if b = 0x00 then some .registerSession
  else if b = 0x02 then some .clickEvent
  else if b = 0x04 then some .keyEvent
  else if b = 0x06 then some .resizeEvent
  else none

def gameAppVersion : UInt16 := 3

variable (A : Arith)

namespace Session

def make (sessionID : UInt32) : Session := ⟨.make sessionID,none⟩

def commit (s : Session) (txBuff : AppBuffer) : Session :=
  {s with toWebsockSession := s.toWebsockSession.commitTxBuffer txBuff}

def writeStar (tx : AppBuffer) (star : Position) : Except Fault AppBuffer := do
  let tx ← tx.setUint16 (A.toUint16 star.posX)
  tx.setUint16 (A.toUint16 star.posY)

def sessionRegistered (stars : List Position) (sessionID : UInt32) (isLittleEndian : Bool) :
    Except Fault AppBuffer := do
  let txSize := 8 + 2 + stars.length * 2 * 2
  let txBuffer := AppBuffer.make txSize isLittleEndian
  let txBuffer ← txBuffer.setUint8 0xBB
  let txBuffer ← txBuffer.setUint8 MessageType.sessionRegistered.toUInt8
  let txBuffer ← txBuffer.setUint32 sessionID
  let txBuffer ← txBuffer.setUint16 gameAppVersion
  let txBuffer ← txBuffer.setUint16 (UInt16.ofNat stars.length)
  stars.foldlM (writeStar A) txBuffer

def register (s : Session) (g : Game) (w h : UInt16) (le : Bool) : Except Fault (Session × Game) := do
  let g := g.newPlayer A s.sessionID w h
  let (player,g) := g.getPlayerById s.sessionID
  let txBuffer ← sessionRegistered A g.gUniverse.stars s.sessionID le
  return ({s with player := player}.commit txBuffer,g)

def handleNewSession (s : Session) (g : Game) : RxM (Except Fault (Session × Game)) := do
  let w ← Rx.getUint16 3
  let h ← Rx.getUint16 5
  let le ← Rx.isLittleEndian
  return s.register A g w h le

def handleKeyEvent (s : Session) (g : Game) : RxM (Except Fault (Session × Game)) := do
  let key ← Rx.getUint8 2
  let isDown ← Rx.getUint8 1
  return match s.player with
    | none => .ok (s,g)
    | some address => .ok (s,g.setPlayer address ((g.memory address).keyEvent A key.toNat (decide (isDown ≠ 0))))

def handleClickEvent (s : Session) (g : Game) : RxM (Except Fault (Session × Game)) := do
  let clickX ← Rx.getUint16 5
  let clickY ← Rx.getUint16 7
  return match s.player with
    | none => .ok (s,g)
    | some address => .ok (s,g.launchRock A ((g.memory address).clickPoint clickX clickY))

def handleResizeEvent (s : Session) (g : Game) : RxM (Except Fault (Session × Game)) := do
  let width ← Rx.getUint16 5
  let height ← Rx.getUint16 7
  return match s.player with
    | none => .ok (s,g)
    | some address =>
      .ok (s,g.setPlayer address ((g.memory address).resizeEvent A g.gUniverse.toSize width height))

def handle (s : Session) (g : Game) : RequestType → RxM (Except Fault (Session × Game))
  | .registerSession => s.handleNewSession A g
  | .clickEvent => s.handleClickEvent A g
  | .keyEvent => s.handleKeyEvent A g
  | .resizeEvent => s.handleResizeEvent A g

def dispatch (s : Session) (g : Game) : RxM (Except Fault (Session × Game)) := do
  let requestType ← Rx.getUint8 0
  match RequestType.ofUInt8 requestType with
  | some kind => s.handle A g kind
  | none => return .ok (s,g)

-- The rx buffer WebsockSession::CommsHandler builds: the first header byte gives
-- the byte order and is stripped.
def rxBuffer (bytes : List UInt8) (beyond : Nat → UInt8) : Rx :=
  ⟨.ofBytes (bytes.drop 1) (decide (bytes.head? = some 0xAB)),beyond⟩

def setLittleEndian (s : Session) (le : Bool) : Session :=
  {s with toWebsockSession := {s.toWebsockSession with isLittleEndian := le}}

def asked (bytes : List UInt8) (beyond : Nat → UInt8) : Option RequestType :=
  if bytes.length < 2 then none else RequestType.ofUInt8 ((rxBuffer bytes beyond).uint8 0)

def keyDown (bytes : List UInt8) (beyond : Nat → UInt8) : Bool := decide ((rxBuffer bytes beyond).uint8 1 ≠ 0)

def commsHandler (s : Session) (g : Game) (bytes : List UInt8) (beyond : Nat → UInt8) :
    Except Fault (Session × Game) × List Nat :=
  if bytes.length < 2 then (.ok (s,g),[]) else
  let rx := rxBuffer bytes beyond
  (s.setLittleEndian rx.buffer.isLittleEndian).dispatch A g rx

-- Session::TickEvent up to OnTxReady.
def tickEvent (s : Session) (g : Game) : Except Fault (Session × Game) :=
  match s.player with
  | none => .ok (s,g)
  | some address => do
    let (p,txBuff) ← (g.memory address).tickEvent A g.gUniverse.toSize s.sessionID g.gUniverse.ticks s.isLittleEndian
    return (s.commit txBuff,g.setPlayer address p)

theorem handleNewSession_run (s : Session) (g : Game) (rx : Rx) : s.handleNewSession A g rx =
    (s.register A g (rx.uint16 3) (rx.uint16 5) rx.buffer.isLittleEndian,[3,4,5,6]) := rfl

theorem handleKeyEvent_run (s : Session) (g : Game) (rx : Rx) : s.handleKeyEvent A g rx =
    (match s.player with
      | none => .ok (s,g)
      | some address => .ok (s,g.setPlayer address
          ((g.memory address).keyEvent A (rx.uint8 2).toNat (decide (rx.uint8 1 ≠ 0)))),[2,1]) := rfl

theorem handleClickEvent_run (s : Session) (g : Game) (rx : Rx) : s.handleClickEvent A g rx =
    (match s.player with
      | none => .ok (s,g)
      | some address => .ok (s,g.launchRock A ((g.memory address).clickPoint (rx.uint16 5) (rx.uint16 7))),
    [5,6,7,8]) := rfl

theorem handleResizeEvent_run (s : Session) (g : Game) (rx : Rx) : s.handleResizeEvent A g rx =
    (match s.player with
      | none => .ok (s,g)
      | some address => .ok (s,g.setPlayer address
          ((g.memory address).resizeEvent A g.gUniverse.toSize (rx.uint16 5) (rx.uint16 7))),[5,6,7,8]) := rfl

theorem dispatch_known {kind : RequestType} {rx : Rx} (known : RequestType.ofUInt8 (rx.uint8 0) = some kind)
    (s : Session) (g : Game) : s.dispatch A g rx = ((s.handle A g kind rx).1,0 :: (s.handle A g kind rx).2) := by
  rw [dispatch,RxM.bind_run]
  simp only [Rx.getUint8,known]
  rfl

theorem dispatch_unknown {rx : Rx} (unknown : RequestType.ofUInt8 (rx.uint8 0) = none)
    (s : Session) (g : Game) : s.dispatch A g rx = (.ok (s,g),[0]) := by
  rw [dispatch,RxM.bind_run]
  simp only [Rx.getUint8,unknown]
  rfl

end Session
end Geoff
