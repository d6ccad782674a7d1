import Geoff.Ship

namespace Geoff
open Consts

inductive GamePhase where
  | inLobby
  | playing
  | gameOver
deriving DecidableEq, Inhabited, Repr

def GamePhase.toUInt16 : GamePhase → UInt16
  | .inLobby => 0
  | .playing => 1
  | .gameOver => 2

-- apps/asteroids/src/Player.cpp
structure Player extends Context, Size where
  ship : Ship
  score : UInt32
  phase : GamePhase
deriving DecidableEq, Inhabited

inductive MessageType where
  | sessionRegistered
  | clickMessage
  | keyMessage
  | playerTickMessage
  | universeTickMessage
deriving DecidableEq, Repr

def MessageType.toUInt8 : MessageType → UInt8
  | .sessionRegistered => 0x01
  | .clickMessage => 0x03
  | .keyMessage => 0x05
  | .playerTickMessage => 0x07
  | .universeTickMessage => 0x09

variable (A : Arith) (u : Size)

namespace Player

def make (width height : UInt16) : Player where
  sizeW := width.toNat
  sizeH := height.toNat
  ctxW := width
  ctxH := height
  ctxOX := A.toUint16 (A.fl (u.sizeW / 2)) - width / 2
  ctxOY := A.toUint16 (A.fl (u.sizeH / 2)) - height / 2
  ship := Ship.make A u width height (A.fl (u.sizeW / 2)) (A.fl (u.sizeH / 2)) (A.fl (90 * degreesToRads A))
  score := 0
  phase := .inLobby

def addToScore (p : Player) (increment : UInt32) : Player := {p with score := p.score + increment}

def makeBuffer (p : Player) (sessionID ticks : UInt32) (isLittleEndian : Bool) : Except Fault AppBuffer := do
  let txBuff := AppBuffer.make 24 isLittleEndian
  let txBuff ← txBuff.setUint8 0xBB
  let txBuff ← txBuff.setUint8 MessageType.playerTickMessage.toUInt8
  let txBuff ← txBuff.setUint32 sessionID
  let txBuff ← txBuff.setUint32 ticks
  let txBuff ← txBuff.setUint16 p.ctxW
  let txBuff ← txBuff.setUint16 p.ctxH
  let txBuff ← txBuff.setUint16 p.ctxOX
  let txBuff ← txBuff.setUint16 p.ctxOY
  let txBuff ← txBuff.setUint32 p.score
  txBuff.setUint16 p.phase.toUInt16

def keyEvent (p : Player) (key : Nat) (isDown : Bool) : Player :=
  let p := {p with ship := p.ship.keyEvent A key isDown}
  if isDown ∧ p.phase ≠ .playing then
    let p := {p with phase := .playing}
    if p.ship.dead then {p with score := 0, ship := p.ship.resurrect A} else p
  else p

def clickPoint (p : Player) (clickX clickY : UInt16) : Position :=
  ⟨clickX.toNat + p.ship.ctxOX.toNat,clickY.toNat + p.ship.ctxOY.toNat⟩

def resizeEvent (p : Player) (w h : UInt16) : Player :=
  {p with
    sizeW := w.toNat,
    sizeH := h.toNat,
    ctxW := w,
    ctxH := h,
    ctxOX := A.toUint16 (A.fl (u.sizeW / 2)) - w / 2,
    ctxOY := A.toUint16 (A.fl (u.sizeH / 2)) - h / 2,
    ship := p.ship.resizeEvent A u w h}

-- Player::TickEvent up to the buffers: what the tick does to the player.
def tick (p : Player) : Player :=
  let p := if p.ship.dead then p else
    {p with ctxOX := p.ship.ctxOX, ctxOY := p.ship.ctxOY, ship := p.ship.tickEvent A u}
  if p.ship.dead ∧ p.phase = .playing then {p with phase := .gameOver} else p

def tickEvent (p : Player) (sessionID ticks : UInt32) (isLittleEndian : Bool) :
    Except Fault (Player × AppBuffer) := do
  let p := p.tick A u
  let txShipBuff ← p.ship.makeBuffer A isLittleEndian
  let txPlayerTickHeader ← p.makeBuffer sessionID ticks isLittleEndian
  let txBuff ← txPlayerTickHeader.concat txShipBuff isLittleEndian
  return (p,txBuff)

end Player
end Geoff
