import Geoff.ByteCursor
import Geoff.Structs

-- The message decoders of www/asteroids/asteroids.js. `view` is the byte list and
-- `offset` the cursor; a read past the end throws, and the globals a handler has
-- set by then are not followed any further.
namespace Geoff.Client
open ByteCursor

structure Point where
  x : ℤ
  y : ℤ
deriving DecidableEq, Repr

structure ClientRock extends Point where
  r : ℤ
deriving DecidableEq, Repr

structure OtherShip extends Point where
  angle : ℚ
deriving DecidableEq

inductive Color where
  | red
deriving DecidableEq, Repr

structure OtherBullet extends Point where
  radius : Nat
  color : Color
deriving DecidableEq, Repr

-- The part of newShip() the handlers use. `explodeTime` starts at 0 and nothing
-- writes it again.
structure ClientShip where
  x : ℚ
  y : ℚ
  a : ℚ
  explodeTime : Nat
  unset : explodeTime = 0
  bullets : List Point
  thrusting : Bool
  exploding : Bool
  visible : Bool
  dead : Bool

structure Globals where
  sessionID : UInt32
  serverAppVersion : UInt16
  isConnected : Bool
  universeStars : List Point
  tickCount : UInt32
  contextWidth : UInt16
  contextHeight : UInt16
  contextOffsetX : UInt16
  contextOffsetY : UInt16
  score : UInt32
  phase : UInt16
  lives : UInt8
  shipsFlags : UInt8
  ship : ClientShip
  universeWidth : UInt16
  universeHeight : UInt16
  universeRocks : List ClientRock
  universeShips : List OtherShip
  universeBullets : List OtherBullet

def fp412 : ℚ := 4096

def ClientShip.move (s : ClientShip) (x y angle : ℚ) : ClientShip :=
  if s.explodeTime = 0 then {s with x := x, y := y, a := angle} else s

def number (v : UInt16) : ℤ := v.toNat
def signed (v : UInt16) : ℤ := v.toInt16.toInt

def readStar : Cursor Point := do
  let x ← u16
  let y ← u16
  return ⟨number x,number y⟩

def readIds (c : Globals) : Cursor Globals := do
  let sessionID ← u32
  let serverAppVersion ← u16
  return {c with sessionID := sessionID, serverAppVersion := serverAppVersion, isConnected := true}

-- Both tests against `DataView.byteLength` compare with undefined and are false.
def onSessionRegistered (c : Globals) : Cursor Globals := do
  seek 2
  let c ← if (← byteLength) ≥ 8 then readIds c else pure c
  let numStars ← peek16
  let stars ← many numStars.toNat readStar
  return {c with universeStars := c.universeStars ++ stars}

def readBullet (contextOffsetX contextOffsetY : UInt16) : Cursor Point := do
  let x ← u16
  let y ← u16
  return ⟨number x - number contextOffsetX,number y - number contextOffsetY⟩

def readView (c : Globals) : Cursor Globals := do
  let sessionID ← u32
  let tickCount ← u32
  let contextWidth ← u16
  let contextHeight ← u16
  let contextOffsetX ← u16
  let contextOffsetY ← u16
  let score ← u32
  let phase ← u16
  return {c with
    sessionID := sessionID, tickCount := tickCount, contextWidth := contextWidth, contextHeight := contextHeight,
    contextOffsetX := contextOffsetX, contextOffsetY := contextOffsetY, score := score, phase := phase}

def readFlags (c : Globals) : Cursor Globals := do
  let shipsFlags ← u8
  let lives ← u8
  return {c with
    shipsFlags := shipsFlags, lives := lives,
    ship := {c.ship with
      thrusting := decide (shipsFlags &&& 0x01 ≠ 0),
      exploding := decide (shipsFlags &&& 0x02 ≠ 0),
      visible := decide (shipsFlags &&& 0x04 ≠ 0),
      dead := decide (shipsFlags &&& 0x08 ≠ 0)}}

def readGun (c : Globals) : Cursor Globals := do
  let numBullets ← u16
  if numBullets > 0 then
    let bullets ← many numBullets.toNat (readBullet c.contextOffsetX c.contextOffsetY)
    return {c with ship := {c.ship with bullets := bullets}}
  else return {c with ship := {c.ship with bullets := []}}

-- The drawing done by update() writes none of these globals.
def onPlayerTickMessage (c : Globals) : Cursor Globals := do
  seek 2
  let c ← readView c
  let shipX ← u16
  let shipY ← u16
  let shipAngle ← u16
  let c := {c with ship := c.ship.move (number shipX) (number shipY) (number shipAngle / fp412)}
  if ← atEnd then return {c with ship := {c.ship with bullets := []}}
  let c ← readFlags c
  readGun c

def readRock : Cursor ClientRock := do
  let x ← u16
  let y ← u16
  let r ← u16
  return ⟨⟨number x,number y⟩,number r⟩

def readShip : Cursor OtherShip := do
  let x ← u16
  let y ← u16
  let angle ← u16
  return ⟨⟨number x,number y⟩,number angle / fp412⟩

def readOtherBullet : Cursor OtherBullet := do
  let x ← u16
  let y ← u16
  return ⟨⟨signed x,signed y⟩,2,.red⟩

def readBullets (c : Globals) : Cursor Globals := do
  if ← atEnd then return c
  let numBullets ← u16
  if numBullets = 0 then return c
  let bullets ← many numBullets.toNat readOtherBullet
  return {c with universeBullets := bullets}

def readShips (c : Globals) : Cursor Globals := do
  if ← atEnd then return c
  let numShips ← u16
  if numShips = 0 then return c
  let ships ← many numShips.toNat readShip
  readBullets {c with universeShips := ships}

def readRocks (c : Globals) : Cursor Globals := do
  if ← atEnd then return c
  let numRocks ← u16
  let rocks ← many numRocks.toNat readRock
  readShips {c with universeRocks := rocks}

def readUniverse (c : Globals) : Cursor Globals := do
  let sessionID ← u32
  let tickCount ← u32
  let universeWidth ← u16
  let universeHeight ← u16
  return {c with
    sessionID := sessionID, tickCount := tickCount, universeWidth := universeWidth, universeHeight := universeHeight}

def onUniverseTickMessage (c : Globals) : Cursor Globals := do
  if (← byteLength) < 14 then return c
  seek 2
  let c ← readUniverse {c with universeRocks := [], universeShips := [], universeBullets := []}
  readRocks c

end Geoff.Client
