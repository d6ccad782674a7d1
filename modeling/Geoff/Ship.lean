import Geoff.AppBuffer
import Geoff.Structs

namespace Geoff
open Consts

-- apps/asteroids/src/Bullet.cpp
structure Bullet extends Position, Velocity where
  ticksLeft : Nat
deriving DecidableEq, Inhabited

-- apps/asteroids/src/Gun.cpp
structure Gun where
  bullets : List Bullet
deriving DecidableEq, Inhabited

-- apps/asteroids/src/Ship.cpp. The constructor makes `m_gun` and nothing resets
-- it, so the pointer is always set.
structure Ship extends Context, Position, Velocity, Orientation, Radius where
  gun : Gun
  rotation : ℚ
  maxDeltaV : ℚ
  viewportMargin : ℚ
  explosionDuration : ℚ
  invDuration : ℚ
  blinkTime : ℚ
  blinkNum : Int
  livesLeft : Int
  thrusting : Bool
  left : Bool
  right : Bool
  slideViewport : Bool
  wrapViewport : Bool
  enforceBoundaries : Bool
  exploding : Bool
  visible : Bool
  dead : Bool
  invulnerable : Bool
deriving DecidableEq, Inhabited

variable (A : Arith) (u : Size)

-- The leave-at-one-edge, enter-at-the-other rule of Bullet::TickEvent and Rock::TickEvent.
def wrapCoordinate (extent pos : ℚ) : ℚ :=
  let pos := if pos > extent then 0 else pos
  if pos < 0 then extent else pos

namespace Bullet

def make (x y dx dy : ℚ) : Bullet := ⟨⟨x,y⟩,⟨dx,dy⟩,180⟩

def tickEvent (b : Bullet) : Bullet × Bool :=
  let b := if b.ticksLeft ≠ 0 then {b with ticksLeft := b.ticksLeft - 1} else b
  let b := if b.ticksLeft ≠ 0 then
      {b with
        posX := wrapCoordinate u.sizeW (A.fl (b.posX + b.deltaX)),
        posY := wrapCoordinate u.sizeH (A.fl (b.posY + b.deltaY))}
    else b
  (b,b.ticksLeft == 0)

end Bullet

namespace Gun

def fire (gun : Gun) (ship : Ship) : Gun :=
  if gun.bullets.length = gunMagSize then gun else
  let offX : ℚ := ship.ctxOX.toNat
  let offY : ℚ := ship.ctxOY.toNat
  let posX := A.fl (ship.posX - offX)
  let posY := A.fl (ship.posY - offY)
  let px := A.fl (A.fl (posX + A.fl (ship.radius * A.cos ship.angle)) + offX)
  let py := A.fl (A.fl (posY - A.fl (ship.radius * A.sin ship.angle)) + offY)
  let mvx := A.fl (A.fl (muzzleVelocity * A.cos ship.angle) / fps)
  let mvy := A.fl (A.fl (muzzleVelocity * -A.sin ship.angle) / fps)
  ⟨gun.bullets ++ [.make px py mvx mvy]⟩

def makeBuffer (gun : Gun) (isLittleEndian : Bool) : Except Fault (Option AppBuffer) := do
  if gun.bullets.length = 0 then return none
  let appBufferSize := 2 + gun.bullets.length * 4
  let txBuff := AppBuffer.make appBufferSize isLittleEndian
  let txBuff ← txBuff.setUint16 (UInt16.ofNat gun.bullets.length)
  let txBuff ← gun.bullets.foldlM (fun tx b => do
    let tx ← tx.setUint16 (A.toUint16 b.posX)
    tx.setUint16 (A.toUint16 b.posY)) txBuff
  return some txBuff

def tickEvent (gun : Gun) : Gun :=
  if gun.bullets.isEmpty then gun else
  let ticked := gun.bullets.map (Bullet.tickEvent A u)
  let bullets := ticked.map Prod.fst
  let timedOut := ticked.any Prod.snd
  if timedOut then ⟨bullets.tail⟩ else ⟨bullets⟩

end Gun

namespace Ship

def make (cw ch : UInt16) (x y angle : ℚ) : Ship where
  ctxW := cw
  ctxH := ch
  ctxOX := A.toUint16 (A.fl (A.fl (u.sizeW / 2) - (cw / 2).toNat))
  ctxOY := A.toUint16 (A.fl (A.fl (u.sizeH / 2) - (ch / 2).toNat))
  posX := x
  posY := y
  deltaX := 0
  deltaY := 0
  angle := angle
  radius := (shipSize / 2 : Nat)
  gun := ⟨[]⟩
  rotation := 0
  maxDeltaV := shipMaxDeltaV
  viewportMargin := Consts.viewportMargin
  explosionDuration := shipExplodeDur
  invDuration := shipInvDur
  blinkTime := A.fl (shipBlinkDur * fps)
  blinkNum := trunc (A.fl (shipInvDur / shipBlinkDur))
  livesLeft := numLives
  thrusting := false
  left := false
  right := false
  slideViewport := true
  wrapViewport := false
  enforceBoundaries := true
  exploding := false
  visible := true
  dead := false
  invulnerable := true

def newLife (s : Ship) : Ship :=
  if s.livesLeft ≠ 0 then
    {s with
      explosionDuration := shipExplodeDur,
      invDuration := shipInvDur,
      blinkTime := A.fl (shipBlinkDur * fps),
      blinkNum := trunc (A.fl (shipInvDur / shipBlinkDur)),
      exploding := false,
      visible := true,
      dead := false,
      invulnerable := true,
      livesLeft := s.livesLeft - 1,
      posX := s.ctxOX.toNat + (s.ctxW / 2).toNat,
      posY := s.ctxOY.toNat + (s.ctxH / 2).toNat,
      deltaX := 0,
      deltaY := 0,
      angle := A.fl (90 * degreesToRads A)}
  else {s with dead := true}

def resurrect (s : Ship) : Ship :=
  {newLife A {s with dead := false, livesLeft := 1} with livesLeft := numLives}

def fireGuns (s : Ship) : Ship := {s with gun := s.gun.fire A s}

def explode (s : Ship) : Ship := {s with exploding := true, deltaX := 0, deltaY := 0}

def flags (s : Ship) : UInt8 :=
  (if s.thrusting then 1 else 0) ||| (if s.exploding then 0x02 else 0) |||
    (if s.visible then 0x04 else 0) ||| (if s.dead then 0x08 else 0)

def makeBuffer (s : Ship) (isLittleEndian : Bool) : Except Fault AppBuffer := do
  let minHeaderSize := 10
  let bulletsBuffer ← s.gun.makeBuffer A isLittleEndian
  let outSize := match bulletsBuffer with
    | some bullets => minHeaderSize + bullets.size
    | none => minHeaderSize
  let txBuff := AppBuffer.make outSize isLittleEndian
  let txBuff ← txBuff.setUint16 (A.toUint16 s.posX)
  let txBuff ← txBuff.setUint16 (A.toUint16 s.posY)
  let txBuff ← txBuff.setUint16 (A.toUint16 (A.fl (s.angle * fp412)))
  let txBuff ← txBuff.setUint8 s.flags
  let txBuff ← txBuff.setUint8 (UInt8.ofNat (s.livesLeft % 256).toNat)
  let txBuff ← txBuff.setUint16 0
  match bulletsBuffer with
  | none => return txBuff
  | some bullets =>
    -- the count written above is overwritten in place, the records are copied
    let (offset,txBuff) := txBuff.allocate bullets.size
    let txBuff ← txBuff.setUint16At (minHeaderSize - 2) (bullets.getUint16At (fun _ => 0) 0)
    let records ← bullets.load 2 (bullets.size - 2)
    txBuff.store offset records

def keyEvent (s : Ship) (key : Nat) (isDown : Bool) : Ship :=
  if key = 65 ∨ key = 37 then {s with left := isDown}
  else if key = 68 ∨ key = 39 then {s with right := isDown}
  else if key = 73 ∨ key = 87 ∨ key = 38 then {s with thrusting := isDown}
  else if key = 32 then if isDown then s.fireGuns A else s
  else s

def resizeEvent (s : Ship) (w h : UInt16) : Ship :=
  {s with
    ctxW := w,
    ctxH := h,
    ctxOX := A.toUint16 (A.fl (u.sizeW / 2)) - w / 2,
    ctxOY := A.toUint16 (A.fl (u.sizeH / 2)) - h / 2}

def rotate (s : Ship) : Ship :=
  let rotation : ℚ := 0
  let rotation := A.fl (rotation + if s.left then shipRadsPerTick A else 0)
  let rotation := A.fl (rotation - if s.right then shipRadsPerTick A else 0)
  {s with rotation := rotation}

def limitDelta (maxDeltaV delta : ℚ) : ℚ :=
  let delta := if delta > maxDeltaV then maxDeltaV else delta
  if delta < -maxDeltaV then -maxDeltaV else delta

def accelerate (s : Ship) : Ship :=
  if s.thrusting then
    let thrustX := A.fl (A.fl (shipThrust * A.cos s.angle) / fps)
    let thrustY := A.fl (A.fl (-shipThrust * A.sin s.angle) / fps)
    {s with
      deltaX := limitDelta s.maxDeltaV (A.fl (s.deltaX + thrustX)),
      deltaY := limitDelta s.maxDeltaV (A.fl (s.deltaY + thrustY))}
  else
    {s with
      deltaX := A.fl (s.deltaX - A.fl (A.fl (friction * s.deltaX) / fps)),
      deltaY := A.fl (s.deltaY - A.fl (A.fl (friction * s.deltaY) / fps))}

-- One axis of the sliding viewport: `offset` is ctxOX (ctxOY), `window` ctxW (ctxH).
def slideAxis (extent margin pos : ℚ) (offset window : UInt16) : UInt16 :=
  if pos < A.fl (offset.toNat + margin) then
    if pos > margin then A.toUint16 (A.fl (pos - margin)) else offset
  else if pos > A.fl (A.fl (offset.toNat + window.toNat) - margin) then
    if pos < A.fl (extent - margin) then A.toUint16 (A.fl (A.fl (pos - window.toNat) + margin)) else offset
  else offset

def slide (s : Ship) : Ship :=
  if s.slideViewport then
    {s with
      ctxOX := slideAxis A u.sizeW s.viewportMargin s.posX s.ctxOX s.ctxW,
      ctxOY := slideAxis A u.sizeH s.viewportMargin s.posY s.ctxOY s.ctxH}
  else s

def wrapAngle (s : Ship) : Ship :=
  let maxAngle := A.fl (mPi * 2)
  let angle := A.fl (s.angle + s.rotation)
  {s with angle := if angle ≥ maxAngle then 0 else if angle < 0 then maxAngle else angle}

def advance (s : Ship) : Ship :=
  {s with posX := A.fl (s.posX + s.deltaX), posY := A.fl (s.posY + s.deltaY)}

def enforceAxis (extent radius pos delta : ℚ) : ℚ × ℚ :=
  if pos < radius then (radius,0)
  else if A.fl (pos + radius) ≥ extent then (A.fl (extent - radius),0)
  else (pos,delta)

def enforce (s : Ship) : Ship :=
  if s.enforceBoundaries then
    let (posX,deltaX) := enforceAxis A u.sizeW s.radius s.posX s.deltaX
    let (posY,deltaY) := enforceAxis A u.sizeH s.radius s.posY s.deltaY
    {s with posX := posX, deltaX := deltaX, posY := posY, deltaY := deltaY}
  else s

def wrapAxis (pos : ℚ) (offset window : UInt16) : ℚ :=
  let off : ℚ := offset.toNat
  let extent : ℚ := window.toNat
  if pos < off then A.fl (off + extent)
  else if pos > A.fl (off + extent) then off
  else pos

def wrap (s : Ship) : Ship :=
  if s.wrapViewport then
    {s with posX := wrapAxis A s.posX s.ctxOX s.ctxW, posY := wrapAxis A s.posY s.ctxOY s.ctxH}
  else s

def moveShip (s : Ship) : Ship :=
  if s.exploding || s.dead then s else
  ((((((s.rotate A).accelerate A).slide A u).wrapAngle A).advance A).enforce A u).wrap A

def blink (s : Ship) : Ship :=
  let s := {s with visible := decide (s.blinkNum % 2 ≠ 0)}
  if s.blinkNum > 0 then
    let s := {s with blinkTime := A.fl (s.blinkTime - 1)}
    if s.blinkTime ≤ 0 then {s with blinkTime := A.fl (shipBlinkDur * fps), blinkNum := s.blinkNum - 1} else s
  else s

def tickEvent (s : Ship) : Ship :=
  let s := s.moveShip A u
  let s := {s with gun := s.gun.tickEvent A u}
  if s.exploding then
    let s := {s with explosionDuration := A.fl (s.explosionDuration - A.fl (1 / fps))}
    if s.explosionDuration < 0 then
      newLife A {s with explosionDuration := shipExplodeDur, exploding := false}
    else s
  else if s.invulnerable then
    let s := {s with invDuration := A.fl (s.invDuration - A.fl (1 / fps))}
    if s.invDuration < 0 then {s with invulnerable := false} else s.blink A
  else s

def Steered (s s' : Ship) : Prop :=
  ∃ context place velocity angle rotation, s' =
    {s with toContext := context, toPosition := place, toVelocity := velocity, angle := angle, rotation := rotation}

theorem Steered.refl (s : Ship) : Steered s s := ⟨s.toContext,s.toPosition,s.toVelocity,s.angle,s.rotation,rfl⟩

theorem Steered.trans {s s' s'' : Ship} (first : Steered s s') (second : Steered s' s'') : Steered s s'' := by
  obtain ⟨_,_,_,_,_,rfl⟩ := first
  obtain ⟨context,place,velocity,angle,rotation,rfl⟩ := second
  exact ⟨context,place,velocity,angle,rotation,rfl⟩

theorem rotate_steered (s : Ship) : Steered s (s.rotate A) := ⟨_,_,_,_,_,rfl⟩

theorem accelerate_steered (s : Ship) : Steered s (s.accelerate A) := by
  unfold accelerate
  split
  · exact ⟨_,_,⟨_,_⟩,_,_,rfl⟩
  · exact ⟨_,_,⟨_,_⟩,_,_,rfl⟩

theorem slide_steered (s : Ship) : Steered s (s.slide A u) := by
  unfold slide
  split
  · exact ⟨⟨_,_,_,_⟩,_,_,_,_,rfl⟩
  · exact .refl s

theorem enforce_steered (s : Ship) : Steered s (s.enforce A u) := by
  unfold enforce
  split
  · exact ⟨_,⟨_,_⟩,⟨_,_⟩,_,_,rfl⟩
  · exact .refl s

theorem wrap_steered (s : Ship) : Steered s (s.wrap A) := by
  unfold wrap
  split
  · exact ⟨_,⟨_,_⟩,_,_,_,rfl⟩
  · exact .refl s

theorem settle_steered (s : Ship) : Steered s ((s.wrapAngle A).advance A) := ⟨_,⟨_,_⟩,_,_,_,rfl⟩

theorem slid_steered (s : Ship) : Steered s (((s.rotate A).accelerate A).slide A u) :=
  ((rotate_steered A s).trans (accelerate_steered A _)).trans (slide_steered A u _)

theorem moveShip_steered (s : Ship) : Steered s (s.moveShip A u) := by
  unfold moveShip
  split
  · exact .refl s
  · exact ((slid_steered A u s).trans (settle_steered A _)).trans ((enforce_steered A u _).trans (wrap_steered A _))

theorem blink_writes (s : Ship) : ∃ visible blinkTime blinkNum, s.blink A =
    {s with visible := visible, blinkTime := blinkTime, blinkNum := blinkNum} := by
  simp only [blink]
  split
  · split <;> exact ⟨_,_,_,rfl⟩
  · exact ⟨_,_,_,rfl⟩

theorem keyEvent_cases (s : Ship) (key : Nat) (isDown : Bool) :
    (∃ left right thrusting, s.keyEvent A key isDown = {s with left := left, right := right, thrusting := thrusting}) ∨
      (isDown = true ∧ s.keyEvent A key isDown = s.fireGuns A) := by
  unfold keyEvent
  split
  · exact .inl ⟨_,_,_,rfl⟩
  · split
    · exact .inl ⟨_,_,_,rfl⟩
    · split
      · exact .inl ⟨_,_,_,rfl⟩
      · split
        · cases isDown with
          | true => exact .inr ⟨rfl,rfl⟩
          | false => exact .inl ⟨s.left,s.right,s.thrusting,rfl⟩
        · exact .inl ⟨s.left,s.right,s.thrusting,rfl⟩

end Ship
end Geoff
