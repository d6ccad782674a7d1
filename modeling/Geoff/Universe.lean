import Geoff.Player
import Geoff.RockField
import Geoff.WebsockSession

namespace Geoff
open Consts

-- asteroids::Session adds the player to WebsockSession. Its own `m_sessionID` is
-- set by the same constructor argument and never written, so it is not repeated.
-- A shared_ptr<Player> is the address of the player in `Game.memory`.
structure Session extends WebsockSession AppBuffer where
  player : Option Nat
deriving DecidableEq

abbrev SessionMap := Std.TreeMap UInt32 (Option Session)

-- apps/asteroids/src/Timer.cpp, without the clock.
structure Timer where
  tick : UInt32
  runTimer : Bool

def Timer.make : Timer := ⟨0,true⟩

def Timer.getTick (t : Timer) : UInt32 × Timer := (t.tick,{t with tick := t.tick + 1})

-- apps/asteroids/src/Universe.cpp
structure Universe extends Size where
  rockField : RockField
  players : Std.TreeMap UInt32 (Option Nat)
  timer : Timer
  ticks : UInt32
  stars : List Position

-- The state of the application: g_universe, the Player objects, rand(), and the
-- history of the DestroyRock calls with the id of the player charged for each.
structure Game where
  gUniverse : Universe
  memory : Nat → Player
  allocated : Nat
  rand : Rand
  destroyed : List (UInt32 × Nat)

variable (A : Arith)

def makeStars (width height : ℚ) : Nat → Rand → List Position × Rand
  | 0,rand => ([],rand)
  | n+1,rand =>
    let (x,rand) := rand.random A
    let (y,rand) := rand.random A
    let (rest,rand) := makeStars width height n rand
    (⟨A.fl (x * width),A.fl (y * height)⟩ :: rest,rand)

-- GetUniverse makes the universe inside the first Session constructor. The Ticker
-- call of its timer then finds g_universe null and g_sessions empty, and nothing
-- reads the universe earlier, so a game starts with it made.
def Game.make (rand : Rand) : Game :=
  let (stars,rand) := makeStars A 8192 8192 numStars rand
  ⟨⟨⟨8192,8192⟩,.make,∅,.make,0,stars⟩,fun _ => default,0,rand,[]⟩

structure Game.Fresh (g : Game) : Prop where
  players : g.gUniverse.players = ∅
  allocated : g.allocated = 0
  size : g.gUniverse.toSize = ⟨8192,8192⟩
  rocks : g.gUniverse.rockField.rocks = []
  timer : g.gUniverse.timer = .make

theorem Game.make_fresh (rand : Rand) : (Game.make A rand).Fresh := by
  unfold Game.make
  split
  exact ⟨rfl,rfl,rfl,rfl,rfl⟩

namespace Game

def setPlayer (g : Game) (address : Nat) (p : Player) : Game :=
  {g with memory := Function.update g.memory address p}

@[simp] theorem setPlayer_self (g : Game) (address : Nat) (p : Player) : (g.setPlayer address p).memory address = p :=
  Function.update_self ..

theorem setPlayer_other {address other : Nat} (ne : other ≠ address) (g : Game) (p : Player) :
    (g.setPlayer address p).memory other = g.memory other :=
  Function.update_of_ne ne ..

def newPlayer (g : Game) (sessionID : UInt32) (w h : UInt16) : Game :=
  {g with
    memory := Function.update g.memory g.allocated (Player.make A g.gUniverse.toSize w h),
    allocated := g.allocated + 1,
    gUniverse := {g.gUniverse with players := g.gUniverse.players.insert sessionID (some g.allocated)}}

theorem newPlayer_memory (g : Game) (sessionID : UInt32) (w h : UInt16) :
    (g.newPlayer A sessionID w h).memory g.allocated = Player.make A g.gUniverse.toSize w h :=
  Function.update_self ..

theorem newPlayer_other {g : Game} {address : Nat} (old : address ≠ g.allocated) (sessionID : UInt32) (w h : UInt16) :
    (g.newPlayer A sessionID w h).memory address = g.memory address :=
  Function.update_of_ne old ..

def getPlayerById (g : Game) (sessionID : UInt32) : Option Nat × Game :=
  match g.gUniverse.players[sessionID]? with
  | some found => (found,g)
  | none => (none,{g with gUniverse := {g.gUniverse with players := g.gUniverse.players.insert sessionID none}})

def launchRock (g : Game) (p : Position) : Game :=
  let (field,rand) := g.gUniverse.rockField.launchOne A g.rand p.posX p.posY rockRadius
  {g with gUniverse := {g.gUniverse with rockField := field}, rand := rand}

end Game

namespace Collision

def bulletHit (rock : Rock) (b : Bullet) : Bool := A.nearer rock.toPosition b.toPosition rock.radius

def shipHit (rock : Rock) (s : Ship) : Bool :=
  !s.exploding && !s.invulnerable && A.nearer rock.toPosition s.toPosition (A.fl (rock.radius + s.radius))

-- One round of the loop over the rocks: the bullets in the rock are erased after
-- the inner loop has pushed the rock once for each, then the ship is tested.
def scanRock (state : Ship × List Nat) (node : RockNode) : Ship × List Nat :=
  let (ship,collidedRocks) := state
  let collidedBullets := ship.gun.bullets.filter (bulletHit A node.rock)
  let collidedRocks := collidedRocks ++ collidedBullets.map (fun _ => node.iter)
  let rockAlreadyPushed := !collidedBullets.isEmpty
  let ship := {ship with gun := ⟨ship.gun.bullets.filter (fun b => !bulletHit A node.rock b)⟩}
  if shipHit A node.rock ship then
    (ship.explode,if rockAlreadyPushed then collidedRocks else collidedRocks ++ [node.iter])
  else (ship,collidedRocks)

def scanRocks (rocks : List RockNode) (ship : Ship) : Ship × List Nat := rocks.foldl (scanRock A) (ship,[])

def scoreOf (radius : ℚ) : UInt32 :=
  if radius ≥ rockRadius then 20
  else if radius ≥ rockRadius / 2 then 50
  else if radius ≥ rockRadius / 4 then 100
  else 0

def scoreRock (id : UInt32) (address : Nat) (g : Game) (rockIt : Nat) : Except Fault Game := do
  match g.gUniverse.rockField.find rockIt with
  | none => .error .erasedRock
  | some rock =>
    let g := g.setPlayer address ((g.memory address).addToScore (scoreOf rock.radius))
    let (field,rand) ← g.gUniverse.rockField.destroyRock A g.rand rockIt
    return {g with
      gUniverse := {g.gUniverse with rockField := field}, rand := rand, destroyed := g.destroyed ++ [(id,rockIt)]}

def collidedRocks (g : Game) (address : Nat) : List Nat :=
  (scanRocks A g.gUniverse.rockField.rocks (g.memory address).ship).2

def scan (g : Game) (address : Nat) : Game :=
  let p := g.memory address
  g.setPlayer address {p with ship := (scanRocks A g.gUniverse.rockField.rocks p.ship).1}

-- One round of the loop over m_players; a null player is dereferenced only once
-- there is a rock to scan.
def playerRound (g : Game) (pair : UInt32 × Option Nat) : Except Fault Game :=
  match pair.2 with
  | none => if g.gUniverse.rockField.rocks = [] then .ok g else .error .nullPlayer
  | some address => (collidedRocks A g address).foldlM (scoreRock A pair.1 address) (scan A g address)

end Collision

def Game.collisionDetection (g : Game) : Except Fault Game :=
  g.gUniverse.players.toList.foldlM (Collision.playerRound A) g

-- Universe::PerSessionTickEvent. A null session in the map is dereferenced by the
-- tests of the loops.
namespace PerSession

def header (g : Game) (session : Session) : Except Fault AppBuffer := do
  let txBuff := AppBuffer.make 14 session.isLittleEndian
  let txBuff ← txBuff.setUint8 0xBB
  let txBuff ← txBuff.setUint8 MessageType.universeTickMessage.toUInt8
  let txBuff ← txBuff.setUint32 session.sessionID
  let txBuff ← txBuff.setUint32 g.gUniverse.ticks
  let txBuff ← txBuff.setUint16 (A.toUint16 g.gUniverse.sizeW)
  txBuff.setUint16 (A.toUint16 g.gUniverse.sizeH)

def writeRock (tx : AppBuffer) (node : RockNode) : Except Fault AppBuffer := do
  let tx ← tx.setUint16 (A.toInt16 node.rock.posX).toUInt16
  let tx ← tx.setUint16 (A.toInt16 node.rock.posY).toUInt16
  tx.setUint16 (A.toUint16 node.rock.radius)

def rocks (g : Game) (session : Session) (txBuff : AppBuffer) : Except Fault AppBuffer := do
  let nodes := g.gUniverse.rockField.rocks
  let txBuff2 ← txBuff.grow (2 + nodes.length * (3 * 2)) session.isLittleEndian
  let txBuff2 ← txBuff2.setUint16 (UInt16.ofNat nodes.length)
  nodes.foldlM (writeRock A) txBuff2

def countShip (session : Session) (numShips : Nat) (pair : UInt32 × Option Session) : Except Fault Nat :=
  match pair.2 with
  | none => .error .nullSession
  | some sess => if pair.1 = session.sessionID ∨ sess.player = none then .ok numShips else .ok (numShips + 1)

def writeShip (g : Game) (session : Session) (state : AppBuffer × Nat) (pair : UInt32 × Option Session) :
    Except Fault (AppBuffer × Nat) :=
  match pair.2 with
  | none => .error .nullSession
  | some sess =>
    match sess.player with
    | none => .ok state
    | some address =>
      if pair.1 = session.sessionID then .ok state else do
      let ship := (g.memory address).ship
      let tx ← state.1.setUint16 (A.toUint16 ship.posX)
      let tx ← tx.setUint16 (A.toUint16 ship.posY)
      let tx ← tx.setUint16 (A.toUint16 (A.fl (ship.angle * fp412)))
      return (tx,state.2 + ship.gun.bullets.length)

def writeBullet (tx : AppBuffer) (b : Bullet) : Except Fault AppBuffer := do
  let tx ← tx.setUint16 (A.toInt16 b.posX).toUInt16
  tx.setUint16 (A.toInt16 b.posY).toUInt16

def writeBullets (g : Game) (session : Session) (tx : AppBuffer) (pair : UInt32 × Option Session) :
    Except Fault AppBuffer :=
  if pair.1 = session.sessionID then .ok tx else
  match pair.2 with
  | none => .error .nullSession
  | some sess =>
    match sess.player with
    | none => .ok tx
    | some address => (g.memory address).ship.gun.bullets.foldlM (writeBullet A) tx

def bullets (g : Game) (sessions : SessionMap) (session : Session) (txBuff : AppBuffer) (totalBullets : Nat) :
    Except Fault AppBuffer := do
  if totalBullets = 0 then return txBuff
  let txBuff2 ← txBuff.grow (2 + totalBullets * 2 * 2) session.isLittleEndian
  let txBuff2 ← txBuff2.setUint16 (UInt16.ofNat totalBullets)
  sessions.toList.foldlM (writeBullets A g session) txBuff2

def ships (g : Game) (sessions : SessionMap) (session : Session) (txBuff : AppBuffer) : Except Fault AppBuffer := do
  let numShips ← sessions.toList.foldlM (countShip session) 0
  if numShips = 0 then return txBuff
  let txBuff2 ← txBuff.grow (2 + numShips * (3 * 2)) session.isLittleEndian
  let txBuff2 ← txBuff2.setUint16 (UInt16.ofNat numShips)
  let (txBuff2,totalBullets) ← sessions.toList.foldlM (writeShip A g session) (txBuff2,0)
  bullets A g sessions session txBuff2 totalBullets

end PerSession

def Game.perSessionTickEvent (g : Game) (sessions : SessionMap) (session : Session) : Except Fault AppBuffer := do
  let txBuff ← PerSession.header A g session
  let txBuff ← PerSession.rocks A g session txBuff
  PerSession.ships A g sessions session txBuff

def Game.tickSession (g : Game) (sessions : SessionMap) (id : UInt32) : Except Fault SessionMap :=
  match sessions[id]? with
  | none => .ok sessions
  | some none => .error .nullSession
  | some (some sess) =>
    match sess.player with
    | none => .ok sessions
    | some _ => do
      let txBuff ← g.perSessionTickEvent A sessions sess
      return sessions.insert id (some {sess with toWebsockSession := sess.toWebsockSession.commitTxBuffer txBuff})

def Game.moveRocks (g : Game) (tickCount : UInt32) : Game :=
  {g with gUniverse := {g.gUniverse with
    ticks := tickCount, rockField := g.gUniverse.rockField.tickEvent A g.gUniverse.toSize}}

def Game.tickEvent (g : Game) (sessions : SessionMap) (tickCount : UInt32) : Except Fault (Game × SessionMap) := do
  let g ← (g.moveRocks A tickCount).collisionDetection A
  let sessions ← sessions.keys.foldlM (g.tickSession A) sessions
  return (g,sessions)

end Geoff
