import Geoff.Structs

-- www/js/game.js in exact arithmetic: the beings and the bases on the map, and the
-- handlers that change them. Of the drawing only the view offset is kept, which a click
-- is added to.
namespace Geoff.GameScript

def numberOfZombies : ℕ := 100
def numberOfBases : ℕ := 100
def mapWidth : ℚ := 8192
def mapHeight : ℚ := 4096

structure Location where
  xPos : ℚ
  yPos : ℚ
deriving DecidableEq, Inhabited

namespace Location

def moveBy (p : Location) (x y : ℚ) : Location := ⟨p.xPos + x,p.yPos + y⟩

def snapToPosition (p : Location) (x y distance : ℚ) : Location :=
  ⟨if |p.xPos - x| < distance then x else p.xPos,if |p.yPos - y| < distance then y else p.yPos⟩

-- distanceFrom(otherLocation) < limit, without the root.
def nearer (p otherLocation : Location) (limit : ℚ) : Bool :=
  decide (0 < limit ∧ (p.xPos - otherLocation.xPos) ^ 2 + (p.yPos - otherLocation.yPos) ^ 2 < limit ^ 2)

end Location

structure MovementInstance where
  xAdj : ℚ
  yAdj : ℚ
  hasMoved : Bool
deriving DecidableEq

def MovementInstance.applyMovement (m : MovementInstance) (position : Location) : MovementInstance × Location :=
  let m := {m with hasMoved := false}
  if m.xAdj ≠ 0 ∨ m.yAdj ≠ 0 then ({m with hasMoved := true},position.moveBy m.xAdj m.yAdj) else (m,position)

structure LocationMovement where
  position : Location
  destination : Location
deriving DecidableEq, Inhabited

def LocationMovement.updateMovement (m : LocationMovement) (movementSpeed : ℚ) : MovementInstance × LocationMovement :=
  let xAdj := if m.position.xPos < m.destination.xPos then movementSpeed else 0
  let xAdj := if m.position.xPos > m.destination.xPos then -movementSpeed else xAdj
  let yAdj := if m.position.yPos < m.destination.yPos then movementSpeed else 0
  let yAdj := if m.position.yPos > m.destination.yPos then -movementSpeed else yAdj
  let (adjustment,position) := MovementInstance.applyMovement ⟨xAdj,yAdj,false⟩ m.position
  (adjustment,{m with position := position})

structure Being extends LocationMovement where
  isLeft : ℕ
  animframe : ℤ
  isMoving : Bool
  movementSpeed : ℚ
deriving DecidableEq, Inhabited

namespace Being

def make (x y speed : ℚ) : Being where
  position := ⟨x,y⟩
  destination := ⟨x,y⟩
  isLeft := 0
  animframe := 0
  isMoving := false
  movementSpeed := speed

def setDestination (b : Being) (x y : ℚ) : Being := {b with destination := ⟨x,y⟩}

def animate (b : Being) (xAdj : ℚ) : Being :=
  let b := if xAdj > 0 then {b with isLeft := 0} else b
  let b := if xAdj < 0 then {b with isLeft := 1} else b
  if b.isLeft = 0 then {b with animframe := (b.animframe + 1) % 6} else
    let b := {b with animframe := b.animframe - 1}
    if b.animframe < 0 then {b with animframe := 5} else b

-- It returns IsMoving.
def updateMovement (b : Being) : Being :=
  let b := {b with position :=
    b.position.snapToPosition b.destination.xPos b.destination.yPos b.movementSpeed}
  let (adjustment,movement) := b.toLocationMovement.updateMovement b.movementSpeed
  let b := {b with toLocationMovement := movement, isMoving := adjustment.hasMoved}
  if b.isMoving then b.animate adjustment.xAdj else b

end Being

structure Human extends Being where
  isInBase : Bool
deriving DecidableEq, Inhabited

def Human.make (x y : ℚ) : Human := {Being.make x y 3 with isInBase := false}

def Zombie.make (x y : ℚ) : Being := Being.make x y 2

structure Base where
  position : Location
  radius : ℚ
  arcspan : ℚ
  occupied : Bool
deriving DecidableEq, Inhabited

namespace Base

def make (x y r : ℚ) : Base := ⟨⟨x,y⟩,r,2 * Consts.mPi,false⟩

def decay (b : Base) : Base × Bool :=
  let arcspan := b.arcspan - 0.005
  let arcspan := if arcspan < 0 then 0 else arcspan
  ({b with arcspan := arcspan},if arcspan ≤ 0 then false else true)

def updateOccupiedState (b : Base) (playerToCheck : Human) : Base :=
  {b with occupied := b.position.nearer playerToCheck.position b.radius}

end Base

abbrev Draws := ℕ → ℚ

def random (d : Draws) : ℚ × Draws := (d 0,fun n => d (n + 1))

-- `beings` are the zombies and then the player. The timers run once the page is
-- initialised.
structure Page where
  bases : List Base
  zombies : List Being
  player : Human
  mapOffsetX : ℚ
  mapOffsetY : ℚ
  canvasWidth : ℕ
  canvasHeight : ℕ
deriving DecidableEq

namespace Page

def viewSetOffset (g : Page) (x y : ℚ) : Page :=
  let x := if x < 0 then 0 else x
  let x := if x > mapWidth - g.canvasWidth then mapWidth - g.canvasWidth else x
  let y := if y < 0 then 0 else y
  let y := if y > mapHeight - g.canvasHeight then mapHeight - g.canvasHeight else y
  {g with mapOffsetX := x, mapOffsetY := y}

def viewMoveOffset (g : Page) (x y : ℚ) : Page := g.viewSetOffset (g.mapOffsetX + x) (g.mapOffsetY + y)

def viewToCenter (g : Page) (x y : ℚ) : Page :=
  g.viewSetOffset (x - (g.canvasWidth / 2 : ℕ)) (y - (g.canvasHeight / 2 : ℕ))

def scroll (extent offBy : ℚ) : ℚ :=
  let mapScrollBorder := extent / 3
  let offsetBy := if offBy < mapScrollBorder then offBy - mapScrollBorder else 0
  if offBy > extent - mapScrollBorder then offBy - (extent - mapScrollBorder) else offsetBy

def draw (g : Page) : Page :=
  let offsetByX := scroll g.canvasWidth (g.player.position.xPos - g.mapOffsetX)
  let offsetByY := scroll g.canvasHeight (g.player.position.yPos - g.mapOffsetY)
  if offsetByX ≠ 0 ∨ offsetByY ≠ 0 then g.viewMoveOffset offsetByX offsetByY else g

def onClick (g : Page) (clientX clientY : ℚ) : Page :=
  let being := g.player.setDestination (g.mapOffsetX + clientX) (g.mapOffsetY + clientY)
  {g with player := {g.player with toBeing := being}}

def onResize (g : Page) (width height : ℕ) : Page := ({g with canvasWidth := width, canvasHeight := height} : Page).draw

def updateBasesOccupiedState (g : Page) : Page :=
  let bases := g.bases.map (Base.updateOccupiedState · g.player)
  {g with bases := bases, player := {g.player with isInBase := bases.any Base.occupied}}

-- The loop of updateBasesDecay, from the last base to the first: what is left of the
-- bases, and whether one was removed.
def decayBases (bases : List Base) : List Base × Bool :=
  bases.foldr (fun b left =>
    let b := b.decay.1
    if b.arcspan ≤ 0 then (left.1,true) else (b :: left.1,left.2)) ([],false)

def updateBasesDecay (g : Page) : Page :=
  let (bases,baseRemoved) := decayBases g.bases
  let g := {g with bases := bases}
  if baseRemoved then g.updateBasesOccupiedState else g

def stopZombies (g : Page) : Page :=
  if g.player.isInBase then
    {g with zombies := g.zombies.map fun z =>
      if g.player.position.nearer z.position 100 then z.setDestination z.position.xPos z.position.yPos else z}
  else g

def timedMovementUpdate (g : Page) : Page :=
  let g := g.updateBasesDecay
  let g := g.stopZombies
  let zombies := g.zombies.map Being.updateMovement
  let player := g.player.toBeing.updateMovement
  let beingHasMoved := zombies.any Being.isMoving || player.isMoving
  let g := {g with zombies := zombies, player := {g.player with toBeing := player}}
  let g := if beingHasMoved && g.player.isMoving then g.updateBasesOccupiedState else g
  g.draw

def seek (player : Location) (z : Being) (d : Draws) : Being × Draws :=
  let (check,d) : Bool × Draws := if z.isMoving then (decide ((random d).1 > 0.9),(random d).2) else (true,d)
  if check then
    let (near,d) := random d
    if near > 0.5 then
      let (x,d) := random d
      let (y,d) := random d
      (z.setDestination (player.xPos + (x * 100 - 50)) (player.yPos + (y * 100 - 50)),d)
    else
      let (far,d) := random d
      if far > 0.9 then
        let (x,d) := random d
        let (y,d) := random d
        (z.setDestination (x * mapWidth) (y * mapHeight),d)
      else (z,d)
  else (z,d)

def seekAll (player : Location) : List Being → Draws → List Being × Draws
  | [],d => ([],d)
  | z :: rest,d =>
    let (z,d) := seek player z d
    let (rest,d) := seekAll player rest d
    (z :: rest,d)

def timedZombieDestinationAndCreateBaseUpdate (g : Page) (d : Draws) : Page :=
  let (zombies,d) := seekAll g.player.position g.zombies d
  let g := {g with zombies := zombies}
  if g.bases.length < numberOfBases then
    let (create,d) := random d
    if create > 0.6 then
      let (x,d) := random d
      let (y,_) := random d
      {g with bases := g.bases ++ [Base.make (x * mapWidth) (y * mapHeight) 50]}
    else g
  else g

def places : ℕ → Draws → List Location × Draws
  | 0,d => ([],d)
  | n + 1,d =>
    let (x,d) := random d
    let (y,d) := random d
    let (rest,d) := places n d
    (⟨x * mapWidth,y * mapHeight⟩ :: rest,d)

def init (canvasWidth canvasHeight : ℕ) (d : Draws) : Page :=
  let (homes,d) := places numberOfZombies d
  let (sites,_) := places (numberOfBases / 2) d
  let bases := sites.map fun p => Base.make p.xPos p.yPos 50
  let g : Page := {
    bases := bases
    zombies := homes.map fun p => Zombie.make p.xPos p.yPos
    player := Human.make bases.headI.position.xPos bases.headI.position.yPos
    mapOffsetX := 0
    mapOffsetY := 0
    canvasWidth := canvasWidth
    canvasHeight := canvasHeight}
  let g := g.updateBasesOccupiedState
  (g.viewToCenter g.player.position.xPos g.player.position.yPos).draw

end Page

inductive PageEvent where
  | click (clientX clientY : ℚ)
  | resize (width height : ℕ)
  | movement
  | zombieDestinationAndCreateBase (draws : Draws)

def Page.step (g : Page) : PageEvent → Except Empty Page
  | .click clientX clientY => .ok (g.onClick clientX clientY)
  | .resize width height => .ok (g.onResize width height)
  | .movement => .ok g.timedMovementUpdate
  | .zombieDestinationAndCreateBase draws => .ok (g.timedZombieDestinationAndCreateBaseUpdate draws)

end Geoff.GameScript
