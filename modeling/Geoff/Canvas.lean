import Geoff.MessageEvents

-- The painting of www/asteroids/asteroids.js: what update() puts on the canvas, one piece
-- over the other, with exact numbers.
namespace Geoff.Canvas
open Client OutgoingStream

structure Canv where
  width : ℕ
  height : ℕ

structure Math where
  cos : ℚ → ℚ
  sin : ℚ → ℚ

inductive Style where
  | black
  | white
  | cyan
  | blue
  | red
  | yellow
  | green
  | darkred
  | orange
  | rgba (r g b a : ℕ)
deriving DecidableEq, Repr

def Style.ofColor : Color → Style
  | .red => .red

inductive TextAlign where
  | left
  | center
  | right
deriving DecidableEq, Repr

-- Lines are one pixel wide and paths closed; a text has its middle at y.
inductive Paint where
  | fillRect (fillStyle : Style) (x y w h : ℚ)
  | fillText (fillStyle : Style) (font : String) (textAlign : TextAlign) (text : String) (x y : ℚ)
  | fillArc (fillStyle : Style) (x y radius : ℚ)
  | strokeRect (strokeStyle : Style) (x y w h : ℚ)
  | strokePath (strokeStyle : Style) (points : List (ℚ × ℚ))
deriving DecidableEq

def shipSize : ℚ := 20
def textSize : ℚ := 40
def radarScaler : ℚ := 32

-- ship.r, which nothing writes after newShip().
def shipR : ℚ := shipSize / 2

def drawBullet (x y radius : ℚ) (color : Style) : Paint := .fillArc color x y radius

def drawSpace (canv : Canv) (c : Globals) : List Paint :=
  .fillRect .black 0 0 canv.width canv.height ::
    c.universeStars.map fun star => drawBullet (star.x - number c.contextOffsetX) (star.y - number c.contextOffsetY) 3 .white

section Ships
variable (m : Math)

def drawShip (x y a : ℚ) (color : Style) : Paint := .strokePath color [
  (x + 4 / 3 * shipR * m.cos a,y - 4 / 3 * shipR * m.sin a),
  (x - shipR * (2 / 3 * m.cos a + m.sin a),y + shipR * (2 / 3 * m.sin a - m.cos a)),
  (x,y),
  (x - shipR * (2 / 3 * m.cos a - m.sin a),y + shipR * (2 / 3 * m.sin a + m.cos a))]

def drawThruster (posX posY a : ℚ) : Paint := .strokePath .white [
  (posX,posY),
  (posX - shipR * (2 / 3 * m.cos a + 0.5 * m.sin a),posY + shipR * (2 / 3 * m.sin a - 0.5 * m.cos a)),
  (posX - shipR * 5 / 3 * m.cos a,posY + shipR * 5 / 3 * m.sin a),
  (posX - shipR * (2 / 3 * m.cos a - 0.5 * m.sin a),posY + shipR * (2 / 3 * m.sin a + 0.5 * m.cos a))]

def drawExplosion (posX posY : ℚ) : List Paint := [
  .fillArc .darkred posX posY (shipR * 1.7),
  .fillArc .red posX posY (shipR * 1.4),
  .fillArc .orange posX posY (shipR * 1.1),
  .fillArc .yellow posX posY (shipR * 0.8),
  .fillArc .white posX posY (shipR * 0.5)]

-- SHOW_BOUNDING is false.
def drawShipFully (ship : ClientShip) (posX posY : ℚ) : List Paint :=
  if ship.exploding then if ship.dead then [] else drawExplosion posX posY
  else (if ship.visible ∧ ¬ ship.dead then [drawShip m posX posY ship.a .white] else []) ++
    if ship.thrusting ∧ ¬ ship.dead then [drawThruster m posX posY ship.a] else []

-- The positions of the bullets are already relative to the window.
def drawBullets (ship : ClientShip) : List Paint := ship.bullets.map fun bullet => drawBullet bullet.x bullet.y 2 .cyan

def drawOtherShips (c : Globals) : List Paint := c.universeShips.map fun ship =>
  drawShip m (ship.x - number c.contextOffsetX) (ship.y - number c.contextOffsetY) ship.angle .yellow

end Ships

def drawOtherBullets (c : Globals) : List Paint := c.universeBullets.map fun bullet =>
  drawBullet (bullet.x - number c.contextOffsetX) (bullet.y - number c.contextOffsetY) bullet.radius (.ofColor bullet.color)

def drawRocks (c : Globals) : List Paint := c.universeRocks.map fun rock =>
  drawBullet (rock.x - number c.contextOffsetX) (rock.y - number c.contextOffsetY) rock.r .green

def drawRadar (c : Globals) : List Paint :=
  let radarWidth := number c.universeWidth / radarScaler
  let radarHeight := number c.universeHeight / radarScaler
  let radarWW := number c.contextWidth / radarScaler
  let radarWH := number c.contextHeight / radarScaler
  let radarOX := number c.contextOffsetX / radarScaler
  let radarOY := number c.contextOffsetY / radarScaler
  let radarStartX := number c.contextWidth - radarWidth
  let radarStartY := 0
  let dot := fun (x y : ℚ) (color : Style) => drawBullet (x / radarScaler + radarStartX) (y / radarScaler + radarStartY) 2 color
  .strokeRect .blue radarStartX 0 radarWidth radarHeight ::
    .strokeRect .cyan (radarStartX + radarOX) (radarStartY + radarOY) radarWW radarWH ::
    (c.universeRocks.map (fun rock => dot rock.x rock.y .green) ++ dot c.ship.x c.ship.y .white ::
      c.universeShips.map fun ship => dot ship.x ship.y .yellow)

-- Nothing sets `textAlpha` or `scoreHigh`: the fading text is never drawn.
def drawGameInfo (m : Math) (canv : Canv) (c : Globals) : List Paint :=
  let lifeColour := fun (i : ℕ) => if c.ship.exploding ∧ (i : ℤ) = c.lives.toNat - 1 then Style.red else .white
  ((List.range c.lives.toNat).map fun (i : ℕ) =>
    drawShip m (shipSize + i * shipSize * 1.2) shipSize (0.5 * Consts.mPi) (lifeColour i)) ++ [
    .fillText .white "40px arial" .right (toString c.score.toNat) (canv.width - shipSize / 2) shipSize,
    .fillText .white "30px arial" .center "High Score: undefined" (canv.width / 2) shipSize]

def lobbyStyle : Style := .rgba 255 127 63 255

def drawHelp (anchorX y : ℚ) (key effect : String) : List Paint :=
  [.fillText lobbyStyle "20px arial" .right key anchorX y,.fillText lobbyStyle "20px arial" .left effect anchorX y]

def drawLobby (canv : Canv) : List Paint :=
  let anchorX : ℚ := canv.width / 2
  let anchorY : ℚ := canv.height * 0.25
  .fillText lobbyStyle "40px arial" .center "Multiplayer Asteroids" anchorX anchorY ::
    (drawHelp anchorX (anchorY + textSize * 2) "A, a, Left Arrow: " "Rotate ship counter-clockwise" ++
      drawHelp anchorX (anchorY + textSize * 2.5) "D, d, Right Arrow: " "Rotate ship clockwise" ++
      drawHelp anchorX (anchorY + textSize * 3) "W, w, I, i, Up Arrow: " "Ship Thrust" ++
      drawHelp anchorX (anchorY + textSize * 3.5) "Space bar: " "Fire bullet" ++
      drawHelp anchorX (anchorY + textSize * 4.5) "Click: " "Launch rock at mouse position" ++
      [.fillText lobbyStyle "20px arial" .right "Press any key to begin..." anchorX (anchorY + textSize * 6.5)])

def drawGameOver (canv : Canv) : List Paint := [
  .fillText lobbyStyle "40px arial" .center "Game Over" (canv.width / 2) (canv.height * 0.5),
  .fillText lobbyStyle "20px helvitica" .center "Press any key to play again..." (canv.width / 2)
    (canv.height * 0.5 + textSize * 2)]

def update (m : Math) (canv : Canv) (c : Globals) : List Paint :=
  if c.phase = 0 then drawLobby canv
  else
    let ending := if c.phase = 2 then drawGameOver canv else []
    let posX := c.ship.x - number c.contextOffsetX
    let posY := c.ship.y - number c.contextOffsetY
    ending ++ drawSpace canv c ++ drawShipFully m c.ship posX posY ++ drawBullets c.ship ++ drawOtherShips m c ++
      drawOtherBullets c ++ drawRocks c ++ drawRadar c ++ drawGameInfo m canv c ++ ending

structure Page where
  globals : Globals
  paints : List Paint

def Page.handleMessageEvent (m : Math) (canv : Canv) (page : Page) (data : List UInt8) : Option Page := do
  let c ← Client.handleMessageEvent page.globals data
  let painted := if data[0]? = some 0xBB ∧ data[1]? = some MessageType.playerTickMessage.toUInt8 then update m canv c else []
  return ⟨c,page.paints ++ painted⟩

def Page.handleMessages (m : Math) (canv : Canv) (page : Page) (messages : List (List UInt8)) : Option Page :=
  messages.foldlM (Page.handleMessageEvent m canv) page

end Geoff.Canvas
