import Geoff.Canvas
import Geoff.Contexts
import Geoff.Mirror

-- What the pages paint against what the server holds: the figures of a window on the
-- universe and of the radar, and how far off the painted ones are.
namespace Geoff.Painting
open Canvas Client Messages Mirror RoundTrips World
open CollisionBounds (Sized Rocks reachable_sized)
open ShipBounds (field)
open Viewport (Fits Framed Lasting Served Windows)

inductive Shape where
  | hull (color : Style) (a : ℚ)
  | flame (a : ℚ)
  | blast
  | disc (color : Style) (radius : ℚ)

structure Figure where
  shape : Shape
  x : ℚ
  y : ℚ

def Figure.paint (m : Math) (f : Figure) : List Paint :=
  match f.shape with
  | .hull color a => [drawShip m f.x f.y a color]
  | .flame a => [drawThruster m f.x f.y a]
  | .blast => drawExplosion f.x f.y
  | .disc color radius => [drawBullet f.x f.y radius color]

def paintAll (m : Math) (figures : List Figure) : List Paint := figures.flatMap (Figure.paint m)

def Shape.Like : Shape → Shape → Prop
  | .hull color a,.hull color' a' => color' = color ∧ |a' - a| < 1 / 4096
  | .flame a,.flame a' => |a' - a| < 1 / 4096
  | .blast,.blast => True
  | .disc color radius,.disc color' radius' => color' = color ∧ |radius' - radius| < 1
  | _,_ => False

structure Near (e : ℚ) (f f' : Figure) : Prop where
  shape : f.shape.Like f'.shape
  x : |f'.x - f.x| < e
  y : |f'.y - f.y| < e

def vessel (s : Ship) : List Shape :=
  if s.exploding then if s.dead then [] else [.blast]
  else (if s.visible ∧ ¬ s.dead then [.hull .white s.angle] else []) ++
    if s.thrusting ∧ ¬ s.dead then [.flame s.angle] else []

def inWindow (c : Context) (place : Position) (shape : Shape) : Figure :=
  ⟨shape,place.posX - c.ctxOX.toNat,place.posY - c.ctxOY.toNat⟩

def onRadar (c : Context) (color : Style) (place : Position) : Figure :=
  ⟨.disc color 2,place.posX / 32 + (c.ctxW.toNat - 256),place.posY / 32⟩

section Scenes
variable (rocks : List RockNode) (ships : List Ship) (p : Player)

def view : List Figure :=
  (vessel p.ship).map (inWindow p.toContext p.ship.toPosition) ++
    (p.ship.gun.bullets.map (fun b => inWindow p.toContext b.toPosition (.disc .cyan 2)) ++
      (ships.map (fun s => inWindow p.toContext s.toPosition (.hull .yellow s.angle)) ++
        ((bulletsOf ships).map (fun b => inWindow p.toContext b.toPosition (.disc .red 2)) ++
          rocks.map fun node => inWindow p.toContext node.rock.toPosition (.disc .green node.rock.radius))))

def chart : List Figure :=
  rocks.map (fun node => onRadar p.toContext .green node.rock.toPosition) ++
    onRadar p.toContext .white p.ship.toPosition :: ships.map fun s => onRadar p.toContext .yellow s.toPosition

end Scenes

def radarFrame (c : Context) : List Paint := [
  .strokeRect .blue (c.ctxW.toNat - 256) 0 256 256,
  .strokeRect .cyan (c.ctxW.toNat - 256 + c.ctxOX.toNat / 32) (c.ctxOY.toNat / 32) (c.ctxW.toNat / 32) (c.ctxH.toNat / 32)]

def OnRadar (c : Context) (dot : Figure) : Prop :=
  (c.ctxW.toNat - 256 ≤ dot.x ∧ dot.x ≤ c.ctxW.toNat) ∧ 0 ≤ dot.y ∧ dot.y ≤ 256

def sky (canv : Canv) (stars : List Point) (c : Context) : List Paint :=
  .fillRect .black 0 0 canv.width canv.height ::
    stars.map fun star => drawBullet (star.x - c.ctxOX.toNat) (star.y - c.ctxOY.toNat) 3 .white

def status (m : Math) (canv : Canv) (p : Player) : List Paint :=
  (List.range p.ship.livesLeft.toNat).map (fun (i : ℕ) => drawShip m (20 + i * 20 * 1.2) 20 (0.5 * Consts.mPi)
    (if p.ship.exploding ∧ (i : ℤ) = p.ship.livesLeft - 1 then .red else .white)) ++ [
    .fillText .white "40px arial" .right (toString p.score.toNat) (canv.width - 10) 20,
    .fillText .white "30px arial" .center "High Score: undefined" (canv.width / 2) 20]

def ending (canv : Canv) (p : Player) : List Paint := if p.phase = .gameOver then drawGameOver canv else []

-- A frame of a page: the lobby, or the window and the radar with each figure within a
-- pixel, and each dot within a 32nd, of where the server has it. Neither a dot nor the
-- frame of the window leaves the radar.
structure Painted (m : Math) (canv : Canv) (stars : List Point) (rocks : List RockNode) (ships : List Ship) (p : Player)
    (frame : List Paint) : Prop where
  lobby : p.phase = .inLobby → frame = drawLobby canv
  game : p.phase ≠ .inLobby → ∃ figures dots, List.Forall₂ (Near 1) (view rocks ships p) figures ∧
    List.Forall₂ (Near (1 / 32)) (chart rocks ships p) dots ∧ (∀ dot ∈ dots, OnRadar p.toContext dot) ∧
    frame = ending canv p ++ sky canv stars p.toContext ++ paintAll m figures ++ radarFrame p.toContext ++ paintAll m dots ++
      status m canv p ++ ending canv p
  window : Framed p.toContext

def clientVessel (ship : ClientShip) : List Shape :=
  if ship.exploding then if ship.dead then [] else [.blast]
  else (if ship.visible ∧ ¬ ship.dead then [.hull .white ship.a] else []) ++
    if ship.thrusting ∧ ¬ ship.dead then [.flame ship.a] else []

def figures (c : Globals) : List Figure :=
  (clientVessel c.ship).map (fun shape => ⟨shape,c.ship.x - number c.contextOffsetX,c.ship.y - number c.contextOffsetY⟩) ++
    (c.ship.bullets.map (fun bullet => ⟨.disc .cyan 2,bullet.x,bullet.y⟩) ++
      (c.universeShips.map (fun ship =>
          ⟨.hull .yellow ship.angle,ship.x - number c.contextOffsetX,ship.y - number c.contextOffsetY⟩) ++
        (c.universeBullets.map (fun bullet =>
            ⟨.disc (.ofColor bullet.color) bullet.radius,bullet.x - number c.contextOffsetX,bullet.y - number c.contextOffsetY⟩) ++
          c.universeRocks.map fun rock =>
            ⟨.disc .green rock.r,rock.x - number c.contextOffsetX,rock.y - number c.contextOffsetY⟩)))

def clientDot (c : Globals) (color : Style) (x y : ℚ) : Figure :=
  ⟨.disc color 2,x / 32 + (number c.contextWidth - number c.universeWidth / 32),y / 32 + 0⟩

def dots (c : Globals) : List Figure :=
  c.universeRocks.map (fun rock => clientDot c .green rock.x rock.y) ++
    clientDot c .white c.ship.x c.ship.y :: c.universeShips.map fun ship => clientDot c .yellow ship.x ship.y

theorem paintAll_append (m : Math) (first rest : List Figure) : paintAll m (first ++ rest) = paintAll m first ++ paintAll m rest :=
  List.flatMap_append

theorem paintAll_map {α : Type} (m : Math) (f : α → Figure) (paint : α → Paint) (each : ∀ x, (f x).paint m = [paint x])
    (xs : List α) : paintAll m (xs.map f) = xs.map paint := by
  induction xs with
  | nil => rfl
  | cons x rest ih =>
    rw [List.map_cons,List.map_cons,← ih]
    show (f x).paint m ++ _ = _
    rw [each]
    rfl

theorem vessel_paints (m : Math) (ship : ClientShip) (posX posY : ℚ) :
    paintAll m ((clientVessel ship).map fun shape => ⟨shape,posX,posY⟩) = drawShipFully m ship posX posY := by
  unfold clientVessel drawShipFully
  split
  · split
    · rfl
    · exact List.append_nil _
  · split
    · split <;> rfl
    · split <;> rfl

theorem figures_paint (m : Math) (c : Globals) : paintAll m (figures c) =
    drawShipFully m c.ship (c.ship.x - number c.contextOffsetX) (c.ship.y - number c.contextOffsetY) ++ (drawBullets c.ship ++
      (drawOtherShips m c ++ (drawOtherBullets c ++ drawRocks c))) := by
  unfold figures
  simp only [paintAll_append,vessel_paints]
  congr 1
  congr 1
  · exact paintAll_map m _ _ (fun _ => rfl) _
  congr 1
  · exact paintAll_map m _ _ (fun _ => rfl) _
  congr 1
  · exact paintAll_map m _ _ (fun _ => rfl) _
  · exact paintAll_map m _ _ (fun _ => rfl) _

theorem near_trunc (x : ℚ) : |(trunc x : ℚ) - x| < 1 := by
  rw [abs_lt]
  unfold trunc
  split
  · constructor
    · linarith [Int.lt_floor_add_one x]
    · linarith [Int.floor_le x]
  · constructor
    · linarith [Int.le_ceil x]
    · linarith [Int.ceil_lt_add_one x]

-- The angles of the messages are whole 4096ths.
theorem near_angle (a : ℚ) : |((⌊a * 4096⌋ : ℚ) / 4096) - a| < 1 / 4096 := by
  have below := Int.floor_le (a * 4096)
  have above := Int.lt_floor_add_one (a * 4096)
  rw [abs_lt]
  constructor
  · linarith
  · linarith

theorem near_placed (c : Context) (place : Position) {shape shape' : Shape} (like : shape.Like shape') :
    Near 1 (inWindow c place shape) ⟨shape',trunc place.posX - c.ctxOX.toNat,trunc place.posY - c.ctxOY.toNat⟩ where
  shape := like
  x := by
    show |(trunc place.posX - c.ctxOX.toNat : ℚ) - (place.posX - c.ctxOX.toNat)| < 1
    rw [sub_sub_sub_cancel_right]
    exact near_trunc _
  y := by
    show |(trunc place.posY - c.ctxOY.toNat : ℚ) - (place.posY - c.ctxOY.toNat)| < 1
    rw [sub_sub_sub_cancel_right]
    exact near_trunc _

theorem near_dot (c : Context) (color : Style) (place : Position) :
    Near (1 / 32) (onRadar c color place)
      ⟨.disc color 2,trunc place.posX / 32 + (c.ctxW.toNat - 256),trunc place.posY / 32⟩ where
  shape := ⟨rfl,by norm_num⟩
  x := by
    have near := abs_lt.mp (near_trunc place.posX)
    show |(trunc place.posX / 32 + (c.ctxW.toNat - 256) : ℚ) - (place.posX / 32 + (c.ctxW.toNat - 256))| < 1 / 32
    rw [abs_lt]
    constructor
    · linarith [near.1]
    · linarith [near.2]
  y := by
    have near := abs_lt.mp (near_trunc place.posY)
    show |(trunc place.posY / 32 : ℚ) - place.posY / 32| < 1 / 32
    rw [abs_lt]
    constructor
    · linarith [near.1]
    · linarith [near.2]

theorem dot_within (c : Context) (color : Style) {place : Position} (inside : Inside place) :
    OnRadar c ⟨.disc color 2,trunc place.posX / 32 + (c.ctxW.toNat - 256),trunc place.posY / 32⟩ := by
  have whole : ∀ x : ℚ, 0 ≤ x → x ≤ 8192 → (0 : ℚ) ≤ trunc x ∧ (trunc x : ℚ) ≤ 8192 := by
    intro x low high
    refine ⟨by exact_mod_cast trunc_nonneg low,?_⟩
    rw [trunc,if_pos low]
    exact (Int.floor_le x).trans high
  obtain ⟨⟨left,right⟩,top,bottom⟩ := inside
  obtain ⟨least,most⟩ := whole _ left right
  obtain ⟨first,last⟩ := whole _ top bottom
  refine ⟨⟨?_,?_⟩,?_,?_⟩
  · show (c.ctxW.toNat : ℚ) - 256 ≤ trunc place.posX / 32 + (c.ctxW.toNat - 256)
    linarith
  · show (trunc place.posX / 32 + (c.ctxW.toNat - 256) : ℚ) ≤ c.ctxW.toNat
    linarith
  · show (0 : ℚ) ≤ trunc place.posY / 32
    linarith
  · show (trunc place.posY : ℚ) / 32 ≤ 256
    linarith

theorem forall₂_each {α β γ : Type} {R : β → γ → Prop} {f : α → β} {f' : α → γ} {xs : List α} (each : ∀ x ∈ xs, R (f x) (f' x)) :
    List.Forall₂ R (xs.map f) (xs.map f') := by
  rw [List.forall₂_map_left_iff,List.forall₂_map_right_iff]
  exact List.forall₂_same.mpr each

theorem vessel_like {p : Player} {c : Globals} {id ticks : UInt32} (shown : PlayerShown p id ticks c) :
    List.Forall₂ Shape.Like (vessel p.ship) (clientVessel c.ship) := by
  have turned : |c.ship.a - p.ship.angle| < 1 / 4096 := by
    rw [shown.angle]
    exact near_angle _
  unfold vessel clientVessel
  rw [shown.exploding,shown.visible,shown.dead,shown.thrusting]
  split
  · split
    · exact .nil
    · exact .cons trivial .nil
  · refine List.rel_append ?_ ?_
    · split
      · exact .cons ⟨rfl,turned⟩ .nil
      · exact .nil
    · split
      · exact .cons turned .nil
      · exact .nil

section Shown
variable {g : Game} {ships : List Ship} {p : Player} {c : Globals} {id ticks : UInt32}

theorem window_shown (own : PlayerShown p id ticks c) :
    (number c.contextOffsetX : ℚ) = p.ctxOX.toNat ∧ (number c.contextOffsetY : ℚ) = p.ctxOY.toNat ∧
      (number c.contextWidth : ℚ) = p.ctxW.toNat ∧ (number c.contextHeight : ℚ) = p.ctxH.toNat := by
  rw [own.contextOffsetX,own.contextOffsetY,own.contextWidth,own.contextHeight]
  exact ⟨rfl,rfl,rfl,rfl⟩

theorem figures_near (universal : UniverseShown g id ships c) (own : PlayerShown p id ticks c) :
    List.Forall₂ (Near 1) (view g.gUniverse.rockField.rocks ships p) (figures c) := by
  obtain ⟨left,top,-,-⟩ := window_shown own
  unfold view figures
  rw [left,top,own.shipX,own.shipY,own.bullets,universal.universeShips,universal.universeBullets,universal.universeRocks]
  simp only [List.map_map]
  refine List.rel_append ?_ (List.rel_append ?_ (List.rel_append ?_ (List.rel_append ?_ ?_)))
  · rw [List.forall₂_map_left_iff,List.forall₂_map_right_iff]
    exact (vessel_like own).imp fun shape shape' like => near_placed p.toContext p.ship.toPosition like
  · refine forall₂_each fun b _ => ?_
    have like : Shape.Like (.disc .cyan 2) (.disc .cyan 2) := ⟨rfl,by norm_num⟩
    have near := near_placed p.toContext b.toPosition like
    refine ⟨near.shape,?_,?_⟩
    · have x := near.x
      simp only [Function.comp_apply]
      push_cast
      exact x
    · have y := near.y
      simp only [Function.comp_apply]
      push_cast
      exact y
  · refine forall₂_each fun s _ => ?_
    exact near_placed p.toContext s.toPosition ⟨rfl,near_angle s.angle⟩
  · refine forall₂_each fun b _ => ?_
    have like : Shape.Like (.disc .red 2) (.disc .red 2) := ⟨rfl,by norm_num⟩
    exact near_placed p.toContext b.toPosition like
  · refine forall₂_each fun node _ => ?_
    have like : Shape.Like (.disc .green node.rock.radius) (.disc .green (trunc node.rock.radius)) := ⟨rfl,near_trunc _⟩
    exact near_placed p.toContext node.rock.toPosition like

theorem client_dot (wide : number c.universeWidth = 8192) (own : PlayerShown p id ticks c) (color : Style) (x y : ℚ) :
    clientDot c color x y = ⟨.disc color 2,x / 32 + (p.ctxW.toNat - 256),y / 32⟩ := by
  obtain ⟨-,-,width,-⟩ := window_shown own
  have whole : (8192 : ℚ) / 32 = 256 := by norm_num
  rw [clientDot,width,wide,add_zero,Int.cast_ofNat,whole]

theorem dots_near (wide : number c.universeWidth = 8192) (universal : UniverseShown g id ships c)
    (own : PlayerShown p id ticks c) :
    List.Forall₂ (Near (1 / 32)) (chart g.gUniverse.rockField.rocks ships p) (dots c) := by
  unfold chart dots
  rw [universal.universeShips,universal.universeRocks,own.shipX,own.shipY]
  simp only [List.map_map]
  refine List.rel_append ?_ (.cons ?_ ?_)
  · refine forall₂_each fun node _ => ?_
    rw [Function.comp_apply,client_dot wide own]
    exact near_dot p.toContext .green node.rock.toPosition
  · rw [client_dot wide own]
    exact near_dot p.toContext .white p.ship.toPosition
  · refine forall₂_each fun s _ => ?_
    rw [Function.comp_apply,client_dot wide own]
    exact near_dot p.toContext .yellow s.toPosition

theorem dots_within (wide : number c.universeWidth = 8192) (universal : UniverseShown g id ships c)
    (own : PlayerShown p id ticks c) (insideRocks : ∀ node ∈ g.gUniverse.rockField.rocks, Inside node.rock.toPosition)
    (insideShips : ∀ s ∈ ships, Inside s.toPosition) (inside : Inside p.ship.toPosition) :
    ∀ dot ∈ dots c, OnRadar p.toContext dot := by
  intro dot member
  rcases List.mem_append.mp member with rock | other
  · rw [universal.universeRocks,List.map_map] at rock
    obtain ⟨node,listed,rfl⟩ := List.mem_map.mp rock
    rw [Function.comp_apply,client_dot wide own]
    exact dot_within p.toContext .green (insideRocks node listed)
  · rcases List.mem_cons.mp other with rfl | ship
    · rw [client_dot wide own,own.shipX,own.shipY]
      exact dot_within p.toContext .white inside
    · rw [universal.universeShips,List.map_map] at ship
      obtain ⟨s,listed,rfl⟩ := List.mem_map.mp ship
      rw [Function.comp_apply,client_dot wide own]
      exact dot_within p.toContext .yellow (insideShips s listed)

theorem radar_painted (m : Math) (wide : number c.universeWidth = 8192) (high : number c.universeHeight = 8192)
    (own : PlayerShown p id ticks c) : drawRadar c = radarFrame p.toContext ++ paintAll m (dots c) := by
  obtain ⟨left,top,width,height⟩ := window_shown own
  have rocks := paintAll_map m (fun rock : ClientRock => clientDot c .green rock.x rock.y) _ (fun _ => rfl) c.universeRocks
  have others := paintAll_map m (fun ship : OtherShip => clientDot c .yellow ship.x ship.y) _ (fun _ => rfl) c.universeShips
  have whole : (8192 : ℚ) / 32 = 256 := by norm_num
  have painted : paintAll m (dots c) = _ ++ drawBullet (clientDot c .white c.ship.x c.ship.y).x
      (clientDot c .white c.ship.x c.ship.y).y 2 .white :: _ :=
    (paintAll_append m _ _).trans (congrArg₂ (· ++ drawBullet _ _ 2 .white :: ·) rocks others)
  rw [painted]
  simp only [drawRadar,radarScaler,radarFrame,clientDot,width,height,left,top,wide,high,Int.cast_ofNat,whole,zero_add]
  rfl

theorem status_painted (m : Math) (canv : Canv) (own : PlayerShown p id ticks c) : drawGameInfo m canv c = status m canv p := by
  have count : p.ship.livesLeft.toNat = c.lives.toNat := by
    have lives := own.lives
    omega
  unfold drawGameInfo status
  rw [own.lives,own.exploding,own.score,count,show shipSize = 20 from rfl,show (20 : ℚ) / 2 = 10 by norm_num]

theorem sky_painted (canv : Canv) (own : PlayerShown p id ticks c) :
    drawSpace canv c = sky canv c.universeStars p.toContext := by
  obtain ⟨left,top,-,-⟩ := window_shown own
  rw [drawSpace,left,top]
  rfl

theorem update_painted (m : Math) (canv : Canv) (wide : g.gUniverse.toSize = field) (universal : UniverseShown g id ships c)
    (own : PlayerShown p id ticks c) (insideRocks : ∀ node ∈ g.gUniverse.rockField.rocks, Inside node.rock.toPosition)
    (insideShips : ∀ s ∈ ships, Inside s.toPosition) (inside : Inside p.ship.toPosition) (framed : Framed p.toContext) :
    Painted m canv c.universeStars g.gUniverse.rockField.rocks ships p (update m canv c) := by
  have across : number c.universeWidth = 8192 := by
    rw [universal.universeWidth,show g.gUniverse.sizeW = 8192 from congrArg Size.sizeW wide]
    norm_num [trunc]
  have down : number c.universeHeight = 8192 := by
    rw [universal.universeHeight,show g.gUniverse.sizeH = 8192 from congrArg Size.sizeH wide]
    norm_num [trunc]
  refine ⟨?_,?_,framed⟩
  · intro lobby
    unfold update
    rw [own.phase,lobby]
    rfl
  · intro started
    refine ⟨figures c,dots c,figures_near universal own,dots_near across universal own,
      dots_within across universal own insideRocks insideShips inside,?_⟩
    have running : c.phase ≠ 0 := by
      rw [own.phase]
      cases phase : p.phase with
      | inLobby => exact absurd phase started
      | playing => decide
      | gameOver => decide
    have ended : (if c.phase = 2 then drawGameOver canv else []) = ending canv p := by
      rw [own.phase,ending]
      cases p.phase <;> rfl
    unfold update
    rw [if_neg running]
    dsimp only
    rw [ended,sky_painted canv own,radar_painted m across down own,status_painted m canv own,figures_paint]
    simp only [List.append_assoc]

end Shown

def Paints (data : List UInt8) : Prop := data[0]? = some 0xBB ∧ data[1]? = some MessageType.playerTickMessage.toUInt8

theorem page_reads (m : Math) (canv : Canv) (page : Page) {first second : List UInt8} {c' : Globals} (quiet : ¬ Paints first)
    (paints : Paints second) (handled : Client.handleMessages page.globals [first,second] = some c') :
    page.handleMessages m canv [first,second] = some ⟨c',page.paints ++ update m canv c'⟩ := by
  unfold Client.handleMessages at handled
  obtain ⟨c,one,rest⟩ := Option.bind_eq_some_iff.mp handled
  obtain ⟨c'',two,last⟩ := Option.bind_eq_some_iff.mp rest
  cases last
  have before : page.handleMessageEvent m canv first = some ⟨c,page.paints⟩ := by
    unfold Page.handleMessageEvent
    rw [one]
    exact congrArg (fun painted => some (⟨c,page.paints ++ painted⟩ : Page)) (if_neg quiet) |>.trans (by rw [List.append_nil])
  have after : Page.handleMessageEvent m canv ⟨c,page.paints⟩ second = some ⟨c',page.paints ++ update m canv c'⟩ := by
    unfold Page.handleMessageEvent
    rw [two]
    exact congrArg (fun painted => some (⟨c',page.paints ++ painted⟩ : Page)) (if_pos paints)
  unfold Page.handleMessages
  exact Option.bind_eq_some_iff.mpr ⟨_,before,Option.bind_eq_some_iff.mpr ⟨_,after,rfl⟩⟩

theorem universeTick_quiet {A : Arith} (g : Game) (sessions : SessionMap) (id : UInt32) :
    ¬ Paints (universeTick A true g sessions id) := by
  rw [universeTick_split]
  rintro ⟨_,impossible⟩
  cases impossible

theorem playerTick_paints {A : Arith} (p : Player) (id ticks : UInt32) : Paints (playerTick A true p id ticks) := by
  rw [playerTick_split]
  exact ⟨rfl,rfl⟩

structure Paned (p : Player) : Prop where
  framed : Framed p.toContext
  docked : Framed p.ship.toContext
  wide : p.ship.ctxW = p.ctxW
  high : p.ship.ctxH = p.ctxH

theorem moveShip_sizes {A : Arith} (s : Ship) (u : Size) : (s.moveShip A u).ctxW = s.ctxW ∧ (s.moveShip A u).ctxH = s.ctxH := by
  have slid : ∀ s : Ship, (s.slide A u).ctxW = s.ctxW ∧ (s.slide A u).ctxH = s.ctxH := by
    intro s
    unfold Ship.slide
    split
    · exact ⟨rfl,rfl⟩
    · exact ⟨rfl,rfl⟩
  have turned := Viewport.turned_context (A := A) s
  have moved := Viewport.moveShip_context (A := A) s u
  split at moved
  · exact ⟨congrArg Context.ctxW moved,congrArg Context.ctxH moved⟩
  · obtain ⟨wide,high⟩ := slid ((s.rotate A).accelerate A)
    exact ⟨(congrArg Context.ctxW moved).trans (wide.trans (congrArg Context.ctxW turned)),
      (congrArg Context.ctxH moved).trans (high.trans (congrArg Context.ctxH turned))⟩

theorem paned_lasting (cos sin : ℚ → ℚ) : Lasting (.exact cos sin) Fits Paned where
  made := by
    rintro cw ch ⟨wide,high⟩
    refine ⟨⟨?_,?_⟩,(Viewport.framed_seaworthy cos sin).made cw ch ⟨wide,high⟩,rfl,rfl⟩
    · show ((Arith.exact cos sin).toUint16 (8192 / 2) - cw / 2).toNat + cw.toNat ≤ 8192
      rw [Viewport.resized_offset cos sin wide]
      omega
    · show ((Arith.exact cos sin).toUint16 (8192 / 2) - ch / 2).toNat + ch.toNat ≤ 8192
      rw [Viewport.resized_offset cos sin high]
      omega
  played := by
    intro p event sized paned
    have docked := (Viewport.framed_seaworthy cos sin).lasting.played p event sized paned.docked
    cases event with
    | key code isDown =>
      have own : (p.keyEvent (.exact cos sin) code isDown).toContext = p.toContext := by
        simp only [Player.keyEvent]
        split
        · split <;> rfl
        · rfl
      have ships := Viewport.keyEvent_context (A := .exact cos sin) p code isDown
      refine ⟨?_,docked,?_,?_⟩
      · show Framed (p.keyEvent (.exact cos sin) code isDown).toContext
        rw [own]
        exact paned.framed
      · exact ((congrArg Context.ctxW ships).trans paned.wide).trans (congrArg Context.ctxW own).symm
      · exact ((congrArg Context.ctxH ships).trans paned.high).trans (congrArg Context.ctxH own).symm
    | resize w h =>
      obtain ⟨wide,high⟩ := sized
      refine ⟨⟨?_,?_⟩,docked,rfl,rfl⟩
      · show ((Arith.exact cos sin).toUint16 (8192 / 2) - w / 2).toNat + w.toNat ≤ 8192
        rw [Viewport.resized_offset cos sin wide]
        omega
      · show ((Arith.exact cos sin).toUint16 (8192 / 2) - h / 2).toNat + h.toNat ≤ 8192
        rw [Viewport.resized_offset cos sin high]
        omega
    | collide rocks score =>
      have ships := Viewport.scanned_context (ShipBounds.scanRocks_scanned (A := .exact cos sin) rocks p.ship)
      exact ⟨paned.framed,docked,(congrArg Context.ctxW ships).trans paned.wide,(congrArg Context.ctxH ships).trans paned.high⟩
    | tick =>
      cases dead : p.ship.dead with
      | true =>
        have own := Contexts.tick_rests (A := .exact cos sin) field dead
        have ships : (p.tick (.exact cos sin) field).ship = p.ship := tick_dead field dead
        refine ⟨?_,docked,?_,?_⟩
        · show Framed (p.tick (.exact cos sin) field).toContext
          rw [own]
          exact paned.framed
        · exact ((congrArg (fun s : Ship => s.ctxW) ships).trans paned.wide).trans (congrArg Context.ctxW own).symm
        · exact ((congrArg (fun s : Ship => s.ctxH) ships).trans paned.high).trans (congrArg Context.ctxH own).symm
      | false =>
        obtain ⟨own,ships⟩ := Contexts.tick_contexts (A := .exact cos sin) field dead
        obtain ⟨wide,high⟩ := moveShip_sizes (A := .exact cos sin) p.ship field
        refine ⟨?_,docked,?_,?_⟩
        · show Framed (p.tick (.exact cos sin) field).toContext
          rw [own]
          exact ⟨by rw [← paned.wide]; exact paned.docked.across,by rw [← paned.high]; exact paned.docked.down⟩
        · exact ((congrArg Context.ctxW ships).trans (wide.trans paned.wide)).trans (congrArg Context.ctxW own).symm
        · exact ((congrArg Context.ctxH ships).trans (high.trans paned.high)).trans (congrArg Context.ctxH own).symm

section Ticks
variable {cos sin : ℚ → ℚ} {w t : World} (ideal : (Arith.exact cos sin).Ideal)
include ideal

theorem tick_painted (served : Served Charted w) (paned : Served Paned w) (sized : Rocks Sized w.game)
    (running : w.game.gUniverse.timer.runTimer = true) (ticked : w.step (.exact cos sin) .tick = .ok t)
    (rocks : t.game.gUniverse.rockField.rocks.length < 65536) (sessions : w.gSessions.sessions.size ≤ 10922) :
    ∃ g, (w.game.moveRocks (.exact cos sin) w.game.gUniverse.timer.tick).collisionDetection (.exact cos sin) = .ok g ∧
      ∀ id s address, w.sessionAt id = some s → s.player = some address → s.isLittleEndian = true →
        t.game.memory address = (g.memory address).tick (.exact cos sin) field ∧
        ∃ first second, (t.sessionAt id).map (fun s' => s'.txQue) = some (s.txQue ++ [first,second]) ∧
          ∀ m canv (page : Page), ∃ c' frame,
            page.handleMessages m canv [first.wire,second.wire] = some ⟨c',page.paints ++ frame⟩ ∧
            Painted m canv page.globals.universeStars t.game.gUniverse.rockField.rocks
              (otherShips g id w.gSessions.sessions.toList) (t.game.memory address) frame := by
  obtain ⟨g,collided,still,told⟩ := tick_wires ideal served sized running ticked rocks sessions
  refine ⟨g,collided,fun id s address found player announced => ?_⟩
  obtain ⟨moved,fits,own,first,second,queued,universal,mine⟩ := told id s address found player announced
  refine ⟨moved,first,second,queued,fun m canv page => ?_⟩
  obtain ⟨c',handled,shown,own_shown,stars⟩ := Client.tick_shows page.globals fits own
  have size : g.gUniverse.toSize = field := (rounds_run collided).size.trans served.size
  have held : w.playerOf id = some address := (playerOf_found (sessionAt_some.mp found)).trans player
  have old : address < w.game.allocated := Flights.owned_made served.book (owned_iff.mpr ⟨id,held⟩)
  have later : address < t.game.allocated := lt_of_lt_of_eq old (PlayerEvents.tick_played ticked).allocated.symm
  have windows := Viewport.windows_tick Fits w
  have charted := (Viewport.served_step (charted_lasting ideal) served windows ticked).players address later
  have framed := ((Viewport.served_step (paned_lasting cos sin) paned windows ticked).players address later).framed
  rw [universal,mine,still,← stars]
  exact ⟨c',_,page_reads m canv page (universeTick_quiet g _ id) (playerTick_paints _ id _) handled,
    update_painted m canv size shown own_shown fits.insideRocks fits.insideShips charted.docked.inside framed⟩

-- After any run of the server, the two messages of the next tick have any page paint one
-- frame more, and it shows the game as the server leaves it.
theorem frames_painted {rand : Rand} {history : List Event}
    (windows : Runs.Steps (World.step (.exact cos sin)) (Windows Fits) (World.make (.exact cos sin) rand) history)
    (ran : Runs.run (World.step (.exact cos sin)) (World.make (.exact cos sin) rand) history = .ok w)
    (ticked : w.step (.exact cos sin) .tick = .ok t) (rocks : t.game.gUniverse.rockField.rocks.length < 65536)
    (sessions : w.gSessions.sessions.size ≤ 10922) :
    ∃ g, (w.game.moveRocks (.exact cos sin) w.game.gUniverse.timer.tick).collisionDetection (.exact cos sin) = .ok g ∧
      ∀ id s address, w.sessionAt id = some s → s.player = some address → s.isLittleEndian = true →
        t.game.memory address = (g.memory address).tick (.exact cos sin) field ∧
        ∃ first second, (t.sessionAt id).map (fun s' => s'.txQue) = some (s.txQue ++ [first,second]) ∧
          ∀ m canv (page : Page), ∃ c' frame,
            page.handleMessages m canv [first.wire,second.wire] = some ⟨c',page.paints ++ frame⟩ ∧
            Painted m canv page.globals.universeStars t.game.gUniverse.rockField.rocks
              (otherShips g id w.gSessions.sessions.toList) (t.game.memory address) frame := by
  have served := Viewport.served_run (charted_lasting ideal) windows ran
  have paned := Viewport.served_run (paned_lasting cos sin) windows ran
  have running : w.game.gUniverse.timer.runTimer = true := by
    rw [(timer_run ran).1]
    rfl
  exact tick_painted ideal served paned (reachable_sized ideal ran) running ticked rocks sessions

end Ticks

theorem turned_painted : ∃ v t g s page frame, Turned v t s ∧
    (∃ first second, (t.sessionAt 0).map (fun s' => s'.txQue) = some (s.txQue ++ [first,second]) ∧
      Page.handleMessages ⟨fun _ => 0,fun _ => 1⟩ ⟨800,600⟩ ⟨loaded,[]⟩ [first.wire,second.wire] = some page) ∧
    page.paints = frame ∧ Painted ⟨fun _ => 0,fun _ => 1⟩ ⟨800,600⟩ [] t.game.gUniverse.rockField.rocks
      (otherShips g 0 v.gSessions.sessions.toList) (t.game.memory 0) frame := by
  obtain ⟨v,t,s,turned⟩ := turned_tick
  have ideal : (Arith.exact (fun _ => 0) fun _ => 1).Ideal := upright_ideal
  have few : t.game.gUniverse.rockField.rocks.length < 65536 := by
    rw [turned.rock]
    decide
  obtain ⟨g,_,told⟩ := frames_painted ideal turned.windows turned.run turned.ticked few turned.sessions
  obtain ⟨_,first,second,queued,painted⟩ := told 0 s 0 turned.held turned.own turned.announced
  obtain ⟨c',frame,handled,shown⟩ := painted ⟨fun _ => 0,fun _ => 1⟩ ⟨800,600⟩ ⟨loaded,[]⟩
  exact ⟨v,t,g,s,⟨c',frame⟩,frame,turned,⟨first,second,queued,handled⟩,rfl,shown⟩

end Geoff.Painting
