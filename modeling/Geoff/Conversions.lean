import Geoff.Messages

-- The conversions from double to integer performed by the ship, its gun and the tick
-- message of the universe, in the order of the source. Another arithmetic that gives
-- the same result on them gives the same ships and the same messages.
namespace Geoff
open Consts

inductive Conversion where
  | toUint16 (x : ℚ)
  | toInt16 (x : ℚ)

namespace Conversion

def Fits : Conversion → Prop
  | .toUint16 x => 0 ≤ trunc x ∧ trunc x ≤ 65535
  | .toInt16 x => -32768 ≤ trunc x ∧ trunc x ≤ 32767

def result (A : Arith) : Conversion → UInt16
  | .toUint16 x => A.toUint16 x
  | .toInt16 x => (A.toInt16 x).toUInt16

theorem trunc_negative {x : ℚ} {lo : ℤ} (below : lo ≤ 0) (small : x ≤ (lo : ℚ) - 1) : trunc x ≤ lo - 1 := by
  have negative : x < 0 := by
    have bound : (lo : ℚ) ≤ 0 := by exact_mod_cast below
    linarith
  rw [trunc,if_neg (not_le.mpr negative)]
  exact Int.ceil_le.mpr (by push_cast; exact small)

theorem trunc_large {x : ℚ} {hi : ℤ} (above : 0 < hi) (large : (hi : ℚ) ≤ x) : hi ≤ trunc x := by
  have positive : 0 ≤ x := by
    have bound : (0 : ℚ) < hi := by exact_mod_cast above
    linarith
  rw [trunc,if_pos positive]
  exact Int.le_floor.mpr large

theorem toUint16_fits {x : ℚ} : (toUint16 x).Fits ↔ -1 < x ∧ x < 65536 := by
  constructor
  · rintro ⟨low,high⟩
    constructor
    · by_contra small
      have under := trunc_negative (Int.le_refl 0) (by push_cast; linarith)
      omega
    · by_contra large
      have past := trunc_large (show (0 : ℤ) < 65536 by decide) (by push_cast; linarith)
      omega
  · rintro ⟨low,high⟩
    obtain ⟨bottom,top⟩ := trunc_bounds (x := x) 0 65536 (by decide) (by decide) (by push_cast; linarith)
      (by push_cast; exact high)
    exact ⟨bottom,by omega⟩

theorem toInt16_fits {x : ℚ} : (toInt16 x).Fits ↔ -32769 < x ∧ x < 32768 := by
  constructor
  · rintro ⟨low,high⟩
    constructor
    · by_contra small
      have under := trunc_negative (show (-32768 : ℤ) ≤ 0 by decide) (by push_cast; linarith)
      omega
    · by_contra large
      have past := trunc_large (show (0 : ℤ) < 32768 by decide) (by push_cast; linarith)
      omega
  · rintro ⟨low,high⟩
    obtain ⟨bottom,top⟩ := trunc_bounds (x := x) (-32768) 32768 (by decide) (by decide) (by push_cast; linarith)
      (by push_cast; exact high)
    exact ⟨bottom,by omega⟩

end Conversion

open Conversion

section
variable (A : Arith) (u : Size)

namespace Ship

def makeConversions (cw ch : UInt16) : List Conversion :=
  [.toUint16 (A.fl (A.fl (u.sizeW / 2) - (cw / 2).toNat)),.toUint16 (A.fl (A.fl (u.sizeH / 2) - (ch / 2).toNat))]

def slideAxisConversions (extent margin pos : ℚ) (offset window : UInt16) : List Conversion :=
  if pos < A.fl (offset.toNat + margin) then
    if pos > margin then [.toUint16 (A.fl (pos - margin))] else []
  else if pos > A.fl (A.fl (offset.toNat + window.toNat) - margin) then
    if pos < A.fl (extent - margin) then [.toUint16 (A.fl (A.fl (pos - window.toNat) + margin))] else []
  else []

def slideConversions (s : Ship) : List Conversion :=
  if s.slideViewport then
    slideAxisConversions A u.sizeW s.viewportMargin s.posX s.ctxOX s.ctxW ++
      slideAxisConversions A u.sizeH s.viewportMargin s.posY s.ctxOY s.ctxH
  else []

-- Ship::MoveShip converts only where it slides the viewport.
def moveShipConversions (s : Ship) : List Conversion :=
  if s.exploding || s.dead then [] else slideConversions A u ((s.rotate A).accelerate A)

end Ship

def Bullet.conversions (b : Bullet) : List Conversion := [.toUint16 b.posX,.toUint16 b.posY]

def Gun.conversions (gun : Gun) : List Conversion := gun.bullets.flatMap Bullet.conversions

def Ship.places (s : Ship) : List Conversion := [.toUint16 s.posX,.toUint16 s.posY,.toUint16 (A.fl (s.angle * fp412))]

def Ship.bufferConversions (s : Ship) : List Conversion := s.gun.conversions ++ s.places A

def Player.tickConversions (p : Player) : List Conversion :=
  (if p.ship.dead then [] else p.ship.moveShipConversions A u) ++ (p.tick A u).ship.bufferConversions A

def Rock.conversions (rock : Rock) : List Conversion := [.toInt16 rock.posX,.toInt16 rock.posY,.toUint16 rock.radius]

def Bullet.otherConversions (b : Bullet) : List Conversion := [.toInt16 b.posX,.toInt16 b.posY]

def PerSession.conversions (g : Game) (m : SessionMap) (session : Session) : List Conversion :=
  [.toUint16 g.gUniverse.sizeW,.toUint16 g.gUniverse.sizeH] ++
    g.gUniverse.rockField.rocks.flatMap (fun node => node.rock.conversions) ++
    (Messages.otherShips g session.sessionID m.toList).flatMap (Ship.places A) ++
    (Messages.bulletsOf (Messages.otherShips g session.sessionID m.toList)).flatMap Bullet.otherConversions

structure Arith.SameOn (B : Arith) (conversions : List Conversion) : Prop where
  fl : B.fl = A.fl
  cos : B.cos = A.cos
  sin : B.sin = A.sin
  nearer : B.nearer = A.nearer
  each : ∀ c ∈ conversions, c.result B = c.result A

end

-- That the lists leave no conversion out: two arithmetics that differ on none of the listed
-- values make the same ship (make_complete), tick and serialise a player alike (tick_complete)
-- and build the same universe message (perSession_complete). No other module uses these.
namespace Conversions
variable {A B : Arith} {u : Size} {le : Bool}

theorem SameOn.part {conversions part : List Conversion} (same : A.SameOn B conversions)
    (inside : ∀ c ∈ part, c ∈ conversions) : A.SameOn B part :=
  ⟨same.fl,same.cos,same.sin,same.nearer,fun c member => same.each c (inside c member)⟩

theorem SameOn.uint16 {conversions : List Conversion} {x : ℚ} (same : A.SameOn B conversions)
    (member : .toUint16 x ∈ conversions) : B.toUint16 x = A.toUint16 x := same.each _ member

theorem SameOn.int16 {conversions : List Conversion} {x : ℚ} (same : A.SameOn B conversions)
    (member : .toInt16 x ∈ conversions) : (B.toInt16 x).toUInt16 = (A.toInt16 x).toUInt16 := same.each _ member

theorem make_complete {cw ch : UInt16} (same : A.SameOn B (Ship.makeConversions A u cw ch)) (x y angle : ℚ) :
    Ship.make B u cw ch x y angle = Ship.make A u cw ch x y angle := by
  have width := SameOn.uint16 same (x := A.fl (A.fl (u.sizeW / 2) - (cw / 2).toNat)) (by simp [Ship.makeConversions])
  have height := SameOn.uint16 same (x := A.fl (A.fl (u.sizeH / 2) - (ch / 2).toNat)) (by simp [Ship.makeConversions])
  simp only [Ship.make,same.fl,width,height]

theorem slideAxis_complete {extent margin pos : ℚ} {offset window : UInt16}
    (same : A.SameOn B (Ship.slideAxisConversions A extent margin pos offset window)) :
    Ship.slideAxis B extent margin pos offset window = Ship.slideAxis A extent margin pos offset window := by
  unfold Ship.slideAxisConversions at same
  unfold Ship.slideAxis
  rw [same.fl]
  split
  · rename_i before
    rw [if_pos before] at same
    split
    · rename_i inside
      rw [if_pos inside] at same
      exact SameOn.uint16 same (by simp)
    · rfl
  · rename_i after
    rw [if_neg after] at same
    split
    · rename_i behind
      rw [if_pos behind] at same
      split
      · rename_i inside
        rw [if_pos inside] at same
        exact SameOn.uint16 same (by simp)
      · rfl
    · rfl

theorem turn_complete {conversions : List Conversion} (same : A.SameOn B conversions) (s : Ship) :
    (s.rotate B).accelerate B = (s.rotate A).accelerate A := by
  have rotated : s.rotate B = s.rotate A := by simp only [Ship.rotate,shipRadsPerTick,same.fl]
  rw [rotated]
  unfold Ship.accelerate
  rw [same.fl,same.cos,same.sin]

theorem settle_complete {conversions : List Conversion} (same : A.SameOn B conversions) (s : Ship) :
    ((((s.wrapAngle B).advance B).enforce B u).wrap B) = ((((s.wrapAngle A).advance A).enforce A u).wrap A) := by
  have advanced : (s.wrapAngle B).advance B = (s.wrapAngle A).advance A := by
    unfold Ship.advance Ship.wrapAngle
    rw [same.fl]
  rw [advanced]
  generalize (s.wrapAngle A).advance A = s
  have enforced : s.enforce B u = s.enforce A u := by
    unfold Ship.enforce Ship.enforceAxis
    rw [same.fl]
  rw [enforced]
  unfold Ship.wrap Ship.wrapAxis
  rw [same.fl]

theorem moveShip_complete {s : Ship} (same : A.SameOn B (s.moveShipConversions A u)) :
    s.moveShip B u = s.moveShip A u := by
  unfold Ship.moveShipConversions at same
  unfold Ship.moveShip
  split
  · rfl
  · rename_i moves
    rw [if_neg moves] at same
    rw [turn_complete same]
    generalize (s.rotate A).accelerate A = s at same
    have slid : s.slide B u = s.slide A u := by
      unfold Ship.slideConversions at same
      unfold Ship.slide
      split
      · rename_i slides
        rw [if_pos slides] at same
        rw [slideAxis_complete (SameOn.part same fun c member => List.mem_append_left _ member),
          slideAxis_complete (SameOn.part same fun c member => List.mem_append_right _ member)]
      · rfl
    rw [slid,settle_complete same]

theorem newLife_complete {conversions : List Conversion} (same : A.SameOn B conversions) (s : Ship) :
    s.newLife B = s.newLife A := by
  unfold Ship.newLife degreesToRads
  rw [same.fl]

theorem tickEvent_complete {s : Ship} (same : A.SameOn B (s.moveShipConversions A u)) :
    s.tickEvent B u = s.tickEvent A u := by
  have guns : Gun.tickEvent B u = Gun.tickEvent A u := by
    funext gun
    unfold Gun.tickEvent Bullet.tickEvent
    rw [same.fl]
  have blinks : Ship.blink B = Ship.blink A := by
    funext s
    unfold Ship.blink
    rw [same.fl]
  have lives : Ship.newLife B = Ship.newLife A := funext (newLife_complete same)
  unfold Ship.tickEvent
  rw [moveShip_complete same,guns,blinks,lives,same.fl]

theorem places_complete {s : Ship} (same : A.SameOn B (s.places A)) :
    Messages.otherShipBytes B le s = Messages.otherShipBytes A le s := by
  rw [Messages.otherShipBytes,same.fl,SameOn.uint16 same (by simp [Ship.places]),SameOn.uint16 same (by simp [Ship.places]),
    SameOn.uint16 same (by simp [Ship.places])]
  rfl

theorem buffer_complete {s : Ship} (same : A.SameOn B (s.bufferConversions A)) : s.makeBuffer B le = s.makeBuffer A le := by
  have bullets : s.gun.bullets.flatMap (Messages.bulletBytes B le) = s.gun.bullets.flatMap (Messages.bulletBytes A le) := by
    refine List.flatMap_congr fun b member => ?_
    have inside : ∀ c ∈ b.conversions, c ∈ s.bufferConversions A := fun c here =>
      List.mem_append_left _ (List.mem_flatMap.mpr ⟨b,member,here⟩)
    have own := SameOn.part same inside
    rw [Messages.bulletBytes,SameOn.uint16 own (by simp [Bullet.conversions]),SameOn.uint16 own (by simp [Bullet.conversions])]
    rfl
  have places : Messages.otherShipBytes B le s = Messages.otherShipBytes A le s :=
    places_complete (SameOn.part same fun c member => List.mem_append_right _ member)
  rw [Messages.ship_built,Messages.ship_built,Messages.shipBytes,Messages.shipBytes,Messages.shipState,Messages.shipState,
    Messages.gunBytes,Messages.gunBytes,bullets]
  rw [Messages.otherShipBytes,Messages.otherShipBytes] at places
  rw [places]

theorem tick_complete {p : Player} (same : A.SameOn B (p.tickConversions A u)) :
    p.tick B u = p.tick A u ∧ (p.tick A u).ship.makeBuffer B le = (p.tick A u).ship.makeBuffer A le := by
  constructor
  · unfold Player.tick
    cases dead : p.ship.dead with
    | true => rfl
    | false =>
      have moved : A.SameOn B (p.ship.moveShipConversions A u) := SameOn.part same fun c member => by
        simp [Player.tickConversions,dead,member]
      rw [tickEvent_complete moved]
  · exact buffer_complete (SameOn.part same fun c member => List.mem_append_right _ member)

theorem perSession_complete {g : Game} {m : SessionMap} {session : Session}
    (same : A.SameOn B (PerSession.conversions A g m session)) :
    Messages.universeTick B le g m session.sessionID = Messages.universeTick A le g m session.sessionID := by
  have width := SameOn.uint16 same (x := g.gUniverse.sizeW) (by simp [PerSession.conversions])
  have height := SameOn.uint16 same (x := g.gUniverse.sizeH) (by simp [PerSession.conversions])
  have rocks : g.gUniverse.rockField.rocks.flatMap (Messages.rockBytes B le) =
      g.gUniverse.rockField.rocks.flatMap (Messages.rockBytes A le) := by
    refine List.flatMap_congr fun node member => ?_
    have own : A.SameOn B node.rock.conversions := SameOn.part same fun c here => by
      simp only [PerSession.conversions,List.mem_append,List.mem_flatMap]
      exact .inl (.inl (.inr ⟨node,member,here⟩))
    rw [Messages.rockBytes,SameOn.int16 own (by simp [Rock.conversions]),SameOn.int16 own (by simp [Rock.conversions]),
      SameOn.uint16 own (by simp [Rock.conversions])]
    rfl
  generalize others : Messages.otherShips g session.sessionID m.toList = ships at same
  have places : ships.flatMap (Messages.otherShipBytes B le) = ships.flatMap (Messages.otherShipBytes A le) := by
    refine List.flatMap_congr fun ship member => places_complete (SameOn.part same fun c here => ?_)
    simp only [PerSession.conversions,List.mem_append,List.mem_flatMap,others]
    exact .inl (.inr ⟨ship,member,here⟩)
  have bullets : (Messages.bulletsOf ships).flatMap (Messages.otherBulletBytes B le) =
      (Messages.bulletsOf ships).flatMap (Messages.otherBulletBytes A le) := by
    refine List.flatMap_congr fun b member => ?_
    have own : A.SameOn B b.otherConversions := SameOn.part same fun c here => by
      simp only [PerSession.conversions,List.mem_append,List.mem_flatMap,others]
      exact .inr ⟨b,member,here⟩
    rw [Messages.otherBulletBytes,SameOn.int16 own (by simp [Bullet.otherConversions]),
      SameOn.int16 own (by simp [Bullet.otherConversions])]
    rfl
  simp only [Messages.universeTick,Messages.universeHeader,Messages.rocksBytes,Messages.otherShipsBytes,
    Messages.otherBulletsBytes,others,width,height,rocks,places,bullets]

end Conversions
end Geoff
