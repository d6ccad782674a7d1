import Geoff.Conversions
import Geoff.Lives

-- The numbers of a ship over any career of its player, in exact arithmetic: which of
-- them stay within the reach of the messages, and which one does not.
namespace Geoff

-- Doubles as exact rationals, and any values in [-1, 1] for cos and sin. A distance is
-- compared by its square.
structure Arith.Ideal (A : Arith) : Prop where
  fl : ∀ x, A.fl x = x
  nearer : ∀ p q limit, A.nearer p q limit = true →
    0 < limit ∧ (q.posX - p.posX) ^ 2 + (q.posY - p.posY) ^ 2 < limit ^ 2
  cos : ∀ x, -1 ≤ A.cos x ∧ A.cos x ≤ 1
  sin : ∀ x, -1 ≤ A.sin x ∧ A.sin x ≤ 1

theorem upright_ideal : Arith.upright.Ideal := by
  refine ⟨fun _ => rfl,fun _ _ _ near => of_decide_eq_true near,fun _ => ?_,fun _ => ?_⟩
  · norm_num [Arith.upright,Arith.exact]
  · norm_num [Arith.upright,Arith.exact]

namespace ShipBounds
open Consts Collision Collisions PlayerEvents Lives

def field : Size := ⟨8192,8192⟩

def Inside (p : Position) : Prop := (0 ≤ p.posX ∧ p.posX ≤ 8192) ∧ 0 ≤ p.posY ∧ p.posY ≤ 8192

def Loaded (b : Bullet) : Prop := b.ticksLeft = 180 ∧ -10 ≤ b.posX ∧ -10 ≤ b.posY

structure Hull where
  radius : ℚ
  viewportMargin : ℚ
  enforceBoundaries : Bool
  wrapViewport : Bool

def hull (s : Ship) : Hull := ⟨s.radius,s.viewportMargin,s.enforceBoundaries,s.wrapViewport⟩

def Fitted (s : Ship) : Prop := hull s = ⟨10,200,true,false⟩

theorem Fitted.radius {s : Ship} (fitted : Fitted s) : s.radius = 10 := congrArg Hull.radius fitted
theorem Fitted.margin {s : Ship} (fitted : Fitted s) : s.viewportMargin = 200 := congrArg Hull.viewportMargin fitted
theorem Fitted.walls {s : Ship} (fitted : Fitted s) : s.enforceBoundaries = true := congrArg Hull.enforceBoundaries fitted
theorem Fitted.unwrapped {s : Ship} (fitted : Fitted s) : s.wrapViewport = false := congrArg Hull.wrapViewport fitted

structure Fittings where
  gun : Gun
  explosionDuration : ℚ
  hull : Hull

def fittings (s : Ship) : Fittings := ⟨s.gun,s.explosionDuration,hull s⟩

structure Bounded (s : Ship) : Prop where
  fitted : Fitted s
  placed : 0 ≤ s.posX ∧ 0 ≤ s.posY
  turned : 0 ≤ s.angle ∧ s.angle ≤ mPi * 2
  bullets : ∀ b ∈ s.gun.bullets, Inside b.toPosition ∨ Loaded b
  fuse : s.exploding = false → s.explosionDuration = shipExplodeDur
  inside : s.invulnerable = false → Inside s.toPosition
  exposed : s.exploding = true ∨ s.dead = true → s.invulnerable = false

structure Outline where
  fittings : Fittings
  place : Position
  angle : ℚ
  vitals : Vitals

def outline (s : Ship) : Outline := ⟨fittings s,s.toPosition,s.angle,{vitals s with livesLeft := 0}⟩

theorem Bounded.retuned {s s' : Ship} (bounded : Bounded s) (same : outline s' = outline s) : Bounded s' := by
  simp only [outline,fittings,vitals,Outline.mk.injEq,Fittings.mk.injEq,Vitals.mk.injEq] at same
  obtain ⟨⟨gun,fuse,hulls⟩,place,angle,_,exploding,dead,invulnerable⟩ := same
  have across : s'.posX = s.posX := congrArg Position.posX place
  have down : s'.posY = s.posY := congrArg Position.posY place
  refine ⟨hulls.trans bounded.fitted,?_,?_,?_,?_,?_,?_⟩
  · rw [across,down]; exact bounded.placed
  · rw [angle]; exact bounded.turned
  · rw [gun]; exact bounded.bullets
  · rw [exploding,fuse]; exact bounded.fuse
  · rw [invulnerable,place]; exact bounded.inside
  · rw [exploding,dead,invulnerable]; exact bounded.exposed

def Settled (s : Ship) : Prop := ∀ b ∈ s.gun.bullets, Inside b.toPosition

-- The tick ends the explosion, and a life is left: NewLife places the ship in the
-- middle of its viewport, wherever that is.
def Respawns (s : Ship) : Prop :=
  s.exploding = true ∧ s.dead = false ∧ s.explosionDuration < 1 / fps ∧ s.livesLeft ≠ 0

def viewportMiddle (s : Ship) : Position :=
  ⟨s.ctxOX.toNat + (s.ctxW / 2).toNat,s.ctxOY.toNat + (s.ctxH / 2).toNat⟩

variable {A : Arith} {u : Size}

theorem steered_fittings {s s' : Ship} (steered : s.Steered s') : fittings s' = fittings s := by
  obtain ⟨_,_,_,_,_,rfl⟩ := steered
  rfl

theorem Fitted.steered {s s' : Ship} (fitted : Fitted s) (steered : s.Steered s') : Fitted s' :=
  (congrArg Fittings.hull (steered_fittings steered)).trans fitted

theorem enforce_angle (s : Ship) : (s.enforce A u).angle = s.angle := by
  unfold Ship.enforce
  split <;> rfl

theorem moveShip_angle {s : Ship} (moves : s.exploding = false) (alive : s.dead = false) :
    (s.moveShip A u).angle = ((s.rotate A).wrapAngle A).angle := by
  have wrapped : ∀ s : Ship, (s.wrap A).angle = s.angle := by
    intro s
    unfold Ship.wrap
    split <;> rfl
  have steered : ((((s.rotate A).accelerate A).slide A u).wrapAngle A).angle = ((s.rotate A).wrapAngle A).angle := by
    unfold Ship.slide Ship.accelerate
    split
    · split <;> rfl
    · split <;> rfl
  unfold Ship.moveShip
  rw [if_neg (by simp [moves,alive]),wrapped,enforce_angle]
  exact steered

theorem wrapAngle_clipped (s : Ship) (turn : 0 ≤ A.fl (mPi * 2)) :
    0 ≤ (s.wrapAngle A).angle ∧ (s.wrapAngle A).angle ≤ A.fl (mPi * 2) := by
  simp only [Ship.wrapAngle]
  split
  · exact ⟨le_refl 0,turn⟩
  · rename_i under
    split
    · exact ⟨turn,le_refl _⟩
    · rename_i above
      exact ⟨not_lt.mp above,(not_le.mp under).le⟩

theorem wrapCoordinate_inside (pos : ℚ) : 0 ≤ wrapCoordinate 8192 pos ∧ wrapCoordinate 8192 pos ≤ 8192 := by
  unfold wrapCoordinate
  dsimp only
  split
  · norm_num
  · rename_i under
    split
    · norm_num
    · rename_i above
      exact ⟨not_lt.mp above,not_lt.mp under⟩

theorem bullet_inside {b : Bullet} (known : Inside b.toPosition ∨ Loaded b) :
    Inside (b.tickEvent A field).1.toPosition := by
  simp only [Bullet.tickEvent]
  by_cases still : (if b.ticksLeft ≠ 0 then {b with ticksLeft := b.ticksLeft - 1} else b : Bullet).ticksLeft ≠ 0
  · rw [if_pos still]
    exact ⟨wrapCoordinate_inside _,wrapCoordinate_inside _⟩
  · rw [if_neg still]
    rcases known with inside | ⟨fresh,_⟩
    · split
      · exact inside
      · exact inside
    · exact absurd (by simp [fresh]) still

theorem gun_settled {gun : Gun} (known : ∀ b ∈ gun.bullets, Inside b.toPosition ∨ Loaded b) :
    ∀ b ∈ (gun.tickEvent A field).bullets, Inside b.toPosition := by
  have ticked : ∀ b ∈ (gun.bullets.map (Bullet.tickEvent A field)).map Prod.fst, Inside b.toPosition := by
    intro b member
    obtain ⟨pair,present,rfl⟩ := List.mem_map.mp member
    obtain ⟨old,here,rfl⟩ := List.mem_map.mp present
    exact bullet_inside (known old here)
  intro b member
  simp only [Gun.tickEvent] at member
  split at member
  · rename_i empty
    rw [List.isEmpty_iff.mp empty] at member
    exact absurd member List.not_mem_nil
  · split at member
    · exact ticked b (List.mem_of_mem_tail member)
    · exact ticked b member

theorem middle_placed (s : Ship) : 0 ≤ (viewportMiddle s).posX ∧ 0 ≤ (viewportMiddle s).posY :=
  ⟨add_nonneg (Nat.cast_nonneg _) (Nat.cast_nonneg _),add_nonneg (Nat.cast_nonneg _) (Nat.cast_nonneg _)⟩

-- What a scan of the rocks makes of a ship: it erases bullets, and may make Explode be
-- called once.
def Scanned (s s' : Ship) : Prop :=
  ∃ bullets, (∀ b ∈ bullets, b ∈ s.gun.bullets) ∧ (s' = {s with gun := ⟨bullets⟩} ∨
    s.exploding = false ∧ s.invulnerable = false ∧ s' = ({s with gun := ⟨bullets⟩} : Ship).explode)

theorem Scanned.refl (s : Ship) : Scanned s s := ⟨s.gun.bullets,fun _ member => member,.inl rfl⟩

theorem Scanned.trans {s s' s'' : Ship} (first : Scanned s s') (second : Scanned s' s'') : Scanned s s'' := by
  obtain ⟨some,early,rfl | ⟨quiet,open_,rfl⟩⟩ := first
  · obtain ⟨fewer,late,rfl | ⟨quiet,open_,rfl⟩⟩ := second
    · exact ⟨fewer,fun b member => early b (late b member),.inl rfl⟩
    · exact ⟨fewer,fun b member => early b (late b member),.inr ⟨quiet,open_,rfl⟩⟩
  · obtain ⟨fewer,late,rfl | ⟨blast,_,_⟩⟩ := second
    · exact ⟨fewer,fun b member => early b (late b member),.inr ⟨quiet,open_,rfl⟩⟩
    · cases blast

theorem scanRock_scanned (s : Ship) (node : RockNode) : Scanned s (scanRock A (s,[]) node).1 := by
  refine ⟨s.gun.bullets.filter (fun b => !bulletHit A node.rock b),fun b member => List.mem_of_mem_filter member,?_⟩
  have same : shipHit A node.rock {s with gun := ⟨s.gun.bullets.filter (fun b => !bulletHit A node.rock b)⟩} =
      shipHit A node.rock s := rfl
  simp only [scanRock,same]
  cases hit : shipHit A node.rock s with
  | true =>
    obtain ⟨quiet,open_⟩ := shipHit_open hit
    exact .inr ⟨quiet,open_,rfl⟩
  | false => exact .inl rfl

theorem scanRocks_scanned (rocks : List RockNode) (s : Ship) : Scanned s (scanRocks A rocks s).1 := by
  induction rocks generalizing s with
  | nil => exact .refl s
  | cons node rest ih =>
    rw [scanRocks_cons]
    exact (scanRock_scanned s node).trans (ih _)

theorem scanned_bounded {s s' : Ship} (bounded : Bounded s) (scanned : Scanned s s') : Bounded s' := by
  obtain ⟨fitted,placed,turned,known,fuse,inside,exposed⟩ := bounded
  obtain ⟨bullets,kept,rfl | ⟨quiet,vulnerable,rfl⟩⟩ := scanned
  · exact ⟨fitted,placed,turned,fun b member => known b (kept b member),fuse,inside,exposed⟩
  · exact ⟨fitted,placed,turned,fun b member => known b (kept b member),fun blast => (by cases blast),inside,
      fun _ => vulnerable⟩

theorem blink_outline (s : Ship) : outline (s.blink A) = outline s := by
  obtain ⟨_,_,_,blinked⟩ := s.blink_writes A
  rw [blinked]
  rfl

theorem blink_gun (s : Ship) : (s.blink A).gun = s.gun := congrArg (fun o => o.fittings.gun) (blink_outline s)

theorem blink_place (s : Ship) : (s.blink A).toPosition = s.toPosition := congrArg Outline.place (blink_outline s)

theorem shield_bounded {s : Ship} (bounded : Bounded s) (inside : Inside s.toPosition) :
    Bounded {s with invDuration := A.fl (s.invDuration - A.fl (1 / fps)), invulnerable := false} ∧
      Bounded (({s with invDuration := A.fl (s.invDuration - A.fl (1 / fps))} : Ship).blink A) := by
  constructor
  · obtain ⟨fitted,placed,turned,known,fuse,_,_⟩ := bounded
    exact ⟨fitted,placed,turned,known,fuse,fun _ => inside,fun _ => rfl⟩
  · exact bounded.retuned (blink_outline _)

section Exact
variable (ideal : A.Ideal)
include ideal

theorem enforceAxis_inside (pos delta : ℚ) :
    0 ≤ (Ship.enforceAxis A 8192 10 pos delta).1 ∧ (Ship.enforceAxis A 8192 10 pos delta).1 ≤ 8192 := by
  unfold Ship.enforceAxis
  rw [ideal.fl,ideal.fl]
  split
  · norm_num
  · rename_i right
    split
    · norm_num
    · rename_i left
      constructor
      · show 0 ≤ pos
        linarith
      · show pos ≤ 8192
        linarith

theorem enforce_inside {s : Ship} (fitted : Fitted s) : Inside (s.enforce A field).toPosition := by
  unfold Ship.enforce
  rw [if_pos fitted.walls,fitted.radius]
  exact ⟨enforceAxis_inside ideal _ _,enforceAxis_inside ideal _ _⟩

theorem wrapAngle_turned (s : Ship) : 0 ≤ (s.wrapAngle A).angle ∧ (s.wrapAngle A).angle ≤ mPi * 2 := by
  have turn : A.fl (mPi * 2) = mPi * 2 := ideal.fl _
  rw [← turn]
  apply wrapAngle_clipped
  rw [turn]
  norm_num [mPi]

theorem moveShip_inside {s : Ship} (fitted : Fitted s) (moves : s.exploding = false) (alive : s.dead = false) :
    Inside (s.moveShip A field).toPosition ∧ 0 ≤ (s.moveShip A field).angle ∧ (s.moveShip A field).angle ≤ mPi * 2 := by
  constructor
  · unfold Ship.moveShip
    rw [if_neg (by simp [moves,alive])]
    have slid : Fitted (((s.rotate A).accelerate A).slide A field) := fitted.steered (s.slid_steered A field)
    generalize ((s.rotate A).accelerate A).slide A field = s at slid
    have advanced : Fitted ((s.wrapAngle A).advance A) := slid.steered (s.settle_steered A)
    have enforced := advanced.steered (Ship.enforce_steered A field _)
    rw [Ship.wrap,if_neg (by rw [enforced.unwrapped]; exact Bool.false_ne_true)]
    exact enforce_inside ideal advanced
  · rw [moveShip_angle moves alive]
    exact wrapAngle_turned ideal _

theorem fire_known {gun : Gun} {s : Ship} (fitted : Fitted s) (placed : 0 ≤ s.posX ∧ 0 ≤ s.posY)
    (known : ∀ b ∈ gun.bullets, Inside b.toPosition ∨ Loaded b) :
    ∀ b ∈ (gun.fire A s).bullets, Inside b.toPosition ∨ Loaded b := by
  unfold Gun.fire
  split
  · exact known
  · intro b member
    rcases List.mem_append.mp member with old | new
    · exact known b old
    · rw [List.mem_singleton.mp new]
      obtain ⟨left,_⟩ := ideal.cos s.angle
      obtain ⟨_,up⟩ := ideal.sin s.angle
      refine .inr ⟨rfl,?_,?_⟩
      · simp only [Bullet.make,ideal.fl,fitted.radius]
        linarith [placed.1]
      · simp only [Bullet.make,ideal.fl,fitted.radius]
        linarith [placed.2]

theorem upwards_turned : 0 ≤ A.fl (90 * degreesToRads A) ∧ A.fl (90 * degreesToRads A) ≤ mPi * 2 := by
  simp only [degreesToRads,ideal.fl,mPi]
  norm_num

theorem newLife_bounded {s : Ship} (left : s.livesLeft ≠ 0) (fitted : Fitted s)
    (known : ∀ b ∈ s.gun.bullets, Inside b.toPosition ∨ Loaded b) :
    Bounded (s.newLife A) ∧ (s.newLife A).toPosition = viewportMiddle s ∧ (s.newLife A).gun = s.gun := by
  unfold Ship.newLife
  rw [if_pos left]
  refine ⟨⟨fitted,middle_placed s,upwards_turned ideal,known,fun _ => rfl,fun vulnerable => (by cases vulnerable),?_⟩,
    rfl,rfl⟩
  rintro (blast | dead)
  · cases blast
  · cases dead

theorem resurrect_bounded {s : Ship} (fitted : Fitted s)
    (known : ∀ b ∈ s.gun.bullets, Inside b.toPosition ∨ Loaded b) : Bounded (s.resurrect A) := by
  have one : ({s with dead := false, livesLeft := 1} : Ship).livesLeft ≠ 0 := by simp
  obtain ⟨reborn,_,_⟩ := newLife_bounded ideal one fitted known
  exact reborn.retuned rfl

theorem moved_bounded {s : Ship} (bounded : Bounded s) (moves : s.exploding = false) (alive : s.dead = false) :
    Bounded {s.moveShip A field with gun := (s.moveShip A field).gun.tickEvent A field} ∧
      (s.moveShip A field).gun = s.gun ∧ Inside (s.moveShip A field).toPosition ∧
      (s.moveShip A field).exploding = false := by
  have steered := s.moveShip_steered A field
  have same := steered_fittings steered
  have fitted := bounded.fitted.steered steered
  obtain ⟨inside,turned⟩ := moveShip_inside ideal bounded.fitted moves alive
  have still := steered_vitals steered
  simp only [fittings,Fittings.mk.injEq] at same
  simp only [vitals,Vitals.mk.injEq] at still
  obtain ⟨gun,fuse,_⟩ := same
  obtain ⟨_,exploding,dead,_⟩ := still
  have quiet : (s.moveShip A field).exploding = false := exploding.trans moves
  have living : (s.moveShip A field).dead = false := dead.trans alive
  refine ⟨⟨fitted,⟨inside.1.1,inside.2.1⟩,turned,
    fun b member => .inl (gun_settled (by rw [gun]; exact bounded.bullets) b member),
    fun _ => fuse.trans (bounded.fuse moves),fun _ => inside,?_⟩,gun,inside,quiet⟩
  rintro (blast | gone)
  · exact absurd (quiet.symm.trans blast) (by simp)
  · exact absurd (living.symm.trans gone) (by simp)

theorem tickEvent_moving {s : Ship} (bounded : Bounded s) (moves : s.exploding = false) (alive : s.dead = false) :
    Bounded (s.tickEvent A field) ∧ Settled (s.tickEvent A field) ∧ Inside (s.tickEvent A field).toPosition := by
  obtain ⟨moved,gun,inside,quiet⟩ := moved_bounded ideal bounded moves alive
  have settled : ∀ b ∈ ((s.moveShip A field).gun.tickEvent A field).bullets, Inside b.toPosition := by
    rw [gun]
    exact gun_settled bounded.bullets
  simp only [Ship.tickEvent]
  generalize s.moveShip A field = m at moved inside quiet settled
  rw [if_neg (by rw [quiet]; exact Bool.false_ne_true)]
  obtain ⟨unshielded,blinking⟩ := shield_bounded (A := A) moved inside
  split
  · split
    · exact ⟨unshielded,settled,inside⟩
    · refine ⟨blinking,?_,?_⟩
      · unfold Settled
        rw [blink_gun]
        exact settled
      · rw [blink_place]
        exact inside
  · exact ⟨moved,settled,inside⟩

theorem tickEvent_exploding {s : Ship} (bounded : Bounded s) (blast : s.exploding = true) (alive : s.dead = false) :
    Bounded (s.tickEvent A field) ∧ Settled (s.tickEvent A field) ∧
      (Respawns s ∧ (s.tickEvent A field).toPosition = viewportMiddle s ∨
        ¬ Respawns s ∧ Inside (s.tickEvent A field).toPosition) := by
  have still : s.moveShip A field = s := by rw [Ship.moveShip,if_pos (by rw [blast]; rfl)]
  have settled : ∀ b ∈ (s.gun.tickEvent A field).bullets, Inside b.toPosition := gun_settled bounded.bullets
  have vulnerable := bounded.exposed (.inl blast)
  have inside := bounded.inside vulnerable
  obtain ⟨fitted,placed,turned,_,_,_,_⟩ := bounded
  simp only [Ship.tickEvent,still]
  rw [if_pos blast]
  simp only [ideal.fl]
  by_cases done : s.explosionDuration - 1 / fps < 0
  · rw [if_pos done]
    by_cases last : s.livesLeft = 0
    · unfold Ship.newLife
      rw [if_neg (not_not.mpr last)]
      refine ⟨⟨fitted,placed,turned,fun b member => .inl (settled b member),
        fun _ => rfl,fun _ => inside,fun _ => vulnerable⟩,settled,.inr ⟨?_,inside⟩⟩
      exact fun respawns => respawns.2.2.2 last
    · obtain ⟨reborn,place,gun⟩ := newLife_bounded ideal
        (s := {s with gun := s.gun.tickEvent A field, explosionDuration := shipExplodeDur, exploding := false}) last
        fitted (fun b member => .inl (settled b member))
      refine ⟨reborn,?_,.inl ⟨⟨blast,alive,by linarith,last⟩,place⟩⟩
      unfold Settled
      rw [gun]
      exact settled
  · rw [if_neg done]
    refine ⟨⟨fitted,placed,turned,fun b member => .inl (settled b member),
      fun quiet => absurd (blast.symm.trans quiet) (by simp),fun _ => inside,fun _ => vulnerable⟩,settled,.inr ⟨?_,inside⟩⟩
    exact fun respawns => done (by linarith [respawns.2.2.1])

theorem tickEvent_bounded {s : Ship} (bounded : Bounded s) (alive : s.dead = false) :
    Bounded (s.tickEvent A field) ∧ Settled (s.tickEvent A field) ∧
      (Respawns s ∧ (s.tickEvent A field).toPosition = viewportMiddle s ∨
        ¬ Respawns s ∧ Inside (s.tickEvent A field).toPosition) := by
  cases blast : s.exploding with
  | true => exact tickEvent_exploding ideal bounded blast alive
  | false =>
    obtain ⟨moved,settled,inside⟩ := tickEvent_moving ideal bounded blast alive
    exact ⟨moved,settled,.inr ⟨fun respawns => absurd (blast.symm.trans respawns.1) (by simp),inside⟩⟩

theorem keyEvent_bounded {s : Ship} (bounded : Bounded s) (code : Nat) (isDown : Bool) :
    Bounded (s.keyEvent A code isDown) := by
  have fired : Bounded (s.fireGuns A) := by
    obtain ⟨fitted,placed,turned,known,fuse,inside,exposed⟩ := bounded
    exact ⟨fitted,placed,turned,fire_known ideal fitted placed known,fuse,inside,exposed⟩
  rcases s.keyEvent_cases A code isDown with ⟨_,_,_,same⟩ | ⟨_,same⟩
  · rw [same]
    exact bounded.retuned rfl
  · rw [same]
    exact fired

end Exact

theorem keyUp_gun (s : Ship) (code : Nat) : (s.keyEvent A code false).gun = s.gun := by
  rcases s.keyEvent_cases A code false with ⟨_,_,_,same⟩ | ⟨down,_⟩
  · rw [same]
  · cases down

open Conversion in
theorem gun_fit {gun : Gun} (settled : ∀ b ∈ gun.bullets, Inside b.toPosition) : ∀ c ∈ gun.conversions, c.Fits := by
  intro c member
  obtain ⟨b,present,here⟩ := List.mem_flatMap.mp member
  obtain ⟨⟨left,right⟩,top,bottom⟩ := settled b present
  simp only [Bullet.conversions,List.mem_cons,List.not_mem_nil,or_false] at here
  rcases here with rfl | rfl
  · rw [toUint16_fits]
    constructor <;> linarith
  · rw [toUint16_fits]
    constructor <;> linarith

structure Kept (p : Player) : Prop where
  bounded : Bounded p.ship
  resting : p.ship.dead = true → p.phase ≠ .playing ∧ Settled p.ship

theorem scanned_kept {p p' : Player} (kept : Kept p) (scanned : Scanned p.ship p'.ship) (phase : p'.phase = p.phase) :
    Kept p' := by
  refine ⟨scanned_bounded kept.bounded scanned,fun dead => ?_⟩
  have stays : p.ship.dead = true ∧ ∀ b ∈ p'.ship.gun.bullets, b ∈ p.ship.gun.bullets := by
    obtain ⟨bullets,fewer,same | ⟨_,_,same⟩⟩ := scanned
    · rw [same] at dead ⊢
      exact ⟨dead,fewer⟩
    · rw [same] at dead ⊢
      exact ⟨dead,fewer⟩
  obtain ⟨resting,settled⟩ := kept.resting stays.1
  rw [phase]
  exact ⟨resting,fun b member => settled b (stays.2 b member)⟩

section Exact
variable (ideal : A.Ideal)
include ideal

theorem key_kept {p : Player} (kept : Kept p) (code : Nat) (isDown : Bool) : Kept (p.keyEvent A code isDown) := by
  have keyed := keyEvent_bounded ideal kept.bounded code isDown
  have life := congrArg Vitals.dead (keyEvent_vitals (A := A) p.ship code isDown)
  have still : isDown = false → (p.ship.keyEvent A code isDown).gun = p.ship.gun := by
    rintro rfl
    exact keyUp_gun _ _
  simp only [Player.keyEvent]
  split
  · split
    · have reborn := resurrect_bounded ideal keyed.fitted keyed.bullets
      exact ⟨reborn,fun dead => (by cases dead)⟩
    · rename_i alive
      exact ⟨keyed,fun dead => absurd dead alive⟩
  · rename_i up
    refine ⟨keyed,fun dead => ?_⟩
    obtain ⟨phase,settled⟩ := kept.resting (life.symm.trans dead)
    refine ⟨phase,?_⟩
    cases isDown with
    | true => exact absurd ⟨rfl,phase⟩ up
    | false =>
      unfold Settled
      rw [still rfl]
      exact settled

theorem tick_kept {p : Player} (kept : Kept p) : Kept (p.tick A field) := by
  cases dead : p.ship.dead with
  | true =>
    have same : (p.tick A field).ship = p.ship := tick_dead field dead
    exact ⟨by rw [same]; exact kept.bounded,
      fun down => ⟨tick_phase field down,by rw [same]; exact (kept.resting dead).2⟩⟩
  | false =>
    have same : (p.tick A field).ship = p.ship.tickEvent A field := tick_alive field dead
    obtain ⟨bounded,settled,_⟩ := tickEvent_bounded ideal kept.bounded dead
    exact ⟨by rw [same]; exact bounded,fun down => ⟨tick_phase field down,by rw [same]; exact settled⟩⟩

theorem play_kept {p : Player} (kept : Kept p) (event : PlayerEvent) : Kept (play A field p event) := by
  cases event with
  | key code isDown => exact key_kept ideal kept code isDown
  | resize w h => exact ⟨kept.bounded.retuned rfl,kept.resting⟩
  | collide rocks score => exact scanned_kept kept (scanRocks_scanned rocks p.ship) rfl
  | tick => exact tick_kept ideal kept

theorem make_kept (cw ch : UInt16) : Kept (Player.make A field cw ch) := by
  have middle : Inside (Player.make A field cw ch).ship.toPosition := by
    simp only [Player.make,Ship.make,ideal.fl,field,Inside]
    norm_num
  have fitted : Fitted (Player.make A field cw ch).ship := by
    norm_num [Fitted,hull,Player.make,Ship.make,shipSize,Consts.viewportMargin]
  refine ⟨⟨fitted,⟨middle.1.1,middle.2.1⟩,upwards_turned ideal,fun b member => absurd member List.not_mem_nil,
    fun _ => rfl,fun _ => middle,?_⟩,fun dead => (by cases dead)⟩
  rintro (blast | dead)
  · cases blast
  · cases dead

theorem plays_kept {p : Player} (kept : Kept p) (events : List PlayerEvent) : Kept (plays A field p events) := by
  induction events generalizing p with
  | nil => exact kept
  | cons event rest ih => exact ih (play_kept ideal kept event)

theorem reachable_kept {rand : Rand} {w : World} {history : List Event}
    (ran : Runs.run (World.step A) (World.make A rand) history = .ok w) {address : Nat} (old : address < w.game.allocated) :
    Kept (w.game.memory address) := by
  obtain ⟨cw,ch,events,same⟩ := (careers_run ran).careers address old
  rw [same]
  exact plays_kept ideal (make_kept ideal cw ch) events

open Conversion in
theorem slideAxis_fit {pos : ℚ} {offset window : UInt16} :
    ∀ c ∈ Ship.slideAxisConversions A 8192 200 pos offset window, c.Fits := by
  have low : (0 : ℚ) ≤ offset.toNat := Nat.cast_nonneg _
  have high : (offset.toNat : ℚ) < 65536 := by exact_mod_cast offset.toNat_lt
  have wide : (0 : ℚ) ≤ window.toNat := Nat.cast_nonneg _
  unfold Ship.slideAxisConversions
  simp only [ideal.fl]
  intro c member
  split at member
  · rename_i left
    split at member
    · rename_i past
      rw [List.mem_singleton.mp member,toUint16_fits]
      constructor <;> linarith
    · exact absurd member List.not_mem_nil
  · split at member
    · rename_i right
      split at member
      · rename_i before
        rw [List.mem_singleton.mp member,toUint16_fits]
        constructor <;> linarith
      · exact absurd member List.not_mem_nil
    · exact absurd member List.not_mem_nil

theorem moveShip_fit {s : Ship} (fitted : Fitted s) : ∀ c ∈ s.moveShipConversions A field, c.Fits := by
  have turned : ((s.rotate A).accelerate A).viewportMargin = 200 :=
    (fitted.steered ((s.rotate_steered A).trans (Ship.accelerate_steered A _))).margin
  unfold Ship.moveShipConversions Ship.slideConversions
  intro c member
  split at member
  · exact absurd member List.not_mem_nil
  · split at member
    · rw [turned] at member
      rcases List.mem_append.mp member with across | down
      · exact slideAxis_fit ideal c across
      · exact slideAxis_fit ideal c down
    · exact absurd member List.not_mem_nil

open Conversion in
theorem places_fit {s : Ship} (placed : 0 ≤ s.posX ∧ 0 ≤ s.posY) (turned : 0 ≤ s.angle ∧ s.angle ≤ mPi * 2) :
    (∀ c ∈ s.places A, c.Fits) ↔ s.posX < 65536 ∧ s.posY < 65536 := by
  have angle : (Conversion.toUint16 (A.fl (s.angle * fp412))).Fits := by
    rw [toUint16_fits,ideal.fl]
    have turn : mPi * 2 * fp412 < 65536 := by norm_num [mPi,fp412]
    have most : s.angle * fp412 ≤ mPi * 2 * fp412 := mul_le_mul_of_nonneg_right turned.2 (by norm_num [fp412])
    have least : 0 ≤ s.angle * fp412 := mul_nonneg turned.1 (by norm_num [fp412])
    constructor <;> linarith
  simp only [Ship.places,List.forall_mem_cons,toUint16_fits,angle]
  constructor
  · rintro ⟨⟨_,across⟩,⟨_,down⟩,_⟩
    exact ⟨across,down⟩
  · rintro ⟨across,down⟩
    exact ⟨⟨by linarith [placed.1],across⟩,⟨by linarith [placed.2],down⟩,trivial,fun _ member => absurd member List.not_mem_nil⟩

theorem tick_fit {p : Player} (kept : Kept p) : (∀ c ∈ p.tickConversions A field, c.Fits) ↔
    (Respawns p.ship → (viewportMiddle p.ship).posX < 65536 ∧ (viewportMiddle p.ship).posY < 65536) := by
  have ticked := tick_kept ideal kept
  have moved : ∀ c ∈ (if p.ship.dead then [] else p.ship.moveShipConversions A field), c.Fits := by
    intro c member
    split at member
    · exact absurd member List.not_mem_nil
    · exact moveShip_fit ideal kept.bounded.fitted c member
  have places := places_fit ideal ticked.bounded.placed ticked.bounded.turned
  have settled : Settled (p.tick A field).ship := by
    cases dead : p.ship.dead with
    | true =>
      rw [tick_dead field dead]
      exact (kept.resting dead).2
    | false =>
      rw [tick_alive field dead]
      exact (tickEvent_bounded ideal kept.bounded dead).2.1
  have only : (∀ c ∈ p.tickConversions A field, c.Fits) ↔
      (p.tick A field).ship.posX < 65536 ∧ (p.tick A field).ship.posY < 65536 := by
    rw [← places]
    constructor
    · exact fun all c member => all c (List.mem_append_right _ (List.mem_append_right _ member))
    · intro here c member
      rcases List.mem_append.mp member with early | late
      · exact moved c early
      · rcases List.mem_append.mp late with shot | place
        · exact gun_fit settled c shot
        · exact here c place
  have near : Inside (p.tick A field).ship.toPosition →
      (p.tick A field).ship.posX < 65536 ∧ (p.tick A field).ship.posY < 65536 := fun inside =>
    ⟨by linarith [inside.1.2],by linarith [inside.2.2]⟩
  rw [only]
  cases dead : p.ship.dead with
  | true =>
    have standing : ¬ Respawns p.ship := fun respawns => absurd (dead.symm.trans respawns.2.1) (by simp)
    have inside := kept.bounded.inside (kept.bounded.exposed (.inr dead))
    rw [← tick_dead field dead (A := A)] at inside
    exact ⟨fun _ respawns => absurd respawns standing,fun _ => near inside⟩
  | false =>
    rcases (tickEvent_bounded ideal kept.bounded dead).2.2 with ⟨respawns,place⟩ | ⟨standing,inside⟩
    · rw [← tick_alive field dead] at place
      have across : (p.tick A field).ship.posX = (viewportMiddle p.ship).posX := congrArg Position.posX place
      have down : (p.tick A field).ship.posY = (viewportMiddle p.ship).posY := congrArg Position.posY place
      rw [across,down]
      exact ⟨fun here _ => here,fun here => here respawns⟩
    · rw [← tick_alive field dead] at inside
      exact ⟨fun _ respawns => absurd respawns standing,fun _ => near inside⟩

end Exact

end ShipBounds
end Geoff
