import Geoff.SessionSteps
import Geoff.ShipBounds

-- The numbers of rocks and ships over a collision detection, and those of the rocks
-- over the steps of the server.
namespace Geoff.CollisionBounds
open Consts World Collision Collisions ShipBounds

variable {A : Arith} {w t : World}

-- What is true of every rock, if true of its fragments, stays so.
section Rocks
variable {good : Rock → Prop}

def Rocks (good : Rock → Prop) (g : Game) : Prop := ∀ node ∈ g.gUniverse.rockField.rocks, good node.rock

theorem launchOne_rocks {field : RockField} {rand : Rand} {x y r : ℚ} (all : ∀ node ∈ field.rocks, good node.rock)
    (new : ∀ v, good ⟨⟨x,y⟩,v,r⟩) : ∀ node ∈ (field.launchOne A rand x y r).1.rocks, good node.rock := by
  intro node member
  rcases List.mem_append.mp member with old | fresh
  · exact all node old
  · rw [List.mem_singleton.mp fresh]
    exact new _

theorem destroyRock_rocks {field : RockField} {rand : Rand} {rockIt : Nat} {next : RockField × Rand}
    (fragments : ∀ rock v, rockRadius / 2 ≤ rock.radius → good rock → good ⟨rock.toPosition,v,A.fl (rock.radius / 2)⟩)
    (all : ∀ node ∈ field.rocks, good node.rock) (ran : field.destroyRock A rand rockIt = .ok next) :
    ∀ node ∈ next.1.rocks, good node.rock := by
  have left : ∀ node ∈ (field.erase rockIt).rocks, good node.rock := fun node member =>
    all node (List.mem_of_mem_filter member)
  unfold RockField.destroyRock at ran
  split at ran
  · cases ran
  · rename_i rock found
    obtain ⟨node,present,rfl⟩ := Option.map_eq_some_iff.mp found
    have whole := all node (List.mem_of_find?_eq_some present)
    have halves : rockRadius / 2 ≤ node.rock.radius → ∀ half ∈ ((field.erase rockIt).launchFragments A rand
        node.rock.posX node.rock.posY node.rock.radius).1.rocks, good half.rock := fun wide =>
      launchOne_rocks (launchOne_rocks left fun v => fragments node.rock v wide whole) fun v =>
        fragments node.rock v wide whole
    split at ran
    · rename_i large
      cases ran
      exact halves (by simp only [rockRadius] at large ⊢; linarith)
    · split at ran
      · rename_i wide
        cases ran
        exact halves wide
      · cases ran; exact left

theorem scoreRock_rocks {id : UInt32} {address rockIt : Nat} {g g' : Game}
    (fragments : ∀ rock v, rockRadius / 2 ≤ rock.radius → good rock → good ⟨rock.toPosition,v,A.fl (rock.radius / 2)⟩)
    (all : Rocks good g) (ran : scoreRock A id address g rockIt = .ok g') : Rocks good g' := by
  unfold scoreRock at ran
  split at ran
  · cases ran
  · obtain ⟨next,destroyed,result⟩ := Runs.bind_ok.mp ran
    cases result
    exact destroyRock_rocks fragments all destroyed

theorem playerRound_rocks {g g' : Game} {pair : UInt32 × Option Nat}
    (fragments : ∀ rock v, rockRadius / 2 ≤ rock.radius → good rock → good ⟨rock.toPosition,v,A.fl (rock.radius / 2)⟩)
    (all : Rocks good g) (ran : playerRound A g pair = .ok g') : Rocks good g' := by
  obtain ⟨id,_ | own⟩ := pair
  · rw [playerRound_null ran]
    exact all
  · exact Runs.run_invariant (Rocks good) (fun _ _ _ all one => scoreRock_rocks fragments all one) (s := scan A g own) all ran

theorem tick_rocks (fragments : ∀ rock v, rockRadius / 2 ≤ rock.radius → good rock →
      good ⟨rock.toPosition,v,A.fl (rock.radius / 2)⟩)
    (moves : ∀ rock, good rock → good (rock.tickEvent A w.game.gUniverse.toSize)) (all : Rocks good w.game)
    (ran : w.tickEvent A = .ok t) : Rocks good t.game := by
  unfold World.tickEvent at ran
  split at ran
  · cases ran; exact all
  · obtain ⟨⟨game,sessions⟩,ticked,ran⟩ := Runs.bind_ok.mp ran
    have moved : Rocks good (w.game.moveRocks A w.game.gUniverse.timer.tick) := by
      intro node member
      obtain ⟨old,present,rfl⟩ := List.mem_map.mp member
      exact moves old.rock (all old present)
    have struck : Rocks good game := Runs.run_invariant (Rocks good)
      (fun _ _ _ kept one => playerRound_rocks fragments kept one) moved (gameTick_ok ticked)
    refine Runs.run_invariant (fun v : World => Rocks good v.game) (fun v _ next kept one => ?_) struck ran
    unfold Rocks at kept ⊢
    rw [(timerRound_round one).1]
    exact kept

theorem effect_rocks {s : Session} {g g' : Game} {asked : Option RequestType} {down : Bool} {player : Option Nat}
    (launched : ∀ p v, good ⟨p,v,rockRadius⟩) (all : Rocks good g) (effect : Effect A s g asked down player g') :
    Rocks good g' := by
  cases effect with
  | click p => exact launchOne_rocks all fun v => launched ⟨p.posX,p.posY⟩ v
  | _ => exact all

-- What a new rock has, what a rock keeps while it moves and what its fragments take
-- over, every rock of a running server has.
theorem step_rocks {event : Event} (launched : ∀ p v, good ⟨p,v,rockRadius⟩)
    (fragments : ∀ rock v, rockRadius / 2 ≤ rock.radius → good rock → good ⟨rock.toPosition,v,A.fl (rock.radius / 2)⟩)
    (moves : ∀ u rock, good rock → good (rock.tickEvent A u)) (all : Rocks good w.game) (ran : w.step A event = .ok t) :
    Rocks good t.game := by
  cases step_turn ran with
  | quiet _ game _ => rw [game]; exact all
  | tick ticked => exact tick_rocks fragments (moves _) all ticked
  | request _ _ effect _ => exact effect_rocks launched all effect

theorem make_rocks (rand : Rand) : Rocks good (World.make A rand).game := by
  intro node member
  rw [World.make_game,(Game.make_fresh A rand).rocks] at member
  exact absurd member List.not_mem_nil

theorem reachable_rocks {rand : Rand} {history : List Event} (launched : ∀ p v, good ⟨p,v,rockRadius⟩)
    (fragments : ∀ rock v, rockRadius / 2 ≤ rock.radius → good rock → good ⟨rock.toPosition,v,A.fl (rock.radius / 2)⟩)
    (moves : ∀ u rock, good rock → good (rock.tickEvent A u))
    (ran : Runs.run (World.step A) (World.make A rand) history = .ok w) : Rocks good w.game := by
  have start : Rocks good (World.make A rand).game := make_rocks rand
  generalize World.make A rand = first at start ran
  exact Runs.run_invariant (fun w => Rocks good w.game) (fun _ _ _ all one => step_rocks launched fragments moves all one)
    start ran

end Rocks

def Sized (rock : Rock) : Prop := 0 ≤ rock.radius ∧ rock.radius ≤ 32

theorem sized_fragments (ideal : A.Ideal) (rock : Rock) (v : Velocity) (sized : Sized rock) :
    Sized ⟨rock.toPosition,v,A.fl (rock.radius / 2)⟩ := by
  obtain ⟨least,most⟩ := sized
  rw [ideal.fl]
  constructor
  · show 0 ≤ rock.radius / 2
    linarith
  · show rock.radius / 2 ≤ 32
    linarith

def RockFits (rock : Rock) : Prop := Inside rock.toPosition ∧ 0 ≤ rock.radius ∧ rock.radius ≤ 32

theorem fits_fragments (ideal : A.Ideal) (rock : Rock) (v : Velocity) (fits : RockFits rock) :
    RockFits ⟨rock.toPosition,v,A.fl (rock.radius / 2)⟩ := ⟨fits.1,sized_fragments ideal rock v fits.2⟩

def Near (b : Bullet) : Prop := b.posX < 32768 ∧ b.posY < 32768

theorem bulletHit_near (ideal : A.Ideal) {rock : Rock} (fits : RockFits rock) {b : Bullet} (hit : bulletHit A rock b = true) :
    Near b := by
  obtain ⟨⟨⟨_,right⟩,_,bottom⟩,_,most⟩ := fits
  obtain ⟨positive,near⟩ := ideal.nearer _ _ _ hit
  have across : (b.posX - rock.posX) ^ 2 < rock.radius ^ 2 := by linarith [sq_nonneg (b.posY - rock.posY)]
  have down : (b.posY - rock.posY) ^ 2 < rock.radius ^ 2 := by linarith [sq_nonneg (b.posX - rock.posX)]
  have across := (abs_lt.mp (abs_lt_of_sq_lt_sq across positive.le)).2
  have down := (abs_lt.mp (abs_lt_of_sq_lt_sq down positive.le)).2
  constructor <;> linarith

theorem scanRocks_spares (ideal : A.Ideal) {rocks : List RockNode} (fits : ∀ node ∈ rocks, RockFits node.rock) (s : Ship) :
    ∀ b ∈ s.gun.bullets, b ∈ (scanRocks A rocks s).1.gun.bullets ∨ Near b := by
  induction rocks generalizing s with
  | nil => exact fun b member => .inl member
  | cons node rest ih =>
    intro b member
    rw [scanRocks_cons]
    cases hit : bulletHit A node.rock b with
    | true => exact .inr (bulletHit_near ideal (fits node List.mem_cons_self) hit)
    | false =>
      refine ih (fun node later => fits node (List.mem_cons_of_mem _ later)) _ b ?_
      rw [scanRock_bullets]
      exact List.mem_filter.mpr ⟨member,by rw [hit]; rfl⟩

-- A collision detection moves no ship: it erases bullets near the rocks and starts
-- explosions.
structure Collided (g g' : Game) : Prop where
  ships : ∀ address, Scanned (g.memory address).ship (g'.memory address).ship
  phases : ∀ address, (g'.memory address).phase = (g.memory address).phase
  spared : ∀ address, ∀ b ∈ (g.memory address).ship.gun.bullets, b ∈ (g'.memory address).ship.gun.bullets ∨ Near b

theorem Collided.refl (g : Game) : Collided g g := ⟨fun _ => .refl _,fun _ => rfl,fun _ _ member => .inl member⟩

theorem Collided.trans {g g' g'' : Game} (first : Collided g g') (second : Collided g' g'') : Collided g g'' := by
  refine ⟨fun address => (first.ships address).trans (second.ships address),
    fun address => (second.phases address).trans (first.phases address),fun address b member => ?_⟩
  rcases first.spared address b member with left | near
  · exact second.spared address b left
  · exact .inr near

theorem playerRound_collided (ideal : A.Ideal) {g g' : Game} {pair : UInt32 × Option Nat} (fits : Rocks RockFits g)
    (ran : playerRound A g pair = .ok g') : Collided g g' := by
  obtain ⟨id,_ | own⟩ := pair
  · rw [playerRound_null ran]
    exact .refl g
  · have others := (playerRound_charged ran).others
    obtain ⟨score,total⟩ := PlayerEvents.scoreRocks_score ran
    rw [scan,Game.setPlayer_self] at total
    have ship : (g'.memory own).ship = (scanRocks A g.gUniverse.rockField.rocks (g.memory own).ship).1 := by rw [total]
    constructor
    · intro address
      by_cases same : address = own
      · rw [same,ship]
        exact scanRocks_scanned _ _
      · rw [others address same]
        exact .refl _
    · intro address
      by_cases same : address = own
      · rw [same,total]
      · rw [others address same]
    · intro address b member
      by_cases same : address = own
      · rw [same] at member ⊢
        rw [ship]
        exact scanRocks_spares ideal fits _ b member
      · rw [others address same]
        exact .inl member

theorem detection_collided (ideal : A.Ideal) {g g' : Game} (fits : Rocks RockFits g) (ran : g.collisionDetection A = .ok g') :
    Rocks RockFits g' ∧ Collided g g' := by
  refine Runs.run_invariant (fun v => Rocks RockFits v ∧ Collided g v) (fun v pair next kept one => ?_) ⟨fits,.refl g⟩ ran
  obtain ⟨fits,early⟩ := kept
  exact ⟨playerRound_rocks (fun rock v _ fit => fits_fragments ideal rock v fit) fits one,early.trans (playerRound_collided ideal fits one)⟩

theorem moved_rocks {g : Game} {tickCount : UInt32} (size : g.gUniverse.toSize = field) (sized : Rocks Sized g) :
    Rocks RockFits (g.moveRocks A tickCount) := by
  intro node member
  obtain ⟨old,present,rfl⟩ := List.mem_map.mp member
  refine ⟨?_,sized old present⟩
  rw [size]
  exact ⟨wrapCoordinate_inside _,wrapCoordinate_inside _⟩

theorem reachable_sized (ideal : A.Ideal) {rand : Rand} {history : List Event}
    (ran : Runs.run (World.step A) (World.make A rand) history = .ok w) : Rocks Sized w.game :=
  reachable_rocks (fun _ _ => ⟨by norm_num [rockRadius],by norm_num [rockRadius]⟩)
    (fun rock v _ sized => sized_fragments ideal rock v sized) (fun _ _ sized => sized) ran

end Geoff.CollisionBounds
