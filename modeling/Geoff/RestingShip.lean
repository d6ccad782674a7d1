import Geoff.Collisions
import Geoff.PlayerStore
import Mathlib.Tactic.IntervalCases

-- A ship that rests at the centre of the universe below a pile of rocks, in exact
-- arithmetic: it loses one life after the other until none is left.
namespace Geoff.RestingShip
open Consts Collision Collisions PlayerStore World

variable (cos sin : ℚ → ℚ)

def space : Size := ⟨8192,8192⟩

def centre : Position := ⟨4096,4096⟩

structure Rests (lives : Int) (exploding dead invulnerable : Bool) (s : Ship) : Prop where
  place : s.toPosition = centre
  still : s.toVelocity = ⟨0,0⟩
  window : s.toContext = ⟨800,600,3696,3796⟩
  radius : s.radius = 10
  margin : s.viewportMargin = 200
  unwrapped : s.wrapViewport = false
  off : s.thrusting = false
  bullets : s.gun.bullets = []
  lives : s.livesLeft = lives
  exploding : s.exploding = exploding
  dead : s.dead = dead
  invulnerable : s.invulnerable = invulnerable

-- The ship after a new life, after its invulnerability, and while it explodes; `k`
-- ticks are left on the running timer.
def Shielded (lives : Int) (k : Nat) (s : Ship) : Prop :=
  Rests lives false false true s ∧ s.invDuration = k / fps ∧ s.explosionDuration = shipExplodeDur

def Open (lives : Int) (s : Ship) : Prop := Rests lives false false false s ∧ s.explosionDuration = shipExplodeDur

def Blast (lives : Int) (k : Nat) (s : Ship) : Prop := Rests lives true false false s ∧ s.explosionDuration = k / fps

def Over (s : Ship) : Prop := Rests 0 false true false s

theorem accelerate_still {s : Ship} (still : s.toVelocity = ⟨0,0⟩) (off : s.thrusting = false) :
    s.accelerate (.exact cos sin) = s := by
  have zero : (⟨s.deltaX - friction * s.deltaX / fps,s.deltaY - friction * s.deltaY / fps⟩ : Velocity) = s.toVelocity := by
    rw [still]; simp
  rw [Ship.accelerate,if_neg (by simp [off])]
  exact congrArg (fun velocity => {s with toVelocity := velocity}) zero

theorem slideAxis_inside {margin pos : ℚ} {offset window : UInt16} (low : offset.toNat + margin ≤ pos)
    (high : pos ≤ offset.toNat + window.toNat - margin) (extent : ℚ) :
    Ship.slideAxis (.exact cos sin) extent margin pos offset window = offset :=
  (if_neg (not_lt.mpr low)).trans (if_neg (not_lt.mpr high))

theorem slide_still {s : Ship} (place : s.toPosition = centre) (window : s.toContext = ⟨800,600,3696,3796⟩)
    (margin : s.viewportMargin = 200) : s.slide (.exact cos sin) space = s := by
  have x : Ship.slideAxis (.exact cos sin) 8192 200 4096 3696 800 = 3696 :=
    slideAxis_inside cos sin (by norm_num [show (3696 : UInt16).toNat = 3696 from rfl])
      (by norm_num [show (3696 : UInt16).toNat = 3696 from rfl,show (800 : UInt16).toNat = 800 from rfl]) _
  have y : Ship.slideAxis (.exact cos sin) 8192 200 4096 3796 600 = 3796 :=
    slideAxis_inside cos sin (by norm_num [show (3796 : UInt16).toNat = 3796 from rfl])
      (by norm_num [show (3796 : UInt16).toNat = 3796 from rfl,show (600 : UInt16).toNat = 600 from rfl]) _
  have same : (⟨s.ctxW,s.ctxH,Ship.slideAxis (.exact cos sin) 8192 s.viewportMargin s.posX s.ctxOX s.ctxW,
      Ship.slideAxis (.exact cos sin) 8192 s.viewportMargin s.posY s.ctxOY s.ctxH⟩ : Context) = s.toContext := by
    simp only [place,window,margin,centre,x,y]
  unfold Ship.slide
  split
  · exact congrArg (fun context => {s with toContext := context}) same
  · rfl

theorem advance_still {s : Ship} (still : s.toVelocity = ⟨0,0⟩) : s.advance (.exact cos sin) = s := by
  have same : (⟨s.posX + s.deltaX,s.posY + s.deltaY⟩ : Position) = s.toPosition := by rw [still]; simp
  exact congrArg (fun position => {s with toPosition := position}) same

theorem enforce_still {s : Ship} (place : s.toPosition = centre) (radius : s.radius = 10) :
    s.enforce (.exact cos sin) space = s := by
  have inside : ∀ delta, Ship.enforceAxis (.exact cos sin) 8192 10 4096 delta = (4096,delta) := by
    intro delta
    norm_num [Ship.enforceAxis,Arith.exact]
  have x : s.posX = 4096 := by rw [place]; rfl
  have y : s.posY = 4096 := by rw [place]; rfl
  unfold Ship.enforce
  split
  · simp only [space,radius,x,y,inside]
    exact congrArg (fun position => {s with toPosition := position}) place.symm
  · rfl

theorem moveShip_rests {lives : Int} {exploding dead invulnerable : Bool} {s : Ship}
    (rests : Rests lives exploding dead invulnerable s) :
    ∃ rotation angle, s.moveShip (.exact cos sin) space = {s with rotation := rotation, angle := angle} := by
  obtain ⟨place,still,window,radius,margin,unwrapped,off,_,_,_,_,_⟩ := rests
  unfold Ship.moveShip
  split
  · exact ⟨s.rotation,s.angle,rfl⟩
  · refine ⟨(s.rotate (.exact cos sin)).rotation,((s.rotate (.exact cos sin)).wrapAngle (.exact cos sin)).angle,?_⟩
    rw [accelerate_still cos sin (s := s.rotate _) still off,slide_still cos sin (s := s.rotate _) place window margin]
    generalize turned : (s.rotate (.exact cos sin)).wrapAngle (.exact cos sin) = t
    have velocity : t.toVelocity = ⟨0,0⟩ := by rw [← turned]; exact still
    have position : t.toPosition = centre := by rw [← turned]; exact place
    have size : t.radius = 10 := by rw [← turned]; exact radius
    have flat : t.wrapViewport = false := by rw [← turned]; exact unwrapped
    rw [advance_still cos sin velocity,enforce_still cos sin position size,Ship.wrap,if_neg (by simp [flat]),← turned]
    rfl

theorem tickEvent_rests {lives : Int} {exploding dead invulnerable : Bool} {s : Ship}
    (rests : Rests lives exploding dead invulnerable s) : ∃ moved : Ship, Rests lives exploding dead invulnerable moved ∧
      moved.invDuration = s.invDuration ∧ moved.explosionDuration = s.explosionDuration ∧
      s.tickEvent (.exact cos sin) space =
        if exploding then
          if s.explosionDuration - 1 / fps < 0 then
            Ship.newLife (.exact cos sin) {moved with explosionDuration := shipExplodeDur, exploding := false}
          else {moved with explosionDuration := s.explosionDuration - 1 / fps}
        else if invulnerable then
          if s.invDuration - 1 / fps < 0 then
            {moved with invDuration := s.invDuration - 1 / fps, invulnerable := false}
          else Ship.blink (.exact cos sin) {moved with invDuration := s.invDuration - 1 / fps}
        else moved := by
  obtain ⟨rotation,angle,moved⟩ := moveShip_rests cos sin rests
  refine ⟨{s with rotation := rotation, angle := angle},?_,rfl,rfl,?_⟩
  · exact ⟨rests.place,rests.still,rests.window,rests.radius,rests.margin,rests.unwrapped,rests.off,rests.bullets,
      rests.lives,rests.exploding,rests.dead,rests.invulnerable⟩
  · have empty : s.gun.tickEvent (.exact cos sin) space = s.gun := by simp [Gun.tickEvent,rests.bullets]
    simp only [Ship.tickEvent,moved,empty,rests.exploding,rests.invulnerable]
    rfl

theorem count_down (k : Nat) : ((k + 1 : Nat) : ℚ) / fps - 1 / fps = k / fps := by
  push_cast
  ring

theorem counting (k : Nat) : ¬ (k : ℚ) / fps < 0 := not_lt.mpr (by rw [fps]; positivity)

theorem counted : ((0 : Nat) : ℚ) / fps - 1 / fps < 0 := by norm_num [fps]

theorem shielded_tick {lives : Int} {k : Nat} {s : Ship} (shielded : Shielded lives (k + 1) s) :
    Shielded lives k (s.tickEvent (.exact cos sin) space) := by
  obtain ⟨rests,timer,explosion⟩ := shielded
  obtain ⟨moved,rests,_,kept,ticked⟩ := tickEvent_rests cos sin rests
  obtain ⟨visible,blinkTime,blinkNum,blinked⟩ := Ship.blink_writes (.exact cos sin)
    {moved with invDuration := (k : ℚ) / fps}
  rw [timer,count_down,if_neg (counting k),blinked] at ticked
  rw [ticked]
  exact ⟨{rests with},rfl,kept.trans explosion⟩

theorem shielded_end {lives : Int} {s : Ship} (shielded : Shielded lives 0 s) :
    Open lives (s.tickEvent (.exact cos sin) space) := by
  obtain ⟨rests,timer,explosion⟩ := shielded
  obtain ⟨moved,rests,_,kept,ticked⟩ := tickEvent_rests cos sin rests
  rw [timer,if_pos counted] at ticked
  rw [ticked]
  exact ⟨{rests with invulnerable := rfl},kept.trans explosion⟩

theorem blast_tick {lives : Int} {k : Nat} {s : Ship} (blast : Blast lives (k + 1) s) :
    Blast lives k (s.tickEvent (.exact cos sin) space) := by
  obtain ⟨rests,timer⟩ := blast
  obtain ⟨moved,rests,_,_,ticked⟩ := tickEvent_rests cos sin rests
  rw [timer,count_down,if_neg (counting k)] at ticked
  rw [ticked]
  exact ⟨{rests with},rfl⟩

theorem explode_blast {lives : Int} {s : Ship} (opened : Open lives s) : Blast lives 30 s.explode :=
  ⟨{opened.1 with still := rfl, exploding := rfl},opened.2.trans (by norm_num [fps,shipExplodeDur])⟩

theorem blast_next {lives : Int} (left : lives ≠ 0) {s : Ship} (blast : Blast lives 0 s) :
    Shielded (lives - 1) 180 (s.tickEvent (.exact cos sin) space) := by
  obtain ⟨rests,timer⟩ := blast
  obtain ⟨moved,rests,_,_,ticked⟩ := tickEvent_rests cos sin rests
  rw [timer,if_pos rfl,if_pos counted,Ship.newLife,if_pos (by rw [rests.lives]; exact left)] at ticked
  rw [ticked]
  refine ⟨{rests with
    place := ?_, still := rfl, lives := ?_, exploding := rfl, dead := rfl, invulnerable := rfl},?_,rfl⟩
  · simp only [rests.window,centre,Position.mk.injEq]
    norm_num [show (3696 : UInt16).toNat = 3696 from rfl,show (3796 : UInt16).toNat = 3796 from rfl,
      show (800 / 2 : UInt16).toNat = 400 from rfl,show (600 / 2 : UInt16).toNat = 300 from rfl]
  · exact congrArg (· - 1) rests.lives
  · norm_num [fps,shipInvDur]

theorem blast_over {s : Ship} (blast : Blast 0 0 s) : Over (s.tickEvent (.exact cos sin) space) := by
  obtain ⟨rests,timer⟩ := blast
  obtain ⟨moved,rests,_,_,ticked⟩ := tickEvent_rests cos sin rests
  rw [timer,if_pos rfl,if_pos counted,Ship.newLife,if_neg (by simp [rests.lives])] at ticked
  rw [ticked]
  exact {rests with exploding := rfl, dead := rfl}

def atCentre (r : ℚ) : Rock := ⟨centre,⟨0,0⟩,r⟩

structure Pile (radii : List ℚ) (g : Game) : Prop where
  rocks : g.gUniverse.rockField.rocks.map RockNode.rock = radii.map atCentre
  size : g.gUniverse.toSize = space
  zeros : g.rand = .zeros

def fragments (r : ℚ) : List ℚ := if r ≥ rockRadius / 2 then [r / 2,r / 2] else []

def shatter : List ℚ → List ℚ
  | [] => []
  | r :: rest => rest ++ fragments r

theorem rock_rests (r : ℚ) : (atCentre r).tickEvent (.exact cos sin) space = atCentre r := by
  norm_num [Rock.tickEvent,atCentre,centre,space,wrapCoordinate,Arith.exact]

theorem pile_moves {radii : List ℚ} {g : Game} (pile : Pile radii g) (tickCount : UInt32) :
    Pile radii (g.moveRocks (.exact cos sin) tickCount) := by
  refine ⟨?_,pile.size,pile.zeros⟩
  have moved : (g.moveRocks (.exact cos sin) tickCount).gUniverse.rockField.rocks.map RockNode.rock =
      (g.gUniverse.rockField.rocks.map RockNode.rock).map (Rock.tickEvent (.exact cos sin) space) := by
    rw [← pile.size]
    simp [Game.moveRocks,RockField.tickEvent]
  rw [moved,pile.rocks,List.map_map]
  exact List.map_congr_left fun r _ => rock_rests cos sin r

theorem launchOne_zeros (field : RockField) (r : ℚ) :
    field.launchOne (.exact cos sin) .zeros 4096 4096 r = (field.pushBack (atCentre r),.zeros) := by
  have drawn : RockField.randomDelta (.exact cos sin) .zeros = (0,.zeros) := by
    simp [RockField.randomDelta,Rand.random,Rand.rand,Rand.zeros,Arith.exact]
  simp only [RockField.launchOne,drawn]
  rfl

theorem launchFragments_zeros (field : RockField) (r : ℚ) :
    field.launchFragments (.exact cos sin) .zeros 4096 4096 r =
      ((field.pushBack (atCentre (r / 2))).pushBack (atCentre (r / 2)),.zeros) := by
  have half : (Arith.exact cos sin).fl (r / 2) = r / 2 := rfl
  simp only [RockField.launchFragments,half,launchOne_zeros cos sin]

theorem destroyRock_pile {field : RockField} {node : RockNode} {nodes : List RockNode} {r : ℚ} {rest : List ℚ}
    (rocks : field.rocks = node :: nodes) (head : node.rock = atCentre r) (tail : nodes.map RockNode.rock = rest.map atCentre) :
    ∃ next, field.destroyRock (.exact cos sin) .zeros node.iter = .ok (next,.zeros) ∧
      next.rocks.map RockNode.rock = (rest ++ fragments r).map atCentre := by
  have found : field.find node.iter = some (atCentre r) := by simp [RockField.find,rocks,head]
  have kept : (field.erase node.iter).rocks = nodes := by
    have fresh := field.distinct
    rw [rocks,List.map_cons,List.nodup_cons] at fresh
    simp only [RockField.erase,rocks,List.filter_cons,ne_eq,not_true_eq_false,decide_false,Bool.false_eq_true,if_false]
    exact List.filter_eq_self.mpr fun other member => by
      simpa using fun same : other.iter = node.iter => fresh.1 (List.mem_map.mpr ⟨other,member,same⟩)
  have broken : ((((field.erase node.iter).pushBack (atCentre (r / 2))).pushBack (atCentre (r / 2))).rocks).map RockNode.rock =
      (rest ++ [r / 2,r / 2]).map atCentre := by
    simp [RockField.pushBack,kept,tail]
  have same : (atCentre r).radius = r := rfl
  unfold RockField.destroyRock
  rw [found]
  simp only [fragments,same]
  split
  · rename_i large
    rw [if_pos (le_trans (by norm_num [rockRadius]) large)]
    exact ⟨_,congrArg Except.ok (launchFragments_zeros cos sin _ r),broken⟩
  · split
    · exact ⟨_,congrArg Except.ok (launchFragments_zeros cos sin _ r),broken⟩
    · exact ⟨_,rfl,by rw [kept,tail,List.append_nil]⟩

theorem missed_safe {A : Arith} {lives : Int} {exploding dead invulnerable : Bool} {s : Ship}
    (rests : Rests lives exploding dead invulnerable s) (safe : exploding = true ∨ invulnerable = true) (node : RockNode) :
    Missed A node s := by
  refine ⟨fun b member => absurd member (by simp [rests.bullets]),?_⟩
  rcases safe with safe | safe
  · simp [shipHit,rests.exploding,safe]
  · simp [shipHit,rests.invulnerable,safe]

theorem shipHit_centre {r : ℚ} (positive : 0 < r) {s : Ship} (place : s.toPosition = centre) (radius : s.radius = 10)
    (quiet : s.exploding = false) (vulnerable : s.invulnerable = false) : shipHit (.exact cos sin) (atCentre r) s = true := by
  have near : (0 : ℚ) < r + 10 := by linarith
  have far : (0 : ℚ) < (r + 10) ^ 2 := by positivity
  simpa [shipHit,quiet,vulnerable,place,radius,atCentre,Arith.exact] using ⟨near,far⟩

theorem shipHit_open {lives : Int} {dead : Bool} {node : RockNode} {r : ℚ} (positive : 0 < r)
    (rock : node.rock = atCentre r) {s : Ship} (rests : Rests lives false dead false s) :
    shipHit (.exact cos sin) node.rock s = true := by
  rw [rock]
  exact shipHit_centre cos sin positive rests.place rests.radius rests.exploding rests.invulnerable

theorem scanRock_strikes {node : RockNode} {s : Ship} (hit : shipHit (.exact cos sin) node.rock s = true)
    (clear : ∀ b ∈ s.gun.bullets, bulletHit (.exact cos sin) node.rock b = false) :
    scanRock (.exact cos sin) (s,[]) node = (s.explode,[node.iter]) := by
  have kept : s.gun.bullets.filter (fun b => !bulletHit (.exact cos sin) node.rock b) = s.gun.bullets :=
    List.filter_eq_self.mpr fun b member => by rw [clear b member]; rfl
  have none_hit : s.gun.bullets.filter (bulletHit (.exact cos sin) node.rock) = [] :=
    List.filter_eq_nil_iff.mpr fun b member => by rw [clear b member]; exact Bool.false_ne_true
  simp only [scanRock,kept,none_hit,hit,if_true]
  rfl

-- The first rock of the pile hits a ship that is vulnerable, and no other does; its bullets
-- are away from the pile.
theorem round_hits {r : ℚ} {rest : List ℚ} {g : Game} (pile : Pile (r :: rest) g) (id : UInt32) {address : Nat}
    (hit : shipHit (.exact cos sin) (atCentre r) (g.memory address).ship = true)
    (clear : ∀ q ∈ r :: rest, ∀ b ∈ (g.memory address).ship.gun.bullets, bulletHit (.exact cos sin) (atCentre q) b = false) :
    ∃ g', playerRound (.exact cos sin) g (id,some address) = .ok g' ∧ Pile (shatter (r :: rest)) g' ∧
      (g'.memory address).ship = (g.memory address).ship.explode ∧ g'.gUniverse.timer = g.gUniverse.timer ∧
      g'.gUniverse.players = g.gUniverse.players := by
  obtain ⟨node,nodes,rocks,head,tail⟩ := List.map_eq_cons_iff.mp pile.rocks
  obtain ⟨field,destroyed,broken⟩ := destroyRock_pile cos sin rocks head tail
  have struck : scanRock (.exact cos sin) ((g.memory address).ship,[]) node = ((g.memory address).ship.explode,[node.iter]) := by
    refine scanRock_strikes cos sin ?_ ?_
    · rw [head]
      exact hit
    · rw [head]
      exact clear r List.mem_cons_self
  have missed : ∀ other ∈ nodes, Missed (.exact cos sin) other (g.memory address).ship.explode := by
    intro other member
    have inside : other.rock ∈ rest.map atCentre := by
      rw [← tail]
      exact List.mem_map_of_mem member
    obtain ⟨q,later,same⟩ := List.mem_map.mp inside
    refine ⟨?_,by simp [shipHit,Ship.explode]⟩
    rw [← same]
    exact clear q (List.mem_cons_of_mem _ later)
  have collected : collidedRocks (.exact cos sin) g address = [node.iter] := by
    rw [collidedRocks_hits,rocks,hits,caught,struck,(hits_nil _).mpr missed]
    rfl
  have scanned : (scanRocks (.exact cos sin) g.gUniverse.rockField.rocks (g.memory address).ship).1 =
      (g.memory address).ship.explode := by
    rw [rocks,scanRocks_cons,struck,scan_missed _ missed]
  have found : g.gUniverse.rockField.find node.iter = some (atCentre r) := by simp [RockField.find,rocks,head]
  rw [playerRound]
  simp only [collected,List.foldlM_cons,List.foldlM_nil,scoreRock,scan,scanned,Game.setPlayer,found,pile.zeros,destroyed,
    Runs.ok_bind,Runs.pure_ok]
  exact ⟨_,rfl,⟨broken,pile.size,rfl⟩,by simp [Player.addToScore],rfl,rfl⟩

theorem round_strikes {lives : Int} {dead : Bool} {r : ℚ} (positive : 0 < r) {rest : List ℚ} {g : Game}
    (pile : Pile (r :: rest) g) (id : UInt32) {address : Nat}
    (rests : Rests lives false dead false (g.memory address).ship) :
    ∃ g', playerRound (.exact cos sin) g (id,some address) = .ok g' ∧ Pile (shatter (r :: rest)) g' ∧
      (g'.memory address).ship = (g.memory address).ship.explode ∧ g'.gUniverse.timer = g.gUniverse.timer ∧
      g'.gUniverse.players = g.gUniverse.players := by
  refine round_hits cos sin pile id ?_ ?_
  · exact shipHit_centre cos sin positive rests.place rests.radius rests.exploding rests.invulnerable
  · intro q _ b member
    rw [rests.bullets] at member
    cases member

structure Lone (w : World) : Prop where
  running : w.game.gUniverse.timer.runTimer = true
  players : (players w).toList = [(0,some 0)]
  session : ∃ s : Session, w.gSessions.sessions.toList = [(0,some s)] ∧ s.player = some 0 ∧ s.txReadyCallback = some 0
  conn : ∃ c, w.conns = [c] ∧ c.sessionID = 0 ∧ c.reading = true

theorem lone_ticks {A : Arith} {w : World} (lone : Lone w) {g : Game}
    (round : playerRound A (w.game.moveRocks A w.game.gUniverse.timer.tick) (0,some 0) = .ok g)
    (timer : g.gUniverse.timer = w.game.gUniverse.timer) (kept : g.gUniverse.players = w.game.gUniverse.players) :
    ∃ t, w.step A .tick = .ok t ∧ t.game = g.setPlayer 0 ((g.memory 0).tick A g.gUniverse.toSize) ∧ Lone t := by
  obtain ⟨running,player,⟨s,only,known,callback⟩,c,conns,id,reading⟩ := lone
  have collided : (w.game.moveRocks A w.game.gUniverse.timer.tick).collisionDetection A = .ok g := by
    rw [Game.collisionDetection,show (w.game.moveRocks A _).gUniverse.players.toList = _ from player,List.foldlM_cons,round]
    rfl
  obtain ⟨found,keys⟩ := getElem_single only
  have present : Messages.Present w.gSessions.sessions.toList := by
    rw [only]
    intro pair member
    rw [List.mem_singleton.mp member]
    simp
  obtain ⟨s1,committed,known1,callback1⟩ : ∃ s1 : Session,
      g.tickSession A w.gSessions.sessions 0 = .ok (w.gSessions.sessions.insert 0 (some s1)) ∧
        s1.player = some 0 ∧ s1.txReadyCallback = some 0 := by
    simp only [Game.tickSession,found,known,Messages.universeTick_built g present]
    exact ⟨_,rfl,rfl,callback⟩
  have ticked : w.game.tickEvent A w.gSessions.sessions w.game.gUniverse.timer.tick =
      .ok (g,w.gSessions.sessions.insert 0 (some s1)) := by
    rw [Game.tickEvent,collided,Runs.ok_bind,keys,List.foldlM_cons,committed]
    rfl
  have single := toList_insert only (some s1)
  obtain ⟨found1,keys1⟩ := getElem_single single
  have alive : c.alive = true := by simp [WebsocketSession.alive,reading]
  simp only [step,tickEvent,running,Bool.true_eq_false,if_false,ticked,Runs.ok_bind,keys1,List.foldlM_cons,List.foldlM_nil,
    timerRound,found1,Messages.sessionTick_built known1,onTxReady,Session.commit,WebsockSession.commitTxBuffer,callback1,
    conns,List.getElem?_cons_zero,alive,Bool.true_eq_false,if_false]
  refine ⟨_,rfl,rfl,?_,?_,⟨_,toList_insert single _,?_,?_⟩,_,rfl,id,reading⟩
  · exact (congrArg Timer.runTimer timer).trans running
  · exact (congrArg Std.TreeMap.toList kept).trans player
  · exact known1
  · rfl

theorem lone_registered {w : World} (lone : Lone w) : (w.playerOf 0).isSome := by
  obtain ⟨s,only,known,_⟩ := lone.session
  rw [World.playerOf,playerOf_found (getElem_single only).1,known]
  rfl

theorem lone_round {A : Arith} {w : World} (empty : w.game.gUniverse.rockField.rocks = []) :
    (w.game.moveRocks A w.game.gUniverse.timer.tick).gUniverse.rockField.rocks = [] ∧
      playerRound A (w.game.moveRocks A w.game.gUniverse.timer.tick) (0,some 0) =
        .ok (w.game.moveRocks A w.game.gUniverse.timer.tick) := by
  have still : (w.game.moveRocks A w.game.gUniverse.timer.tick).gUniverse.rockField.rocks = [] := by
    simp [Game.moveRocks,RockField.tickEvent,empty]
  exact ⟨still,playerRound_missed 0 fun node member => by rw [still] at member; cases member⟩

theorem lone_drifts {A : Arith} {w : World} (lone : Lone w) (empty : w.game.gUniverse.rockField.rocks = []) :
    ∃ t, w.step A .tick = .ok t ∧ Lone t ∧ t.game.gUniverse.rockField.rocks = [] ∧
      t.game = (w.game.moveRocks A w.game.gUniverse.timer.tick).setPlayer 0
        ((w.game.memory 0).tick A w.game.gUniverse.toSize) := by
  obtain ⟨still,round⟩ := lone_round (A := A) empty
  obtain ⟨t,ticked,game,lone⟩ := lone_ticks lone round rfl rfl
  exact ⟨t,ticked,lone,by rw [game]; exact still,game⟩

theorem lone_quiet {A : Arith} {w : World} (lone : Lone w) (empty : w.game.gUniverse.rockField.rocks = []) :
    ∃ t, w.step A .tick = .ok t ∧ Lone t ∧ t.game.gUniverse.rockField.rocks = [] := by
  obtain ⟨t,ticked,lone,empty,_⟩ := lone_drifts (A := A) lone empty
  exact ⟨t,ticked,lone,empty⟩

theorem joined_lone {A : Arith} {rand : Rand} {w : World} (join : Joined A rand w) :
    Lone w ∧ w.game.gUniverse.rockField.rocks = [] := by
  obtain ⟨_,⟨c,conns,id,reading,_⟩,session,game⟩ := join
  have fresh := Game.make_fresh A rand
  generalize Game.make A rand = first at fresh game
  refine ⟨⟨?_,?_,session,c,conns,id,reading⟩,by rw [game]; exact fresh.rocks⟩
  · exact congrArg Timer.runTimer ((congrArg (fun g => g.gUniverse.timer) game).trans fresh.timer)
  · have book : w.game.gUniverse.players = (∅ : Std.TreeMap UInt32 (Option Nat)).insert 0 (some 0) := by
      rw [game,Game.newPlayer,fresh.players,fresh.allocated]
    exact (congrArg Std.TreeMap.toList book).trans (toList_first 0 _)

theorem lone_handles {A : Arith} {w : World} (lone : Lone w) {bytes : List UInt8} {beyond : Nat → UInt8} {g : Game}
    (handled : ∀ s : Session, s.player = some 0 →
      ∃ le, (s.commsHandler A w.game bytes beyond).1 = .ok (s.setLittleEndian le,g))
    (timer : g.gUniverse.timer = w.game.gUniverse.timer) (kept : g.gUniverse.players = w.game.gUniverse.players) :
    ∃ t, w.step A (.onRead 0 (.message bytes beyond)) = .ok t ∧ t.game = g ∧ Lone t := by
  obtain ⟨running,player,⟨s,single,own,callback⟩,c,conns,id,reading⟩ := lone
  obtain ⟨le,handled⟩ := handled s own
  have found : w.gSessions.sessions[c.sessionID]? = some (some s) := by
    rw [id]
    exact (getElem_single single).1
  rw [← id] at single
  obtain ⟨s',only,same,ready⟩ := handled_single single (s.setLittleEndian le) g 0
  refine ⟨_,onRead_handled 0 (by rw [conns]; rfl) reading found handled,rfl,⟨?_,?_,?_,?_⟩⟩
  · exact (congrArg Timer.runTimer timer).trans running
  · exact (congrArg Std.TreeMap.toList kept).trans player
  · exact ⟨s',only.trans (by rw [id]),same.trans own,ready.trans callback⟩
  · exact ⟨_,by rw [sendFrom,setConn]; simp only [conns]; rfl,(sendNext_identity _ _).1.trans id,
      (WebsocketSession.sendNext_reading _ _).trans reading⟩

structure Stands (phase : Ship → Prop) (radii : List ℚ) (w : World) : Prop where
  lone : Lone w
  pile : Pile radii w.game
  ship : phase (w.game.memory 0).ship

theorem round_ticks {phase next : Ship → Prop} {radii rest : List ℚ} {w : World} (stands : Stands phase radii w) {g : Game}
    (round : playerRound (.exact cos sin) (w.game.moveRocks (.exact cos sin) w.game.gUniverse.timer.tick) (0,some 0) = .ok g)
    (timer : g.gUniverse.timer = w.game.gUniverse.timer) (kept : g.gUniverse.players = w.game.gUniverse.players)
    (pile : Pile rest g) (alive : (g.memory 0).ship.dead = false)
    (ship : next ((g.memory 0).ship.tickEvent (.exact cos sin) space)) :
    ∃ t, w.step (.exact cos sin) .tick = .ok t ∧ Stands next rest t := by
  obtain ⟨t,ticked,game,lone⟩ := lone_ticks stands.lone round timer kept
  refine ⟨t,ticked,lone,?_,?_⟩
  · rw [game]
    exact ⟨pile.rocks,pile.size,pile.zeros⟩
  · have moved : (t.game.memory 0).ship = (g.memory 0).ship.tickEvent (.exact cos sin) space := by
      rw [game,Game.setPlayer_self,tick_alive _ alive,pile.size]
    rw [moved]
    exact ship

theorem tick_safe {phase next : Ship → Prop} {radii : List ℚ} {lives : Int} {exploding invulnerable : Bool} {w : World}
    (stands : Stands phase radii w) (rests : ∀ s, phase s → Rests lives exploding false invulnerable s)
    (safe : exploding = true ∨ invulnerable = true)
    (ship : ∀ s, phase s → next (s.tickEvent (.exact cos sin) space)) :
    ∃ t, w.step (.exact cos sin) .tick = .ok t ∧ Stands next radii t := by
  have here := rests _ stands.ship
  exact round_ticks cos sin stands (playerRound_missed 0 fun node _ => missed_safe here safe node) rfl rfl
    (pile_moves cos sin stands.pile _) here.dead (ship _ stands.ship)

theorem tick_strikes {lives : Int} {r : ℚ} (positive : 0 < r) {rest : List ℚ} {w : World}
    (stands : Stands (Open lives) (r :: rest) w) :
    ∃ t, w.step (.exact cos sin) .tick = .ok t ∧ Stands (Blast lives 29) (shatter (r :: rest)) t := by
  obtain ⟨g,round,pile,exploded,timer,kept⟩ := round_strikes cos sin positive
    (pile_moves cos sin stands.pile w.game.gUniverse.timer.tick) 0 stands.ship.1
  have blast : Blast lives 30 (g.memory 0).ship := by rw [exploded]; exact explode_blast stands.ship
  exact round_ticks cos sin stands round timer kept pile blast.1.dead (blast_tick cos sin blast)

def Leads (A : Arith) (w t : World) : Prop := ∃ n, Runs.run (step A) w (List.replicate n .tick) = .ok t

theorem leads_refl (A : Arith) (w : World) : Leads A w w := ⟨0,rfl⟩

theorem leads_next {A : Arith} {w next t : World} (one : w.step A .tick = .ok next) (more : Leads A next t) : Leads A w t := by
  obtain ⟨n,ran⟩ := more
  exact ⟨n + 1,Runs.bind_ok.mpr ⟨next,one,ran⟩⟩

theorem leads_trans {A : Arith} {w next t : World} (first : Leads A w next) (more : Leads A next t) : Leads A w t := by
  obtain ⟨m,one⟩ := first
  obtain ⟨n,two⟩ := more
  refine ⟨m + n,?_⟩
  rw [List.replicate_add,Runs.run_append _ one]
  exact two

theorem counts_to_zero (phase : Nat → Ship → Prop) {lives : Int} {exploding invulnerable : Bool}
    (rests : ∀ k s, phase k s → Rests lives exploding false invulnerable s) (safe : exploding = true ∨ invulnerable = true)
    (one : ∀ k s, phase (k + 1) s → phase k (s.tickEvent (.exact cos sin) space)) {k : Nat} {radii : List ℚ} {w : World}
    (stands : Stands (phase k) radii w) : ∃ t, Leads (.exact cos sin) w t ∧ Stands (phase 0) radii t := by
  induction k generalizing w with
  | zero => exact ⟨w,leads_refl _ w,stands⟩
  | succ k ih =>
    obtain ⟨middle,ticked,later⟩ := tick_safe cos sin stands (rests (k + 1)) safe (one k)
    obtain ⟨t,leads,ended⟩ := ih later
    exact ⟨t,leads_next ticked leads,ended⟩

-- One life: invulnerable, then open, then hit by the first rock, then exploding.
theorem life_ends {lives : Int} {r : ℚ} (positive : 0 < r) {rest : List ℚ} {w : World}
    (stands : Stands (Shielded lives 180) (r :: rest) w) :
    ∃ t, Leads (.exact cos sin) w t ∧ Stands (Blast lives 0) (shatter (r :: rest)) t := by
  obtain ⟨shielded,first,stands⟩ := counts_to_zero cos sin (Shielded lives) (fun _ _ shielded => shielded.1) (.inr rfl)
    (fun _ _ => shielded_tick cos sin) stands
  obtain ⟨opened,last,stands⟩ := tick_safe cos sin stands (fun _ shielded => shielded.1) (.inr rfl)
    fun _ => shielded_end cos sin
  obtain ⟨blasted,ticked,stands⟩ := tick_strikes cos sin positive stands
  obtain ⟨t,leads,ended⟩ := counts_to_zero cos sin (Blast lives) (fun _ _ blast => blast.1) (.inl rfl)
    (fun _ _ => blast_tick cos sin) stands
  exact ⟨t,leads_trans first (leads_next last (leads_next ticked leads)),ended⟩

-- As long as a rock is left in the pile, the ship comes to the end of its last life.
theorem lives_end (lives : Nat) {radii : List ℚ} {w : World} (stands : Stands (Shielded lives 180) radii w)
    (enough : ∀ k ≤ lives, ∃ r rest, shatter^[k] radii = r :: rest ∧ 0 < r) :
    ∃ t, Leads (.exact cos sin) w t ∧ Stands (Blast 0 0) (shatter^[lives + 1] radii) t := by
  obtain ⟨r,rest,here,positive⟩ := enough 0 (Nat.zero_le _)
  rw [Function.iterate_zero_apply] at here
  subst here
  induction lives generalizing r rest w with
  | zero => exact life_ends cos sin positive stands
  | succ lives ih =>
    obtain ⟨blasted,first,stands⟩ := life_ends cos sin positive stands
    obtain ⟨next,ticked,later⟩ := tick_safe cos sin stands (fun _ blast => blast.1) (.inl rfl) fun s blast =>
      show Shielded lives 180 _ by simpa using blast_next cos sin (by omega) blast
    obtain ⟨r',rest',after,positive'⟩ := enough 1 (by omega)
    rw [Function.iterate_one] at after
    rw [after] at later
    obtain ⟨t,more,ended⟩ := ih r' rest' positive' later fun k bound => by
      rw [← after]
      exact enough (k + 1) (by omega)
    refine ⟨t,leads_trans first (leads_next ticked more),?_⟩
    rw [Function.iterate_succ_apply,after]
    exact ended

theorem make_shielded (angle : ℚ) : Shielded 5 180 (Ship.make (.exact cos sin) space 800 600 (8192 / 2) (8192 / 2) angle) := by
  have x : (Arith.exact cos sin).toUint16 (8192 / 2 - (800 / 2 : UInt16).toNat) = 3696 := by
    rw [show (8192 / 2 - (800 / 2 : UInt16).toNat : ℚ) = (3696 : Nat) by
      norm_num [show (800 / 2 : UInt16).toNat = 400 from rfl]]
    exact Arith.toUint16_nat _ (by omega)
  have y : (Arith.exact cos sin).toUint16 (8192 / 2 - (600 / 2 : UInt16).toNat) = 3796 := by
    rw [show (8192 / 2 - (600 / 2 : UInt16).toNat : ℚ) = (3796 : Nat) by
      norm_num [show (600 / 2 : UInt16).toNat = 300 from rfl]]
    exact Arith.toUint16_nat _ (by omega)
  refine ⟨⟨?_,rfl,?_,?_,rfl,rfl,rfl,rfl,rfl,rfl,rfl,rfl⟩,?_,rfl⟩
  · simp only [Ship.make,centre,Position.mk.injEq]; norm_num
  · exact congrArg₂ (fun x y => (⟨800,600,x,y⟩ : Context)) x y
  · norm_num [Ship.make,shipSize]
  · norm_num [Ship.make,fps,shipInvDur]

theorem makeStars_zeros (A : Arith) (width height : ℚ) (n : Nat) : (makeStars A width height n .zeros).2 = .zeros := by
  induction n with
  | zero => rfl
  | succ n ih => exact ih

theorem make_zeros (A : Arith) : (Game.make A .zeros).rand = .zeros := by
  have same := makeStars_zeros A 8192 8192 numStars
  unfold Game.make
  split
  rename_i stars rand made
  rw [made] at same
  exact same

-- A click at the middle of the window: a rock is launched on the ship.
def clickRequest : List UInt8 := [0xAB,0x02,0,0,0,0,1,144,1,44]

theorem click_handled {A : Arith} {s : Session} {address : Nat} (known : s.player = some address) (g : Game) :
    (s.commsHandler A g clickRequest fun _ => 0).1 =
      .ok (s.setLittleEndian true,g.launchRock A ((g.memory address).clickPoint 400 300)) := by
  have dispatched : (s.commsHandler A g clickRequest fun _ => 0).1 =
      ((s.setLittleEndian true).handle A g .clickEvent (Session.rxBuffer clickRequest fun _ => 0)).1 := rfl
  rw [dispatched]
  simp only [Session.handle,Session.handleClickEvent_run]
  rw [show (s.setLittleEndian true).player = some address from known]
  rfl

theorem click_stands {w : World} (join : Joined (.exact cos sin) .zeros w) :
    ∃ t, w.step (.exact cos sin) (.onRead 0 (.message clickRequest fun _ => 0)) = .ok t ∧
      Stands (Shielded 5 180) [rockRadius] t := by
  obtain ⟨lone,empty⟩ := joined_lone join
  have game := join.game
  have fresh := Game.make_fresh (.exact cos sin) .zeros
  have zeros := make_zeros (.exact cos sin)
  generalize Game.make (.exact cos sin) .zeros = first at fresh zeros game
  have ship : Shielded 5 180 (w.game.memory 0).ship := by
    have mine : w.game.memory 0 = Player.make (.exact cos sin) space 800 600 := by
      have made := Game.newPlayer_memory (.exact cos sin) first 0 800 600
      rw [fresh.allocated,fresh.size] at made
      rw [game]
      exact made
    rw [mine]
    exact make_shielded cos sin _
  have place : (w.game.memory 0).clickPoint 400 300 = centre := by
    rw [Player.clickPoint,ship.1.window]
    norm_num [centre,show (3696 : UInt16).toNat = 3696 from rfl,show (3796 : UInt16).toNat = 3796 from rfl,
      show (400 : UInt16).toNat = 400 from rfl,show (300 : UInt16).toNat = 300 from rfl]
  have launched : w.game.launchRock (.exact cos sin) centre =
      {w.game with gUniverse := {w.game.gUniverse with
        rockField := w.game.gUniverse.rockField.pushBack (atCentre rockRadius)}, rand := .zeros} := by
    have drawn : w.game.rand = .zeros := by rw [game]; exact zeros
    rw [Game.launchRock,drawn,show centre.posX = 4096 from rfl,show centre.posY = 4096 from rfl,launchOne_zeros cos sin]
  have handled : ∀ s : Session, s.player = some 0 → ∃ le, (s.commsHandler (.exact cos sin) w.game clickRequest fun _ => 0).1 =
      .ok (s.setLittleEndian le,w.game.launchRock (.exact cos sin) centre) :=
    fun s known => ⟨true,by rw [click_handled known,place]⟩
  obtain ⟨t,clicked,after,lone⟩ := lone_handles lone handled (by rw [launched]) (by rw [launched])
  rw [launched] at after
  refine ⟨t,clicked,lone,⟨?_,?_,?_⟩,?_⟩
  · rw [after]
    simp [RockField.pushBack,empty]
  · rw [after]
    exact (congrArg (fun g => g.gUniverse.toSize) game).trans fresh.size
  · rw [after]
  · rw [after]
    exact ship

def blastEvents (n : Nat) : List Event :=
  joinEvents ++ .onRead 0 (.message clickRequest fun _ => 0) :: List.replicate n .tick

theorem clicked_blasts (cos sin : ℚ → ℚ) : ∃ n w,
    Runs.run (step (.exact cos sin)) (World.make (.exact cos sin) .zeros) (blastEvents n) = .ok w ∧ Stands (Blast 0 0) [8] w := by
  obtain ⟨joinedWorld,join⟩ := joined (.exact cos sin) .zeros
  obtain ⟨clicked,one,stands⟩ := click_stands cos sin join
  have pile : ∀ k ≤ 5, ∃ r rest, shatter^[k] [rockRadius] = r :: rest ∧ 0 < r := by
    intro k bound
    interval_cases k <;> norm_num [shatter,fragments,rockRadius]
  have last : shatter^[5 + 1] [rockRadius] = [8] := by norm_num [shatter,fragments,rockRadius]
  obtain ⟨w,⟨n,ticks⟩,ended⟩ := lives_end cos sin 5 stands pile
  rw [last] at ended
  refine ⟨n,w,?_,ended⟩
  rw [blastEvents,Runs.run_append _ join.run,Runs.run_cons,one,Runs.ok_bind]
  exact ticks

theorem last_blast_reached (cos sin : ℚ → ℚ) : ∃ history w,
    Runs.run (step (.exact cos sin)) (World.make (.exact cos sin) .zeros) history = .ok w ∧ Stands (Blast 0 0) [8] w := by
  obtain ⟨n,w,ran,stands⟩ := clicked_blasts cos sin
  exact ⟨blastEvents n,w,ran,stands⟩

theorem dead_reached (cos sin : ℚ → ℚ) : ∃ history w,
    Runs.run (step (.exact cos sin)) (World.make (.exact cos sin) .zeros) history = .ok w ∧ Stands Over [8] w := by
  obtain ⟨history,w,ran,stands⟩ := last_blast_reached cos sin
  obtain ⟨t,ticked,ended⟩ := tick_safe cos sin stands (fun _ blast => blast.1) (.inl rfl) fun _ => blast_over cos sin
  refine ⟨history ++ [.tick],t,?_,ended⟩
  rw [Runs.run_append _ ran,Runs.run_single]
  exact ticked

end Geoff.RestingShip
