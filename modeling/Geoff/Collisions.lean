import Geoff.GameSteps

-- One player's round of Universe::CollisionDetection: which rocks the scan collects,
-- and what becomes of them in the scoring loop.
namespace Geoff.Collisions
open Collision

variable (A : Arith)

def firstRock (rocks : List RockNode) (b : Bullet) : Option Nat :=
  (rocks.find? (fun node => bulletHit A node.rock b)).map RockNode.iter

def caught (node : RockNode) (ship : Ship) : List Nat := (scanRock A (ship,[]) node).2

def hits : List RockNode → Ship → List Nat
  | [],_ => []
  | node :: rest,ship => caught A node ship ++ hits rest (scanRock A (ship,[]) node).1

theorem scanRock_state (ship : Ship) (collided : List Nat) (node : RockNode) :
    scanRock A (ship,collided) node = ((scanRock A (ship,[]) node).1,collided ++ caught A node ship) := by
  simp only [caught,scanRock]
  split
  · split <;> simp
  · simp

theorem scan_hits (rocks : List RockNode) (ship : Ship) (collided : List Nat) :
    (rocks.foldl (scanRock A) (ship,collided)).2 = collided ++ hits A rocks ship := by
  induction rocks generalizing ship collided with
  | nil => simp [hits]
  | cons node rest ih => rw [List.foldl_cons,scanRock_state,ih,hits,List.append_assoc]

theorem scan_ship (rocks : List RockNode) (ship : Ship) (collided : List Nat) :
    (rocks.foldl (scanRock A) (ship,collided)).1 = (scanRocks A rocks ship).1 := by
  unfold scanRocks
  induction rocks generalizing ship collided with
  | nil => rfl
  | cons node rest ih =>
    rw [List.foldl_cons,List.foldl_cons,scanRock_state]
    exact (ih _ _).trans (ih _ _).symm

theorem scanRocks_cons (node : RockNode) (rest : List RockNode) (ship : Ship) :
    (scanRocks A (node :: rest) ship).1 = (scanRocks A rest (scanRock A (ship,[]) node).1).1 :=
  scan_ship A rest _ _

theorem collidedRocks_hits (g : Game) (address : Nat) :
    collidedRocks A g address = hits A g.gUniverse.rockField.rocks (g.memory address).ship := by
  rw [collidedRocks,scanRocks,scan_hits,List.nil_append]

theorem scanRock_bullets (ship : Ship) (node : RockNode) : (scanRock A (ship,[]) node).1.gun.bullets =
    ship.gun.bullets.filter (fun b => !bulletHit A node.rock b) := by
  simp only [scanRock]
  split <;> rfl

-- A rock is pushed once for each bullet in it, or once for the ship.
theorem caught_eq (node : RockNode) (ship : Ship) : caught A node ship =
    if ship.gun.bullets.filter (bulletHit A node.rock) = [] then if shipHit A node.rock ship then [node.iter] else []
    else List.replicate (ship.gun.bullets.filter (bulletHit A node.rock)).length node.iter := by
  have pushed : (ship.gun.bullets.filter (bulletHit A node.rock)).map (fun _ => node.iter) =
      List.replicate (ship.gun.bullets.filter (bulletHit A node.rock)).length node.iter := List.map_const' ..
  have same : shipHit A node.rock {ship with gun := ⟨ship.gun.bullets.filter (fun b => !bulletHit A node.rock b)⟩} =
      shipHit A node.rock ship := rfl
  simp only [caught,scanRock,List.nil_append,pushed,same]
  by_cases empty : ship.gun.bullets.filter (bulletHit A node.rock) = []
  · rw [if_pos empty,empty]
    split <;> rfl
  · rw [if_neg empty]
    split
    · rw [if_pos (by simpa using empty)]
    · rfl

theorem caught_replicate (node : RockNode) (ship : Ship) : ∃ n, caught A node ship = List.replicate n node.iter ∧
    (n ≤ 1 ↔ (ship.gun.bullets.filter (bulletHit A node.rock)).length ≤ 1) := by
  rw [caught_eq]
  split
  · rename_i empty
    rw [empty]
    split
    · exact ⟨1,rfl,by simp⟩
    · exact ⟨0,rfl,by simp⟩
  · exact ⟨_,rfl,Iff.rfl⟩

theorem hits_member {rocks : List RockNode} {ship : Ship} {iter : Nat} (member : iter ∈ hits A rocks ship) :
    iter ∈ rocks.map RockNode.iter := by
  induction rocks generalizing ship with
  | nil => cases member
  | cons node rest ih =>
    rcases List.mem_append.mp member with here | later
    · obtain ⟨n,same,_⟩ := caught_replicate A node ship
      rw [same] at here
      rw [List.eq_of_mem_replicate here]
      exact List.mem_cons_self
    · exact List.mem_cons_of_mem _ (ih later)

theorem firstRock_member {rocks : List RockNode} {b : Bullet} {iter : Nat} (found : firstRock A rocks b = some iter) :
    iter ∈ rocks.map RockNode.iter := by
  obtain ⟨node,here,rfl⟩ := Option.map_eq_some_iff.mp found
  exact List.mem_map_of_mem (List.mem_of_find?_eq_some here)

def Missed (node : RockNode) (ship : Ship) : Prop :=
  (∀ b ∈ ship.gun.bullets, bulletHit A node.rock b = false) ∧ shipHit A node.rock ship = false

theorem scanRock_missed {node : RockNode} {ship : Ship} (missed : Missed A node ship) :
    (scanRock A (ship,[]) node).1 = ship ∧ caught A node ship = [] := by
  have kept : ship.gun.bullets.filter (fun b => !bulletHit A node.rock b) = ship.gun.bullets :=
    List.filter_eq_self.mpr fun b member => by rw [missed.1 b member]; rfl
  have none_hit : ship.gun.bullets.filter (bulletHit A node.rock) = [] :=
    List.filter_eq_nil_iff.mpr fun b member => by rw [missed.1 b member]; simp
  simp only [caught,scanRock,kept,none_hit,missed.2]
  exact ⟨rfl,rfl⟩

theorem caught_nil {node : RockNode} {ship : Ship} : caught A node ship = [] ↔ Missed A node ship := by
  have outside : ship.gun.bullets.filter (bulletHit A node.rock) = [] ↔
      ∀ b ∈ ship.gun.bullets, bulletHit A node.rock b = false := by
    simp [List.filter_eq_nil_iff]
  rw [caught_eq,Missed,← outside]
  by_cases empty : ship.gun.bullets.filter (bulletHit A node.rock) = []
  · cases hit : shipHit A node.rock ship <;> simp [empty]
  · simp [empty,List.replicate_eq_nil_iff]

theorem hits_nil {rocks : List RockNode} {ship : Ship} :
    hits A rocks ship = [] ↔ ∀ node ∈ rocks, Missed A node ship := by
  induction rocks with
  | nil => simp [hits]
  | cons node rest ih =>
    rw [hits,List.append_eq_nil_iff,caught_nil,List.forall_mem_cons]
    refine and_congr_right fun missed => ?_
    rw [(scanRock_missed A missed).1,ih]

theorem scan_missed {rocks : List RockNode} {ship : Ship} (missed : ∀ node ∈ rocks, Missed A node ship) :
    (scanRocks A rocks ship).1 = ship := by
  induction rocks with
  | nil => rfl
  | cons node rest ih =>
    obtain ⟨head,tail⟩ := List.forall_mem_cons.mp missed
    rw [scanRocks_cons,(scanRock_missed A head).1]
    exact ih tail

theorem firstRocks_cons (node : RockNode) (rest : List RockNode) (bullets : List Bullet) :
    (bullets.filterMap (firstRock A (node :: rest))).Perm
      (List.replicate (bullets.filter (bulletHit A node.rock)).length node.iter ++
        (bullets.filter (fun b => !bulletHit A node.rock b)).filterMap (firstRock A rest)) := by
  induction bullets with
  | nil => exact .nil
  | cons b bullets ih =>
    by_cases hit : bulletHit A node.rock b
    · have first : firstRock A (node :: rest) b = some node.iter := by simp [firstRock,hit]
      simp only [List.filterMap_cons,first,List.filter_cons,hit,if_true,List.length_cons,List.replicate_succ,
        List.cons_append,Bool.not_true,Bool.false_eq_true,if_false]
      exact ih.cons _
    · have first : firstRock A (node :: rest) b = firstRock A rest b := by simp [firstRock,hit]
      cases later : firstRock A rest b with
      | none => simpa [List.filterMap_cons,first,later,List.filter_cons,hit] using ih
      | some iter =>
        simp only [List.filterMap_cons,first,later,List.filter_cons,hit,Bool.not_false,if_true,Bool.false_eq_true,if_false]
        exact (ih.cons _).trans List.perm_middle.symm

theorem hits_nodup {rocks : List RockNode} (distinct : (rocks.map RockNode.iter).Nodup) (ship : Ship) :
    (hits A rocks ship).Nodup ↔ (ship.gun.bullets.filterMap (firstRock A rocks)).Nodup := by
  induction rocks generalizing ship with
  | nil =>
    have nothing : ship.gun.bullets.filterMap (firstRock A []) = [] := List.filterMap_eq_nil_iff.mpr fun _ _ => rfl
    simp [hits,nothing]
  | cons node rest ih =>
    obtain ⟨fresh,distinct⟩ := List.nodup_cons.mp distinct
    obtain ⟨n,same,single⟩ := caught_replicate A node ship
    have later := ih distinct (scanRock A (ship,[]) node).1
    rw [scanRock_bullets] at later
    rw [(firstRocks_cons A node rest ship.gun.bullets).nodup_iff,hits,same,List.nodup_append,List.nodup_append,
      List.nodup_replicate,List.nodup_replicate,single,later]
    refine and_congr_right fun _ => and_congr_right fun _ => ?_
    constructor
    · rintro _ iter here other found rfl
      obtain ⟨b,_,first⟩ := List.mem_filterMap.mp found
      rw [List.eq_of_mem_replicate here] at first
      exact fresh (firstRock_member A first)
    · rintro _ iter here other found rfl
      rw [List.eq_of_mem_replicate here] at found
      exact fresh (hits_member A found)

def worth (field : RockField) (iter : Nat) : UInt32 :=
  match field.find iter with
  | some rock => scoreOf rock.radius
  | none => 0

variable {A} {id : UInt32} {address : Nat}

theorem scoreRock_found (A : Arith) (id : UInt32) (address : Nat) {g : Game} {iter : Nat} {rock : Rock}
    (found : g.gUniverse.rockField.find iter = some rock) :
    ∃ g', scoreRock A id address g iter = .ok g' ∧ g'.destroyed = g.destroyed ++ [(id,iter)] ∧
      (g'.memory address).score = (g.memory address).score + worth g.gUniverse.rockField iter ∧
      g.gUniverse.rockField.nextIter ≤ g'.gUniverse.rockField.nextIter ∧
      ∀ other, other < g.gUniverse.rockField.nextIter →
        g'.gUniverse.rockField.find other = if other = iter then none else g.gUniverse.rockField.find other := by
  obtain ⟨⟨field,rand⟩,destroyed,grows,kept⟩ := RockField.destroyRock_found A found g.rand
  simp only [scoreRock,found,Game.setPlayer,destroyed,Runs.ok_bind]
  exact ⟨_,rfl,rfl,by simp [Player.addToScore,worth,found],grows,kept⟩

-- A list of iterators without repetition is destroyed to its end: each rock is
-- charged and scored once, and the rocks outside the list stay.
theorem scoreRocks_once (A : Arith) (id : UInt32) (address : Nat) {iters : List Nat} (once : iters.Nodup) {g : Game}
    (live : ∀ iter ∈ iters, (g.gUniverse.rockField.find iter).isSome) :
    ∃ g', iters.foldlM (scoreRock A id address) g = .ok g' ∧
      g'.destroyed = g.destroyed ++ iters.map (fun iter => (id,iter)) ∧
      (g'.memory address).score = (iters.map (worth g.gUniverse.rockField)).foldl (· + ·) (g.memory address).score ∧
      ∀ iter, iter < g.gUniverse.rockField.nextIter →
        g'.gUniverse.rockField.find iter = if iter ∈ iters then none else g.gUniverse.rockField.find iter := by
  induction iters generalizing g with
  | nil => exact ⟨g,rfl,by simp,rfl,fun iter _ => by simp⟩
  | cons iter rest ih =>
    obtain ⟨fresh,once⟩ := List.nodup_cons.mp once
    obtain ⟨rock,found⟩ := Option.isSome_iff_exists.mp (live iter (by simp))
    obtain ⟨next,one,log,score,grows,kept⟩ := scoreRock_found A id address found
    have same : ∀ other ∈ rest, next.gUniverse.rockField.find other = g.gUniverse.rockField.find other := by
      intro other member
      obtain ⟨_,there⟩ := Option.isSome_iff_exists.mp (live other (by simp [member]))
      rw [kept other (RockField.find_bound there),if_neg fun here => fresh (by rw [← here]; exact member)]
    obtain ⟨g',ran,log',score',survivors⟩ := ih once (g := next) fun other member => by
      rw [same other member]; exact live other (by simp [member])
    refine ⟨g',Runs.bind_ok.mpr ⟨next,one,ran⟩,?_,?_,?_⟩
    · rw [log',log]; simp
    · have worths : rest.map (worth next.gUniverse.rockField) = rest.map (worth g.gUniverse.rockField) :=
        List.map_congr_left fun other member => by rw [worth,worth,same other member]
      rw [score',worths,score]
      rfl
    · intro other old
      rw [survivors other (by omega),kept other old]
      by_cases here : other = iter
      · simp [here]
      · simp [here]

theorem scoreRocks_log {iters : List Nat} {g g' : Game} (ran : iters.foldlM (scoreRock A id address) g = .ok g') :
    g'.destroyed = g.destroyed ++ iters.map (fun iter => (id,iter)) ∧
      ∀ other, (g'.memory other).ship = (g.memory other).ship := by
  induction iters generalizing g with
  | nil => cases ran; simp
  | cons iter rest ih =>
    obtain ⟨next,one,ran⟩ := Runs.bind_ok.mp ran
    obtain ⟨log,ships⟩ := ih ran
    refine ⟨by rw [log,(scoreRock_charged one).2]; simp,fun other => (ships other).trans ?_⟩
    unfold scoreRock at one
    split at one
    · cases one
    · obtain ⟨⟨field,rand⟩,_,result⟩ := Runs.bind_ok.mp one
      cases result
      by_cases here : other = address
      · subst here; simp [Game.setPlayer,Player.addToScore]
      · simp [Game.setPlayer,Function.update_of_ne here]

theorem scanRocks_dead (rocks : List RockNode) (ship : Ship) : (scanRocks A rocks ship).1.dead = ship.dead := by
  have one : ∀ (state : Ship × List Nat) node, (scanRock A state node).1.dead = state.1.dead := by
    intro state node
    simp only [scanRock]
    split <;> rfl
  have all : ∀ state : Ship × List Nat, (rocks.foldl (scanRock A) state).1.dead = state.1.dead := by
    induction rocks with
    | nil => exact fun _ => rfl
    | cons node rest ih => exact fun state => (ih (scanRock A state node)).trans (one state node)
  exact all (ship,[])

theorem playerRound_log {g g' : Game} (ran : playerRound A g (id,some address) = .ok g') :
    g'.destroyed = g.destroyed ++
        (hits A g.gUniverse.rockField.rocks (g.memory address).ship).map (fun iter => (id,iter)) ∧
      (g'.memory address).ship.dead = (g.memory address).ship.dead := by
  simp only [playerRound,collidedRocks_hits] at ran
  obtain ⟨log,ships⟩ := scoreRocks_log ran
  refine ⟨log,?_⟩
  rw [ships]
  simp [scan,Game.setPlayer,scanRocks_dead]

theorem playerRound_missed {g : Game} (id : UInt32) {address : Nat}
    (missed : ∀ node ∈ g.gUniverse.rockField.rocks, Missed A node (g.memory address).ship) :
    playerRound A g (id,some address) = .ok g := by
  have still : scan A g address = g := by
    simp only [scan,scan_missed A missed,Game.setPlayer]
    rw [Function.update_eq_self]
  simp only [playerRound,collidedRocks_hits,(hits_nil A).mpr missed,still]
  rfl

structure RoundSound (A : Arith) (g : Game) (id : UInt32) (address : Nat) : Prop where
  once : (collidedRocks A g address).Nodup
  round : ∃ g', playerRound A g (id,some address) = .ok g' ∧
    g'.destroyed = g.destroyed ++ (collidedRocks A g address).map (fun iter => (id,iter)) ∧
    (g'.memory address).score =
      ((collidedRocks A g address).map (worth g.gUniverse.rockField)).foldl (· + ·) (g.memory address).score ∧
    ∀ iter rock, g.gUniverse.rockField.find iter = some rock →
      g'.gUniverse.rockField.find iter = if iter ∈ collidedRocks A g address then none else some rock

-- No two bullets of the player are in the same rock, once each bullet counts for the
-- first rock of the list that contains it.
def BulletsApart (A : Arith) (g : Game) (address : Nat) : Prop :=
  ((g.memory address).ship.gun.bullets.filterMap (firstRock A g.gUniverse.rockField.rocks)).Nodup

theorem round_sound_iff (g : Game) (id : UInt32) (address : Nat) :
    RoundSound A g id address ↔ BulletsApart A g address := by
  have exact_ : (collidedRocks A g address).Nodup ↔ BulletsApart A g address := by
    rw [collidedRocks_hits]
    exact hits_nodup A g.gUniverse.rockField.distinct _
  rw [← exact_]
  constructor
  · intro sound; exact sound.once
  · intro once
    have live : ∀ iter ∈ collidedRocks A g address, ((scan A g address).gUniverse.rockField.find iter).isSome := by
      intro iter member
      rw [collidedRocks_hits] at member
      exact RockField.find_isSome.mpr (hits_member A member)
    obtain ⟨g',ran,log,score,survivors⟩ := scoreRocks_once A id address once live
    refine ⟨once,g',ran,log,?_,?_⟩
    · rw [score]
      simp [scan,Game.setPlayer]
    · intro iter rock found
      have kept : (scan A g address).gUniverse.rockField.find iter = some rock := found
      exact (survivors iter (RockField.find_bound found)).trans (by rw [kept])

theorem rocks_destroyed_once_iff (A : Arith) (g : Game) :
    (∀ before id address after next, g.gUniverse.players.toList = before ++ (id,some address) :: after →
      before.foldlM (playerRound A) g = .ok next → RoundSound A next id address) ↔
    (∀ before id address after next, g.gUniverse.players.toList = before ++ (id,some address) :: after →
      before.foldlM (playerRound A) g = .ok next → BulletsApart A next address) := by
  constructor
  · intro sound before id address after next split ran
    exact (round_sound_iff next id address).mp (sound before id address after next split ran)
  · intro apart before id address after next split ran
    exact (round_sound_iff next id address).mpr (apart before id address after next split ran)

-- One large rock and one player with two bullets in it, at the same place.
def crowdedGame : Game where
  gUniverse := {
    sizeW := 8192, sizeH := 8192, rockField := RockField.make.pushBack ⟨⟨100,100⟩,⟨0,0⟩,32⟩,
    players := (∅ : Std.TreeMap UInt32 (Option Nat)).insert 7 (some 0), timer := .make, ticks := 0, stars := [] }
  memory := fun _ => {(default : Player) with
    ship := {(default : Ship) with gun := ⟨[.make 100 100 1 0,.make 100 100 1 0]⟩, invulnerable := true}}
  allocated := 1
  rand := .zeros
  destroyed := []

theorem two_bullets_destroy_rock_twice :
    ¬ (∀ before id address after next, crowdedGame.gUniverse.players.toList = before ++ (id,some address) :: after →
      before.foldlM (playerRound .upright) crowdedGame = .ok next → RoundSound .upright next id address) := by
  intro sound
  have round := sound [] 7 0 [] crowdedGame rfl rfl
  have twice : collidedRocks .upright crowdedGame 0 = [0,0] := by
    simp [collidedRocks,scanRocks,scanRock,bulletHit,shipHit,crowdedGame,RockField.pushBack,RockField.make,Bullet.make,
      Arith.upright,Arith.exact]
  have once := round.once
  rw [twice] at once
  exact absurd once (by decide)

end Geoff.Collisions
