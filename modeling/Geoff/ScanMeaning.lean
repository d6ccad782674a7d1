import Geoff.Collisions

-- What one player's scan of the rocks means: the loop over the rocks erases bullets
-- and changes the ship while it runs, and its outcome is said without it.
namespace Geoff.ScanMeaning
open Collision Collisions

variable (A : Arith)

def shipRock (rocks : List RockNode) (ship : Ship) : Option Nat :=
  (rocks.find? (fun node => shipHit A node.rock ship)).map RockNode.iter

def charges (rocks : List RockNode) (bullets : List Bullet) : List Nat := bullets.filterMap (firstRock A rocks)

def added (charged : List Nat) (found : Option Nat) : List Nat := found.toList.filter (fun iter => iter ∉ charged)

def survivors (rocks : List RockNode) (bullets : List Bullet) : List Bullet :=
  bullets.filter (fun b => !rocks.any (fun node => bulletHit A node.rock b))

def left (rocks : List RockNode) (ship : Ship) : Ship := {ship with gun := ⟨survivors A rocks ship.gun.bullets⟩}

variable {A}

theorem shipHit_exploding {ship : Ship} (blast : ship.exploding = true) (rock : Rock) : shipHit A rock ship = false := by
  simp [shipHit,blast]

theorem survivors_cons (node : RockNode) (rest : List RockNode) (bullets : List Bullet) :
    survivors A (node :: rest) bullets = survivors A rest (bullets.filter (fun b => !bulletHit A node.rock b)) := by
  rw [survivors,survivors,List.filter_filter]
  congr 1
  funext b
  simp [Bool.and_comm]

def erase (A : Arith) (node : RockNode) (ship : Ship) : Ship :=
  {ship with gun := ⟨ship.gun.bullets.filter (fun b => !bulletHit A node.rock b)⟩}

theorem left_cons (node : RockNode) (rest : List RockNode) (ship : Ship) :
    left A (node :: rest) ship = left A rest (erase A node ship) := by
  rw [left,survivors_cons]
  rfl

theorem scanRock_ship (ship : Ship) (node : RockNode) : (scanRock A (ship,[]) node).1 =
    if shipHit A node.rock ship then (erase A node ship).explode else erase A node ship := by
  have same : shipHit A node.rock {ship with gun := ⟨ship.gun.bullets.filter (fun b => !bulletHit A node.rock b)⟩} =
      shipHit A node.rock ship := rfl
  simp only [scanRock,same]
  cases shipHit A node.rock ship <;> rfl

-- A rock that meets the ship has it explode, and no later rock meets it again.
theorem scanRocks_exploding (rocks : List RockNode) {ship : Ship} (blast : ship.exploding = true) :
    (scanRocks A rocks ship).1 = left A rocks ship := by
  induction rocks generalizing ship with
  | nil => simp [scanRocks,left,survivors]
  | cons node rest ih =>
    have erased : (erase A node ship).exploding = true := blast
    rw [scanRocks_cons,scanRock_ship,shipHit_exploding blast,if_neg Bool.false_ne_true,left_cons]
    exact ih erased

theorem scanRocks_ship (rocks : List RockNode) (ship : Ship) : (scanRocks A rocks ship).1 =
    if rocks.any (fun node => shipHit A node.rock ship) then (left A rocks ship).explode else left A rocks ship := by
  induction rocks generalizing ship with
  | nil => simp [scanRocks,left,survivors]
  | cons node rest ih =>
    rw [scanRocks_cons,scanRock_ship,List.any_cons,left_cons]
    cases hit : shipHit A node.rock ship with
    | true =>
      rw [if_pos rfl,Bool.true_or,if_pos rfl]
      exact scanRocks_exploding rest rfl
    | false =>
      rw [if_neg Bool.false_ne_true,Bool.false_or]
      exact ih (erase A node ship)

theorem shipRock_exploding (rocks : List RockNode) {ship : Ship} (blast : ship.exploding = true) :
    shipRock A rocks ship = none := by
  have quiet : rocks.find? (fun node => shipHit A node.rock ship) = none :=
    List.find?_eq_none.mpr fun node _ => by rw [shipHit_exploding blast]; exact Bool.false_ne_true
  rw [shipRock,quiet]
  rfl

theorem firstRock_some {rocks : List RockNode} {bullets : List Bullet} {iter : Nat}
    (charged : iter ∈ charges A rocks bullets) : iter ∈ rocks.map RockNode.iter := by
  obtain ⟨b,_,found⟩ := List.mem_filterMap.mp charged
  exact firstRock_member A found

theorem shipRock_member {rocks : List RockNode} {ship : Ship} {iter : Nat} (found : shipRock A rocks ship = some iter) :
    iter ∈ rocks.map RockNode.iter := by
  obtain ⟨node,here,rfl⟩ := Option.map_eq_some_iff.mp found
  exact List.mem_map_of_mem (List.mem_of_find?_eq_some here)

theorem mem_added {charged : List Nat} {found : Option Nat} {iter : Nat} :
    iter ∈ charged ++ added charged found ↔ iter ∈ charged ∨ found = some iter := by
  simp only [added,List.mem_append,List.mem_filter,Option.mem_toList,decide_eq_true_eq]
  constructor
  · rintro (charge | ⟨here,_⟩)
    · exact .inl charge
    · exact .inr here
  · rintro (charge | here)
    · exact .inl charge
    · by_cases charge : iter ∈ charged
      · exact .inl charge
      · exact .inr ⟨here,charge⟩

theorem added_congr {charged charged' : List Nat} {found : Option Nat}
    (same : ∀ iter, found = some iter → (iter ∈ charged ↔ iter ∈ charged')) : added charged found = added charged' found := by
  cases found with
  | none => rfl
  | some iter => simp only [added,Option.toList_some,List.filter_cons,List.filter_nil,same iter rfl]

-- What the loop collects: for each bullet in a rock the first that contains it, and
-- the ship's rock unless a bullet has charged that.
theorem hits_charges {rocks : List RockNode} (distinct : (rocks.map RockNode.iter).Nodup) (ship : Ship) :
    (hits A rocks ship).Perm
      (charges A rocks ship.gun.bullets ++ added (charges A rocks ship.gun.bullets) (shipRock A rocks ship)) := by
  induction rocks generalizing ship with
  | nil =>
    have nothing : charges A [] ship.gun.bullets = [] := List.filterMap_eq_nil_iff.mpr fun _ _ => rfl
    rw [nothing]
    exact .nil
  | cons node rest ih =>
    obtain ⟨fresh,distinct⟩ := List.nodup_cons.mp distinct
    have later := ih distinct (scanRock A (ship,[]) node).1
    rw [scanRock_bullets] at later
    -- the bullets charge this rock, then the later ones
    have split : (charges A (node :: rest) ship.gun.bullets).Perm
        (List.replicate (ship.gun.bullets.filter (bulletHit A node.rock)).length node.iter ++
          charges A rest (ship.gun.bullets.filter fun b => !bulletHit A node.rock b)) :=
      firstRocks_cons A node rest ship.gun.bullets
    have elsewhere : node.iter ∉ charges A rest (ship.gun.bullets.filter fun b => !bulletHit A node.rock b) :=
      fun charged => fresh (firstRock_some charged)
    rw [hits,caught_eq]
    cases hit : shipHit A node.rock ship with
    | true =>
      have found : shipRock A (node :: rest) ship = some node.iter := by simp [shipRock,hit]
      have quiet : shipRock A rest (scanRock A (ship,[]) node).1 = none := by
        rw [scanRock_ship,if_pos hit]
        exact shipRock_exploding rest rfl
      rw [quiet,added,Option.toList_none,List.filter_nil,List.append_nil] at later
      rw [found]
      by_cases empty : ship.gun.bullets.filter (bulletHit A node.rock) = []
      · rw [empty,List.length_nil,List.replicate_zero,List.nil_append] at split
        have outside : node.iter ∉ charges A (node :: rest) ship.gun.bullets := fun charged =>
          elsewhere (split.mem_iff.mp charged)
        have own : added (charges A (node :: rest) ship.gun.bullets) (some node.iter) = [node.iter] := by
          simp [added,outside]
        rw [if_pos empty,if_pos rfl,own]
        exact (List.perm_append_comm.trans ((later.trans split.symm).append_right [node.iter]))
      · have charged : node.iter ∈ charges A (node :: rest) ship.gun.bullets := by
          refine split.mem_iff.mpr (List.mem_append_left _ (List.mem_replicate.mpr ⟨?_,rfl⟩))
          simpa using empty
        have own : added (charges A (node :: rest) ship.gun.bullets) (some node.iter) = [] := by simp [added,charged]
        rw [if_neg empty,own,List.append_nil]
        exact (later.append_left _).trans split.symm
    | false =>
      have found : shipRock A (node :: rest) ship = shipRock A rest ship := by simp [shipRock,hit]
      have same : shipRock A rest (scanRock A (ship,[]) node).1 = shipRock A rest ship := by
        rw [scanRock_ship,hit]
        rfl
      have caught : (if ship.gun.bullets.filter (bulletHit A node.rock) = [] then if false = true then [node.iter] else []
          else List.replicate (ship.gun.bullets.filter (bulletHit A node.rock)).length node.iter) =
          List.replicate (ship.gun.bullets.filter (bulletHit A node.rock)).length node.iter := by
        split
        · rename_i empty
          rw [empty]
          rfl
        · rfl
      have kept : added (charges A rest (ship.gun.bullets.filter fun b => !bulletHit A node.rock b)) (shipRock A rest ship) =
          added (charges A (node :: rest) ship.gun.bullets) (shipRock A rest ship) := by
        refine added_congr fun iter here => ?_
        have other : iter ≠ node.iter := fun same => fresh (by rw [← same]; exact shipRock_member here)
        rw [split.mem_iff,List.mem_append]
        constructor
        · exact .inr
        · rintro (own | charged)
          · exact absurd (List.eq_of_mem_replicate own) other
          · exact charged
      rw [same,kept] at later
      rw [caught,found]
      refine (later.append_left _).trans ?_
      rw [← List.append_assoc]
      exact split.symm.append_right _

theorem mem_hits {rocks : List RockNode} (distinct : (rocks.map RockNode.iter).Nodup) (ship : Ship) (iter : Nat) :
    iter ∈ hits A rocks ship ↔ iter ∈ charges A rocks ship.gun.bullets ∨ shipRock A rocks ship = some iter := by
  rw [(hits_charges distinct ship).mem_iff,mem_added]

def Within (limit : ℚ) (p q : Position) : Prop :=
  0 < limit ∧ (q.posX - p.posX) ^ 2 + (q.posY - p.posY) ^ 2 < limit ^ 2

instance (limit : ℚ) (p q : Position) : Decidable (Within limit p q) := inferInstanceAs (Decidable (_ ∧ _))

def InRock (b : Bullet) (node : RockNode) : Prop := Within node.rock.radius node.rock.toPosition b.toPosition
def MeetsShip (s : Ship) (node : RockNode) : Prop := Within (node.rock.radius + s.radius) node.rock.toPosition s.toPosition

instance (b : Bullet) (node : RockNode) : Decidable (InRock b node) := inferInstanceAs (Decidable (Within _ _ _))
instance (s : Ship) (node : RockNode) : Decidable (MeetsShip s node) := inferInstanceAs (Decidable (Within _ _ _))

def First (good : RockNode → Prop) (rocks : List RockNode) (node : RockNode) : Prop :=
  good node ∧ ∃ before after, rocks = before ++ node :: after ∧ ∀ earlier ∈ before, ¬ good earlier

def Open (s : Ship) : Prop := s.exploding = false ∧ s.invulnerable = false

def removed (rocks : List RockNode) (bullets : List Bullet) : List Bullet :=
  bullets.filter (fun b => decide (∃ node ∈ rocks, InRock b node))

structure Meaning (rocks : List RockNode) (s s' : Ship) (collided : List Nat) : Prop where
  bullets : s'.gun.bullets = s.gun.bullets.filter (fun b => decide (∀ node ∈ rocks, ¬ InRock b node))
  charged : ∃ (charge : Bullet → Nat) (onShip : List Nat),
    (∀ b ∈ removed rocks s.gun.bullets, ∃ node, First (InRock b) rocks node ∧ charge b = node.iter) ∧
      collided.Perm ((removed rocks s.gun.bullets).map charge ++ onShip) ∧ onShip.length ≤ 1 ∧
      ∀ iter ∈ onShip, Open s ∧ ∃ node, First (MeetsShip s) rocks node ∧ iter = node.iter
  collided : ∀ iter, iter ∈ collided ↔
    (∃ b ∈ removed rocks s.gun.bullets, ∃ node, First (InRock b) rocks node ∧ iter = node.iter) ∨
      Open s ∧ ∃ node, First (MeetsShip s) rocks node ∧ iter = node.iter
  explodes : (s.exploding = false ∧ s'.exploding = true) ↔ Open s ∧ ∃ node ∈ rocks, MeetsShip s node

theorem first_found {good : RockNode → Prop} [DecidablePred good] {rocks : List RockNode} {iter : Nat} :
    (rocks.find? (fun node => decide (good node))).map RockNode.iter = some iter ↔
      ∃ node, First good rocks node ∧ iter = node.iter := by
  rw [Option.map_eq_some_iff]
  refine exists_congr fun node => ?_
  rw [List.find?_eq_some_iff_append,First,eq_comm (a := iter)]
  simp

section Exact
variable (cos sin : ℚ → ℚ)

theorem bulletHit_exact (node : RockNode) (b : Bullet) :
    bulletHit (.exact cos sin) node.rock b = decide (InRock b node) := rfl

theorem shipHit_exact {s : Ship} (open_ : Open s) (node : RockNode) :
    shipHit (.exact cos sin) node.rock s = decide (MeetsShip s node) := by
  rw [shipHit,open_.1,open_.2]
  rfl

theorem shipHit_closed {s : Ship} (closed : ¬ Open s) (node : RockNode) :
    shipHit (.exact cos sin) node.rock s = false := by
  rw [Open] at closed
  cases quiet : s.exploding with
  | true => exact shipHit_exploding quiet node.rock
  | false =>
    have safe : s.invulnerable = true := by simpa [quiet] using closed
    simp [shipHit,safe]

theorem firstRock_first (rocks : List RockNode) (b : Bullet) (iter : Nat) :
    firstRock (.exact cos sin) rocks b = some iter ↔ ∃ node, First (InRock b) rocks node ∧ iter = node.iter := by
  simp only [firstRock,bulletHit_exact,first_found]

theorem shipRock_first (rocks : List RockNode) (s : Ship) (iter : Nat) : shipRock (.exact cos sin) rocks s = some iter ↔
    Open s ∧ ∃ node, First (MeetsShip s) rocks node ∧ iter = node.iter := by
  by_cases open_ : Open s
  · simp only [shipRock,shipHit_exact cos sin open_,first_found,open_,true_and]
  · have nothing : rocks.find? (fun node => shipHit (.exact cos sin) node.rock s) = none :=
      List.find?_eq_none.mpr fun node _ => by rw [shipHit_closed cos sin open_]; exact Bool.false_ne_true
    rw [shipRock,nothing]
    simp [open_]

theorem firstRock_some_iff (rocks : List RockNode) (b : Bullet) :
    (firstRock (.exact cos sin) rocks b).isSome ↔ ∃ node ∈ rocks, InRock b node := by
  simp [firstRock,bulletHit_exact]

theorem charges_removed (rocks : List RockNode) (bullets : List Bullet) : charges (.exact cos sin) rocks bullets =
    (removed rocks bullets).map (fun b => (firstRock (.exact cos sin) rocks b).getD 0) := by
  induction bullets with
  | nil => rfl
  | cons b bullets ih =>
    have test := firstRock_some_iff cos sin rocks b
    cases found : firstRock (.exact cos sin) rocks b with
    | none =>
      have free : ¬ ∃ node ∈ rocks, InRock b node := by rw [← test,found]; exact Bool.false_ne_true
      rw [charges,List.filterMap_cons_none found,removed,List.filter_cons_of_neg (by simpa using free)]
      exact ih
    | some iter =>
      have inside : ∃ node ∈ rocks, InRock b node := by rw [← test,found]; rfl
      rw [charges,List.filterMap_cons_some found,removed,List.filter_cons_of_pos (by simpa using inside),List.map_cons,found]
      exact congrArg (iter :: ·) ih

theorem survivors_outside (rocks : List RockNode) (bullets : List Bullet) : survivors (.exact cos sin) rocks bullets =
    bullets.filter (fun b => decide (∀ node ∈ rocks, ¬ InRock b node)) := by
  rw [survivors]
  congr 1
  funext b
  rw [Bool.eq_iff_iff]
  simp [bulletHit_exact]

theorem scanned_exploding (rocks : List RockNode) (s : Ship) :
    (s.exploding = false ∧ (scanRocks (.exact cos sin) rocks s).1.exploding = true) ↔
      Open s ∧ ∃ node ∈ rocks, MeetsShip s node := by
  rw [scanRocks_ship]
  by_cases open_ : Open s
  · simp only [shipHit_exact cos sin open_,open_,open_.1,true_and]
    by_cases met : ∃ node ∈ rocks, MeetsShip s node
    · have any : rocks.any (fun node => decide (MeetsShip s node)) = true := by simpa using met
      simp [any,met,Ship.explode]
    · have any : rocks.any (fun node => decide (MeetsShip s node)) = false := by simpa using met
      simp [any,met,left,open_.1]
  · have any : rocks.any (fun node => shipHit (.exact cos sin) node.rock s) = false := by
      simp [shipHit_closed cos sin open_]
    rw [any,if_neg Bool.false_ne_true]
    constructor
    · rintro ⟨quiet,blast⟩
      rw [left,quiet] at blast
      cases blast
    · exact fun met => absurd met.1 open_

theorem scan_meaning (rocks : List RockNode) (distinct : (rocks.map RockNode.iter).Nodup) (s : Ship) :
    Meaning rocks s (scanRocks (.exact cos sin) rocks s).1 (hits (.exact cos sin) rocks s) where
  bullets := by
    rw [← survivors_outside cos sin,scanRocks_ship]
    split <;> rfl
  charged := by
    have perm := hits_charges (A := .exact cos sin) distinct s
    rw [charges_removed] at perm
    refine ⟨_,_,?_,perm,?_,?_⟩
    · intro b member
      obtain ⟨_,inside⟩ := List.mem_filter.mp member
      obtain ⟨iter,found⟩ := Option.isSome_iff_exists.mp ((firstRock_some_iff cos sin rocks b).mpr (by simpa using inside))
      obtain ⟨node,first,same⟩ := (firstRock_first cos sin rocks b iter).mp found
      exact ⟨node,first,by rw [found,Option.getD_some,same]⟩
    · refine (List.length_filter_le _ _).trans ?_
      cases shipRock (.exact cos sin) rocks s <;> simp
    · intro iter member
      have found := Option.mem_toList.mp (List.mem_of_mem_filter member)
      exact (shipRock_first cos sin rocks s iter).mp found
  collided := by
    intro iter
    rw [mem_hits distinct,shipRock_first]
    refine or_congr_left ?_
    constructor
    · intro charged
      obtain ⟨b,member,found⟩ := List.mem_filterMap.mp charged
      have inside := (firstRock_some_iff cos sin rocks b).mp (by rw [found]; rfl)
      exact ⟨b,List.mem_filter.mpr ⟨member,by simpa using inside⟩,(firstRock_first cos sin rocks b iter).mp found⟩
    · rintro ⟨b,member,first⟩
      exact List.mem_filterMap.mpr ⟨b,List.mem_of_mem_filter member,(firstRock_first cos sin rocks b iter).mpr first⟩
  explodes := scanned_exploding cos sin rocks s

-- A player's turn in CollisionDetection, whatever the state it finds: the scan means
-- what its tests say, the scoring loop runs over the rocks it collected, and no
-- other player's bullets or ship are touched by either.
theorem collision_detection_meaning (g : Game) (id : UInt32) (address : Nat) :
    Meaning g.gUniverse.rockField.rocks (g.memory address).ship ((scan (.exact cos sin) g address).memory address).ship
        (collidedRocks (.exact cos sin) g address) ∧
      (∀ other, other ≠ address → (scan (.exact cos sin) g address).memory other = g.memory other) ∧
      ∀ done, playerRound (.exact cos sin) g (id,some address) = .ok done →
        (done.memory address).ship = ((scan (.exact cos sin) g address).memory address).ship ∧
        ∀ other, other ≠ address → done.memory other = g.memory other := by
  refine ⟨?_,fun other ne => Game.setPlayer_other ne g _,fun done ran => ⟨?_,(playerRound_charged ran).others⟩⟩
  · rw [collidedRocks_hits,scan,Game.setPlayer_self]
    exact scan_meaning cos sin _ g.gUniverse.rockField.distinct _
  · exact (scoreRocks_log ran).2 address

end Exact

end Geoff.ScanMeaning
