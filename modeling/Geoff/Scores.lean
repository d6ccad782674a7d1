import Geoff.CollisionBounds
import Geoff.PlayerSteps

-- What rocks are worth: the points a rock brings in together with its fragments, and
-- the scoring loop as an exchange of that worth for points.
namespace Geoff.Scores
open Collision Collisions CollisionBounds Consts World

def Standard (rock : Rock) : Prop := rock.radius = 32 ∨ rock.radius = 16 ∨ rock.radius = 8

-- A double holds every whole number up to 2^53.
def Whole (A : Arith) : Prop := ∀ n : Nat, n ≤ 2 ^ 53 → A.fl n = n

def rockValue (radius : ℚ) : Nat :=
  if radius = 32 then 520 else if radius = 16 then 250 else if radius = 8 then 100 else 0

def value (rocks : List RockNode) : Nat := (rocks.map fun node => rockValue node.rock.radius).sum

structure Piece (parent piece : RockNode) : Prop where
  place : piece.rock.toPosition = parent.rock.toPosition
  half : piece.rock.radius = parent.rock.radius / 2

structure Scored (address : Nat) (iters : List Nat) (g g' : Game) : Prop where
  less : value g'.gUniverse.rockField.rocks ≤ value g.gUniverse.rockField.rocks
  score : (g'.memory address).score = (g.memory address).score +
    UInt32.ofNat (value g.gUniverse.rockField.rocks - value g'.gUniverse.rockField.rocks)
  others : ∀ other, other ≠ address → g'.memory other = g.memory other
  rocks : ∃ fragments, g'.gUniverse.rockField.rocks =
      g.gUniverse.rockField.rocks.filter (fun node => node.iter ∉ iters) ++ fragments ∧
    ∀ piece ∈ fragments, ∃ node ∈ g.gUniverse.rockField.rocks, node.iter ∈ iters ∧ Piece node piece

variable {A : Arith}

@[simp] theorem value_nil : value [] = 0 := rfl

@[simp] theorem value_cons (node : RockNode) (rocks : List RockNode) :
    value (node :: rocks) = rockValue node.rock.radius + value rocks := rfl

@[simp] theorem value_append (first rest : List RockNode) : value (first ++ rest) = value first + value rest := by
  simp [value]

theorem standard_launched (place : Position) (v : Velocity) : Standard ⟨place,v,rockRadius⟩ := .inl rfl

theorem standard_fragments (whole : Whole A) (rock : Rock) (v : Velocity) (wide : rockRadius / 2 ≤ rock.radius)
    (standard : Standard rock) : Standard ⟨rock.toPosition,v,A.fl (rock.radius / 2)⟩ := by
  rcases standard with large | middle | small
  · have half : A.fl (rock.radius / 2) = 16 := by
      rw [large,show (32 : ℚ) / 2 = (16 : Nat) by norm_num,whole 16 (by omega)]
      rfl
    exact .inr (.inl half)
  · have half : A.fl (rock.radius / 2) = 8 := by
      rw [middle,show (16 : ℚ) / 2 = (8 : Nat) by norm_num,whole 8 (by omega)]
      rfl
    exact .inr (.inr half)
  · rw [small] at wide
    norm_num [rockRadius] at wide

theorem step_standard (whole : Whole A) {w t : World} {event : Event} (standard : Rocks Standard w.game)
    (ran : w.step A event = .ok t) : Rocks Standard t.game :=
  step_rocks standard_launched (standard_fragments whole) (fun _ _ standard => standard) standard ran

theorem launchFragments_rocks (field : RockField) (rand : Rand) (x y r : ℚ) : ∃ v v' : Velocity,
    (field.launchFragments A rand x y r).1.rocks = field.rocks ++ [⟨field.nextIter,⟨⟨x,y⟩,v,A.fl (r / 2)⟩⟩,
      ⟨field.nextIter + 1,⟨⟨x,y⟩,v',A.fl (r / 2)⟩⟩] := by
  simp only [RockField.launchFragments,RockField.launchOne,RockField.pushBack,List.append_assoc]
  exact ⟨_,_,rfl⟩

theorem standard_halves (whole : Whole A) (rock : Rock) (standard : Standard rock) :
    (rockRadius / 2 ≤ rock.radius ∧ A.fl (rock.radius / 2) = rock.radius / 2 ∧
      rockValue rock.radius = (scoreOf rock.radius).toNat + 2 * rockValue (rock.radius / 2)) ∨
    (rock.radius < rockRadius / 2 ∧ rockValue rock.radius = (scoreOf rock.radius).toNat) := by
  rcases standard with large | middle | small
  · refine .inl ⟨by norm_num [large,rockRadius],?_,?_⟩
    · rw [large,show (32 : ℚ) / 2 = (16 : Nat) by norm_num]
      exact whole 16 (by omega)
    · norm_num [large,rockValue,scoreOf,rockRadius]
      rfl
  · refine .inl ⟨by norm_num [middle,rockRadius],?_,?_⟩
    · rw [middle,show (16 : ℚ) / 2 = (8 : Nat) by norm_num]
      exact whole 8 (by omega)
    · norm_num [middle,rockValue,scoreOf,rockRadius]
      rfl
  · refine .inr ⟨by norm_num [small,rockRadius],?_⟩
    norm_num [small,rockValue,scoreOf,rockRadius]
    rfl

-- A destroyed rock hands its value on: to the points it scores and to its fragments.
theorem destroyRock_pieces (whole : Whole A) {field : RockField} {node : RockNode} (found : field.find node.iter = some node.rock)
    (standard : Standard node.rock) (rand : Rand) : ∃ next pieces, field.destroyRock A rand node.iter = .ok next ∧
      next.1.rocks = field.rocks.filter (fun other => other.iter ≠ node.iter) ++ pieces ∧
      (∀ piece ∈ pieces, field.nextIter ≤ piece.iter ∧ Piece node piece) ∧
      rockValue node.rock.radius = (scoreOf node.rock.radius).toNat + value pieces := by
  have erased : (field.erase node.iter).nextIter = field.nextIter := rfl
  rcases standard_halves whole node.rock standard with ⟨wide,half,worth⟩ | ⟨narrow,worth⟩
  · obtain ⟨v,v',rocks⟩ := launchFragments_rocks (A := A) (field.erase node.iter) rand node.rock.posX node.rock.posY node.rock.radius
    refine ⟨_,_,?_,rocks,?_,?_⟩
    · simp only [RockField.destroyRock,found,ge_iff_le,wide,if_true,ite_self]
    · intro piece member
      rw [half,erased] at member
      rcases List.mem_cons.mp member with rfl | second
      · exact ⟨Nat.le_refl _,rfl,rfl⟩
      · rw [List.mem_singleton.mp second]
        exact ⟨Nat.le_succ _,rfl,rfl⟩
    · rw [worth,half,value_cons,value_cons,value_nil,Nat.two_mul]
      rfl
  · have split_none : ¬ node.rock.radius ≥ rockRadius := by
      simp only [rockRadius] at narrow ⊢
      linarith
    refine ⟨(field.erase node.iter,rand),[],?_,(List.append_nil _).symm,fun _ member => absurd member List.not_mem_nil,worth⟩
    simp only [RockField.destroyRock,found,if_neg split_none,if_neg (not_le.mpr narrow)]

theorem scoreRock_exchange (whole : Whole A) {g : Game} {node : RockNode} (member : node ∈ g.gUniverse.rockField.rocks)
    (standard : Standard node.rock) (id : UInt32) (address : Nat) :
    ∃ g' pieces, scoreRock A id address g node.iter = .ok g' ∧
      g'.gUniverse.rockField.rocks = g.gUniverse.rockField.rocks.filter (fun other => other.iter ≠ node.iter) ++ pieces ∧
      (∀ piece ∈ pieces, g.gUniverse.rockField.nextIter ≤ piece.iter ∧ Piece node piece) ∧
      rockValue node.rock.radius = (scoreOf node.rock.radius).toNat + value pieces ∧
      (g'.memory address).score = (g.memory address).score + scoreOf node.rock.radius ∧
      ∀ other, other ≠ address → g'.memory other = g.memory other := by
  have found : g.gUniverse.rockField.find node.iter = some node.rock := RockField.find_member member
  obtain ⟨⟨field,rand⟩,pieces,destroyed,rocks,fresh,worth⟩ := destroyRock_pieces whole found standard g.rand
  have one : scoreRock A id address g node.iter =
      .ok {g.setPlayer address ((g.memory address).addToScore (scoreOf node.rock.radius)) with
        gUniverse := {g.gUniverse with rockField := field}, rand := rand, destroyed := g.destroyed ++ [(id,node.iter)]} := by
    simp only [scoreRock,found,Game.setPlayer,destroyed,Runs.ok_bind]
    rfl
  refine ⟨_,pieces,one,rocks,fresh,worth,?_,fun other ne => Function.update_of_ne ne _ _⟩
  simp [Game.setPlayer,Player.addToScore]

theorem erase_split {field : RockField} {node : RockNode} (member : node ∈ field.rocks) : ∃ before after,
    field.rocks = before ++ node :: after ∧ field.rocks.filter (fun other => other.iter ≠ node.iter) = before ++ after := by
  obtain ⟨before,after,split⟩ := List.append_of_mem member
  refine ⟨before,after,split,?_⟩
  have distinct := field.distinct
  rw [split,List.map_append,List.map_cons,List.nodup_middle,List.nodup_cons,← List.map_append] at distinct
  have kept : (before ++ after).filter (fun other => other.iter ≠ node.iter) = before ++ after := by
    refine List.filter_eq_self.mpr fun other here => decide_eq_true fun same => distinct.1 ?_
    rw [← same]
    exact List.mem_map_of_mem here
  rw [split,List.filter_append,List.filter_cons_of_neg (by simp),← List.filter_append]
  exact kept

theorem value_erase {field : RockField} {node : RockNode} (member : node ∈ field.rocks) : value field.rocks =
    rockValue node.rock.radius + value (field.rocks.filter (fun other => other.iter ≠ node.iter)) := by
  obtain ⟨before,after,split,kept⟩ := erase_split member
  rw [kept,split,value_append,value_append,value_cons]
  omega

theorem points_sum {score points : UInt32} {before after : Nat} (less : after ≤ before) :
    score + points + UInt32.ofNat (before - after) = score + UInt32.ofNat (points.toNat + before - after) := by
  rw [Nat.add_sub_assoc less,UInt32.ofNat_add,UInt32.ofNat_toNat,UInt32.add_assoc]

theorem scoreRocks_exchange (whole : Whole A) (id : UInt32) (address : Nat) {iters : List Nat} (once : iters.Nodup)
    {g : Game} (live : ∀ iter ∈ iters, iter ∈ g.gUniverse.rockField.rocks.map RockNode.iter) (standard : Rocks Standard g) :
    ∃ g', iters.foldlM (scoreRock A id address) g = .ok g' ∧ Scored address iters g g' := by
  induction iters generalizing g with
  | nil =>
    refine ⟨g,rfl,Nat.le_refl _,by simp,fun _ _ => rfl,[],?_,fun _ member => absurd member List.not_mem_nil⟩
    simp
  | cons iter rest ih =>
    obtain ⟨fresh,later⟩ := List.nodup_cons.mp once
    obtain ⟨node,member,rfl⟩ := List.mem_map.mp (live iter List.mem_cons_self)
    obtain ⟨next,pieces,one,rocks,new,worth,score,others⟩ :=
      scoreRock_exchange whole member (standard node member) id address
    -- the rocks still to come are none of the pieces
    have apart : ∀ piece ∈ pieces, piece.iter ∉ rest := by
      intro piece here later
      obtain ⟨old,there,same⟩ := List.mem_map.mp (live piece.iter (List.mem_cons_of_mem _ later))
      have bound := g.gUniverse.rockField.issued old there
      have above := (new piece here).1
      omega
    have still : ∀ other ∈ rest, other ∈ next.gUniverse.rockField.rocks.map RockNode.iter := by
      intro other later
      obtain ⟨old,there,same⟩ := List.mem_map.mp (live other (List.mem_cons_of_mem _ later))
      rw [rocks,List.map_append]
      refine List.mem_append_left _ (List.mem_map.mpr ⟨old,List.mem_filter.mpr ⟨there,decide_eq_true fun here => ?_⟩,same⟩)
      exact fresh (by rw [← here,same]; exact later)
    obtain ⟨g',ran,less,score',others',fragments,rocks',parents⟩ :=
      ih later still (scoreRock_rocks (standard_fragments whole) standard one)
    have total : value g.gUniverse.rockField.rocks =
        (scoreOf node.rock.radius).toNat + value next.gUniverse.rockField.rocks := by
      rw [value_erase member,rocks,value_append]
      omega
    refine ⟨g',Runs.bind_ok.mpr ⟨next,one,ran⟩,by omega,?_,fun other ne => (others' other ne).trans (others other ne),
      pieces ++ fragments,?_,?_⟩
    · rw [score',score,total]
      exact points_sum less
    · have left : pieces.filter (fun piece => piece.iter ∉ rest) = pieces :=
        List.filter_eq_self.mpr fun piece here => decide_eq_true (apart piece here)
      rw [rocks',rocks,List.filter_append,left,List.filter_filter,List.append_assoc]
      congr 2
      funext other
      simp [Bool.and_comm]
    · intro piece here
      rcases List.mem_append.mp here with own | later
      · exact ⟨node,member,List.mem_cons_self,(new piece own).2⟩
      · obtain ⟨parent,there,listed,half⟩ := parents piece later
        rw [rocks] at there
        rcases List.mem_append.mp there with old | piece'
        · exact ⟨parent,List.mem_of_mem_filter old,List.mem_cons_of_mem _ listed,half⟩
        · exact absurd listed (apart parent piece')

def total (points : Nat → UInt32) : Nat → UInt32
  | 0 => 0
  | n + 1 => total points n + points n

def funds (g : Game) : UInt32 :=
  total (fun address => (g.memory address).score) g.allocated + UInt32.ofNat (value g.gUniverse.rockField.rocks)

theorem total_congr {n : Nat} {f f' : Nat → UInt32} (same : ∀ i, i < n → f' i = f i) : total f' n = total f n := by
  induction n with
  | zero => rfl
  | succ n ih => rw [total,total,ih fun i old => same i (by omega),same n (Nat.lt_succ_self n)]

theorem total_credit {n address : Nat} (old : address < n) {f f' : Nat → UInt32} {points : UInt32}
    (own : f' address = f address + points) (others : ∀ other, other ≠ address → f' other = f other) :
    total f' n = total f n + points := by
  induction n with
  | zero => exact absurd old (Nat.not_lt_zero _)
  | succ n ih =>
    rw [total,total]
    rcases Nat.lt_succ_iff_lt_or_eq.mp old with earlier | rfl
    · rw [ih earlier,others n (by omega),UInt32.add_assoc,UInt32.add_comm points,← UInt32.add_assoc]
    · rw [total_congr fun i before => others i (by omega),own]
      exact (UInt32.add_assoc ..).symm

theorem scoreRock_funds (whole : Whole A) {id : UInt32} {address iter : Nat} {g g' : Game} (standard : Rocks Standard g)
    (old : address < g.allocated) (ran : scoreRock A id address g iter = .ok g') : funds g' = funds g := by
  have found : ∃ node ∈ g.gUniverse.rockField.rocks, node.iter = iter := by
    unfold scoreRock at ran
    split at ran
    · cases ran
    · rename_i rock found
      exact List.mem_map.mp (RockField.find_isSome.mp (by rw [found]; rfl))
  obtain ⟨node,member,rfl⟩ := found
  obtain ⟨next,pieces,one,rocks,_,worth,score,others⟩ := scoreRock_exchange whole member (standard node member) id address
  cases one.symm.trans ran
  have worths : value g.gUniverse.rockField.rocks =
      (scoreOf node.rock.radius).toNat + value g'.gUniverse.rockField.rocks := by
    rw [value_erase member,rocks,value_append]
    omega
  rw [funds,funds,(scoreRock_charged ran).1.allocated,total_credit old score fun other ne => by rw [others other ne],worths,
    UInt32.ofNat_add,UInt32.ofNat_toNat]
  exact UInt32.add_assoc ..

theorem playerRound_funds (whole : Whole A) {g g' : Game} {pair : UInt32 × Option Nat} (standard : Rocks Standard g)
    (old : ∀ address, pair.2 = some address → address < g.allocated) (ran : playerRound A g pair = .ok g') :
    funds g' = funds g := by
  obtain ⟨id,_ | own⟩ := pair
  · rw [playerRound_null ran]
  · have scanned : funds (scan A g own) = funds g := by
      have scores : ∀ i, i < g.allocated → ((scan A g own).memory i).score = (g.memory i).score := by
        intro i _
        by_cases here : i = own
        · rw [here,scan,Game.setPlayer_self]
        · rw [scan,Game.setPlayer_other here]
      exact congrArg (· + UInt32.ofNat (value g.gUniverse.rockField.rocks)) (total_congr scores)
    have start : Rocks Standard (scan A g own) ∧ (scan A g own).allocated = g.allocated ∧ funds (scan A g own) = funds g :=
      ⟨standard,rfl,scanned⟩
    refine (Runs.run_invariant (fun v : Game => Rocks Standard v ∧ v.allocated = g.allocated ∧ funds v = funds g)
      (fun v iter next kept one => ?_) start ran).2.2
    obtain ⟨standard,same,held⟩ := kept
    refine ⟨scoreRock_rocks (standard_fragments whole) standard one,(scoreRock_charged one).1.allocated.trans same,?_⟩
    rw [scoreRock_funds whole standard (by rw [same]; exact old own rfl) one,held]

theorem detection_funds (whole : Whole A) {g g' : Game} (standard : Rocks Standard g)
    (old : ∀ pair ∈ g.gUniverse.players.toList, ∀ address, pair.2 = some address → address < g.allocated)
    (ran : g.collisionDetection A = .ok g') : funds g' = funds g := by
  refine (Runs.run_relates (r := fun v next : Game => Rocks Standard v → v.allocated = g.allocated →
    Rocks Standard next ∧ next.allocated = g.allocated ∧ funds next = funds v) ?_ ?_ ?_ ran standard rfl).2.2
  · exact fun v standard same => ⟨standard,same,rfl⟩
  · intro v middle next first second standard same
    obtain ⟨standard,same,held⟩ := first standard same
    obtain ⟨standard,same,later⟩ := second standard same
    exact ⟨standard,same,later.trans held⟩
  · intro v pair next member one standard same
    refine ⟨playerRound_rocks (standard_fragments whole) standard one,
      (playerRound_rounds (List.mem_singleton.mpr rfl) one).allocated.trans same,?_⟩
    exact playerRound_funds whole standard (fun address own => by rw [same]; exact old pair member address own) one

theorem moveRocks_value (g : Game) (tickCount : UInt32) :
    value (g.moveRocks A tickCount).gUniverse.rockField.rocks = value g.gUniverse.rockField.rocks := by
  simp only [Game.moveRocks,RockField.tickEvent,value,List.map_map]
  rfl

def gains (g g' : Game) : UInt32 := total (fun address => (g'.memory address).score - (g.memory address).score) g.allocated

theorem total_sub (f f' : Nat → UInt32) (n : Nat) : total (fun i => f' i - f i) n + total f n = total f' n := by
  induction n with
  | zero => rfl
  | succ n ih =>
    rw [total,total,total,← ih]
    generalize total (fun i => f' i - f i) n = early
    generalize total f n = held
    have back : f' n - f n + f n = f' n := UInt32.sub_add_cancel ..
    grind

theorem gains_value {g g' : Game} (allocated : g'.allocated = g.allocated) (held : funds g' = funds g) :
    gains g g' + UInt32.ofNat (value g'.gUniverse.rockField.rocks) = UInt32.ofNat (value g.gUniverse.rockField.rocks) := by
  have split := total_sub (fun address => (g.memory address).score) (fun address => (g'.memory address).score) g.allocated
  rw [funds,funds,allocated,← split] at held
  unfold gains
  grind

def launchedBy (player : Option Nat) : Requests.Extracted → Nat
  | .clickEvent _ _ => if player.isSome then 1 else 0
  | _ => 0

def launches (w : World) (event : Event) : Nat :=
  match w.requestOf event with
  | none => 0
  | some (s,bytes,beyond) => ((Session.requested bytes beyond).map (launchedBy s.player)).getD 0

-- The rocks launched so far, and the points the collisions of the ticks have brought
-- to the players so far.
structure Account where
  launched : Nat
  awarded : UInt32

def Account.note (w : World) (event : Event) (t : World) (a : Account) : Account where
  launched := a.launched + launches w event
  awarded := match event with
    | .tick => a.awarded + gains w.game t.game
    | _ => a.awarded

variable {w t : World} {event : Event}

theorem act_launches {s s' : Session} {g g' : Game} {le : Bool} {x : Requests.Extracted}
    (ran : Requests.act A s g le x = .ok (s',g')) :
    value g'.gUniverse.rockField.rocks = value g.gUniverse.rockField.rocks + 520 * launchedBy s.player x := by
  cases x with
  | registerSession w h =>
    rw [Requests.act,Messages.register_built] at ran
    cases ran
    rfl
  | clickEvent clickX clickY =>
    simp only [Requests.act] at ran
    split at ran
    · rename_i free
      cases ran
      rw [free]
      rfl
    · rename_i own known
      cases ran
      have launched : ∃ rock : Rock, rock.radius = rockRadius ∧
          (g.launchRock A ((g.memory own).clickPoint clickX clickY)).gUniverse.rockField.rocks =
            g.gUniverse.rockField.rocks ++ [⟨g.gUniverse.rockField.nextIter,rock⟩] := ⟨_,rfl,rfl⟩
      obtain ⟨rock,radius,rocks⟩ := launched
      rw [known,rocks,value_append,value_cons,radius]
      rfl
  | keyEvent key isDown =>
    simp only [Requests.act] at ran
    split at ran
    · cases ran; rfl
    · cases ran; rfl
  | resizeEvent width height =>
    simp only [Requests.act] at ran
    split at ran
    · cases ran; rfl
    · cases ran; rfl

theorem request_value (ran : w.step A event = .ok t) (other : event ≠ .tick) : value t.game.gUniverse.rockField.rocks =
    value w.game.gUniverse.rockField.rocks + 520 * launches w event := by
  rcases World.step_request ran other with ⟨unasked,same⟩ | ⟨s,s',bytes,beyond,asked,done⟩
  · rw [launches,unasked,same]
    rfl
  · simp only [launches,asked]
    rcases commsHandler_requested done with ⟨unknown,same⟩ | ⟨x,le,known,acted⟩
    · rw [unknown,same]
      rfl
    · rw [known]
      exact act_launches (s := s.setLittleEndian le) acted

theorem tick_value (whole : Whole A) (book : DeadPlayer.Book w) (standard : Rocks Standard w.game)
    (ran : w.tickEvent A = .ok t) : gains w.game t.game + UInt32.ofNat (value t.game.gUniverse.rockField.rocks) =
      UInt32.ofNat (value w.game.gUniverse.rockField.rocks) := by
  unfold World.tickEvent at ran
  split at ran
  · cases ran
    exact gains_value rfl rfl
  · obtain ⟨⟨game,sessions⟩,ticked,ran⟩ := Runs.bind_ok.mp ran
    obtain ⟨still,timed⟩ := Runs.run_invariant (fun v : World => v.game.gUniverse = game.gUniverse ∧ Ticked game v.game)
      (fun v _ next kept one => ⟨(timerRound_round one).1.trans kept.1,kept.2.trans (timerRound_ticked one).1⟩)
      ⟨rfl,.refl game⟩ ran
    have moved : Rocks Standard (w.game.moveRocks A w.game.gUniverse.timer.tick) := by
      intro node member
      obtain ⟨old,present,rfl⟩ := List.mem_map.mp member
      exact standard old present
    have issued : ∀ pair ∈ w.game.gUniverse.players.toList, ∀ address, pair.2 = some address → address < w.game.allocated := by
      intro pair member address own
      obtain ⟨other,same,bound⟩ := book.issued pair.1 pair.2 (Std.TreeMap.mem_toList_iff_getElem?_eq_some.mp member)
      cases same.symm.trans own
      exact bound
    have struck := detection_funds whole moved issued (gameTick_ok ticked)
    have before : funds (w.game.moveRocks A w.game.gUniverse.timer.tick) = funds w.game := by
      rw [funds,moveRocks_value]
      rfl
    have after : funds t.game = funds game := by
      rw [funds,timed.allocated,still,total_congr fun i _ => timed.score i]
      rfl
    refine gains_value ?_ (after.trans (struck.trans before))
    exact timed.allocated.trans (gameTick_rounds ticked).allocated

theorem account_step (whole : Whole A) (book : DeadPlayer.Book w) (standard : Rocks Standard w.game)
    (ran : w.step A event = .ok t) (a : Account)
    (even : a.awarded + UInt32.ofNat (value w.game.gUniverse.rockField.rocks) = UInt32.ofNat (520 * a.launched)) :
    (a.note w event t).awarded + UInt32.ofNat (value t.game.gUniverse.rockField.rocks) =
      UInt32.ofNat (520 * (a.note w event t).launched) := by
  by_cases tick : event = .tick
  · subst tick
    have brought := tick_value whole book standard ran
    have none_launched : launches w .tick = 0 := rfl
    simp only [Account.note,none_launched,Nat.add_zero]
    rw [UInt32.add_assoc,brought,even]
  · have same : (a.note w event t).awarded = a.awarded := by
      cases event with
      | tick => exact absurd rfl tick
      | _ => rfl
    rw [same,request_value ran tick,UInt32.ofNat_add,← UInt32.add_assoc,even,← UInt32.ofNat_add,← Nat.mul_add]
    rfl

-- Every launched rock is worth 520 points: what its pieces have brought in, and what the
-- pieces left are worth.
theorem account_run (whole : Whole A) {rand : Rand} {history : List Event} {a : Account}
    (ran : Runs.run (Runs.annotate (World.step A) Account.note) (World.make A rand,⟨0,0⟩) history = .ok (w,a)) :
    Rocks Standard w.game ∧
      a.awarded + UInt32.ofNat (value w.game.gUniverse.rockField.rocks) = UInt32.ofNat (520 * a.launched) := by
  have start : value (World.make A rand).game.gUniverse.rockField.rocks = 0 := by
    rw [World.make_game,(Game.make_fresh A rand).rocks]
    rfl
  have owned := owned_make A rand
  have book := DeadPlayer.book_make A rand
  have standard : Rocks Standard (World.make A rand).game := make_rocks rand
  generalize World.make A rand = first at start owned book standard ran
  refine (Runs.run_invariant (fun s : World × Account => (s.1.Owned ∧ DeadPlayer.Book s.1) ∧ Rocks Standard s.1.game ∧
    s.2.awarded + UInt32.ofNat (value s.1.game.gUniverse.rockField.rocks) = UInt32.ofNat (520 * s.2.launched)) ?_
    ⟨⟨owned,book⟩,standard,?_⟩ ran).2
  · intro s event next kept one
    obtain ⟨⟨owned,book⟩,standard,even⟩ := kept
    obtain ⟨stepped,noted⟩ := Runs.annotate_ok.mp one
    refine ⟨⟨owned_step owned stepped,DeadPlayer.book_step owned book stepped⟩,step_standard whole standard stepped,?_⟩
    rw [noted]
    exact account_step whole book standard stepped s.2 even
  · rw [start]
    rfl

-- The loop trades the value of the rocks it destroys for points, the sizes it relies on
-- are those of every running server, and so nothing is lost or won over a whole run.
theorem score_and_rocks_conserved (A : Arith) (whole : Whole A) :
    (∀ (id : UInt32) (address : Nat) (iters : List Nat) (g : Game), iters.Nodup →
      (∀ iter ∈ iters, iter ∈ g.gUniverse.rockField.rocks.map RockNode.iter) → Rocks Standard g →
        ∃ g', iters.foldlM (scoreRock A id address) g = .ok g' ∧ Scored address iters g g') ∧
    (∀ (rand : Rand) (history : List Event) (w : World),
      Runs.run (World.step A) (World.make A rand) history = .ok w → Rocks Standard w.game ∧
        ∃ a, Runs.run (Runs.annotate (World.step A) Account.note) (World.make A rand,⟨0,0⟩) history = .ok (w,a) ∧
          a.awarded + UInt32.ofNat (value w.game.gUniverse.rockField.rocks) = UInt32.ofNat (520 * a.launched)) := by
  refine ⟨fun id address iters g once live standard => scoreRocks_exchange whole id address once live standard,?_⟩
  intro rand history w ran
  obtain ⟨a,noted⟩ := Runs.annotate_run Account.note ran ⟨0,0⟩
  obtain ⟨standard,even⟩ := account_run whole noted
  exact ⟨standard,a,noted,even⟩

theorem whole_upright : Whole .upright := fun _ _ => rfl

theorem large_rock_scored : Whole .upright ∧ ∃ g', [0].foldlM (scoreRock .upright 7 0) crowdedGame = .ok g' ∧
    Scored 0 [0] crowdedGame g' := by
  have standard : Rocks Standard crowdedGame := by
    intro node member
    rw [List.mem_singleton.mp member]
    exact .inl rfl
  refine ⟨whole_upright,(score_and_rocks_conserved .upright whole_upright).1 7 0 [0] crowdedGame (by simp) ?_ standard⟩
  intro iter member
  rw [List.mem_singleton.mp member]
  exact List.mem_singleton.mpr rfl

end Geoff.Scores
