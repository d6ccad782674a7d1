import Geoff.Scores
import Geoff.Stock

-- How many rocks there are: every DestroyRock breaks a rock of the field into its
-- fragments, and a launched rock is used up by seven of them.
namespace Geoff.RockCensus
open Stock Scores Collision CollisionBounds Consts World

def shards (radius : ℚ) : List ℚ := if radius = 32 ∨ radius = 16 then [radius / 2,radius / 2] else []

-- The calls of DestroyRock a rock and its fragments are good for.
def pending (radius : ℚ) : ℕ := if radius = 32 then 7 else if radius = 16 then 3 else 1

def room (radius : ℚ) : ℕ := if radius = 32 then 4 else if radius = 16 then 2 else 1

def radii (g : Game) : List ℚ := g.gUniverse.rockField.rocks.map fun node => node.rock.radius

theorem pending_even (radius : ℚ) : pending radius = 1 + load pending (shards radius) := by
  unfold shards
  by_cases large : radius = 32
  · rw [large]
    norm_num [pending]
  · by_cases middle : radius = 16
    · rw [middle]
      norm_num [pending]
    · rw [if_neg (not_or.mpr ⟨large,middle⟩),pending,if_neg large,if_neg middle]
      rfl

theorem room_less (radius : ℚ) : load room (shards radius) ≤ room radius := by
  unfold shards
  by_cases large : radius = 32
  · rw [large]
    norm_num [room]
  · by_cases middle : radius = 16
    · rw [middle]
      norm_num [room]
    · rw [if_neg (not_or.mpr ⟨large,middle⟩)]
      exact Nat.zero_le _

theorem room_some (radius : ℚ) : 0 < room radius := by
  unfold room
  split
  · decide
  · split <;> decide

def Broken (g g' : Game) : Prop := ∃ n, g'.destroyed.length = g.destroyed.length + n ∧ Breaks shards n (radii g) (radii g')

variable {A : Arith}

theorem Broken.refl (g : Game) : Broken g g := ⟨0,rfl,.none _⟩

theorem Broken.trans {g g' g'' : Game} (first : Broken g g') (second : Broken g' g'') : Broken g g'' := by
  obtain ⟨n,early,breaks⟩ := first
  obtain ⟨m,late,more⟩ := second
  exact ⟨n + m,by omega,breaks.trans more⟩

theorem destroyRock_shards (whole : Whole A) {field : RockField} {node : RockNode} (member : node ∈ field.rocks)
    (standard : Standard node.rock) (rand : Rand) {next : RockField × Rand}
    (ran : field.destroyRock A rand node.iter = .ok next) : ∃ pieces, next.1.rocks =
      field.rocks.filter (fun other => other.iter ≠ node.iter) ++ pieces ∧
      pieces.map (fun piece => piece.rock.radius) = shards node.rock.radius := by
  have found := RockField.find_member member
  rcases standard_halves whole node.rock standard with ⟨wide,half,_⟩ | ⟨narrow,_⟩
  · obtain ⟨v,v',rocks⟩ := launchFragments_rocks (A := A) (field.erase node.iter) rand node.rock.posX node.rock.posY node.rock.radius
    simp only [RockField.destroyRock,found,ge_iff_le,wide,if_true,ite_self] at ran
    cases ran
    refine ⟨_,rocks,?_⟩
    have splits : node.rock.radius = 32 ∨ node.rock.radius = 16 := by
      rcases standard with large | middle | small
      · exact .inl large
      · exact .inr middle
      · rw [small] at wide
        norm_num [rockRadius] at wide
    rw [shards,if_pos splits,half]
    rfl
  · have lower : ¬ node.rock.radius ≥ rockRadius := by
      simp only [rockRadius] at narrow ⊢
      linarith
    simp only [RockField.destroyRock,found,if_neg lower,if_neg (not_le.mpr narrow)] at ran
    cases ran
    refine ⟨[],(List.append_nil _).symm,?_⟩
    have still : ¬ (node.rock.radius = 32 ∨ node.rock.radius = 16) := by
      rintro (large | middle)
      · norm_num [large,rockRadius] at narrow
      · norm_num [middle,rockRadius] at narrow
    rw [shards,if_neg still]
    rfl

theorem scoreRock_broken (whole : Whole A) {id : UInt32} {address iter : Nat} {g g' : Game} (standard : Rocks Standard g)
    (ran : scoreRock A id address g iter = .ok g') : Broken g g' := by
  have noted := (scoreRock_charged ran).2
  unfold scoreRock at ran
  split at ran
  · cases ran
  · rename_i rock found
    obtain ⟨⟨field,rand⟩,destroyed,result⟩ := Runs.bind_ok.mp ran
    obtain ⟨node,member,rfl⟩ := List.mem_map.mp (RockField.find_isSome.mp (by rw [found]; rfl))
    obtain ⟨pieces,rocks,sizes⟩ := destroyRock_shards whole member (standard node member) _ destroyed
    obtain ⟨before,after,split,kept⟩ := erase_split member
    cases result
    refine ⟨1,by rw [noted,List.length_append]; rfl,?_⟩
    have old : radii g = before.map (fun node => node.rock.radius) ++ node.rock.radius ::
        after.map (fun node => node.rock.radius) := by
      rw [radii,split,List.map_append,List.map_cons]
    have new : field.rocks.map (fun node => node.rock.radius) = before.map (fun node => node.rock.radius) ++
        after.map (fun node => node.rock.radius) ++ shards node.rock.radius := by
      rw [← sizes,rocks]
      refine (congrArg (List.map _) (congrArg (· ++ pieces) kept)).trans ?_
      rw [List.map_append,List.map_append]
    rw [old]
    show Breaks shards 1 _ (field.rocks.map fun node => node.rock.radius)
    rw [new]
    exact .single _ _ _

theorem playerRound_broken (whole : Whole A) {g g' : Game} {pair : UInt32 × Option Nat} (standard : Rocks Standard g)
    (ran : playerRound A g pair = .ok g') : Broken g g' := by
  obtain ⟨id,_ | own⟩ := pair
  · rw [playerRound_null ran]
    exact .refl g
  · have start : Rocks Standard (scan A g own) ∧ Broken g (scan A g own) := ⟨standard,0,rfl,.none _⟩
    refine (Runs.run_invariant (fun v : Game => Rocks Standard v ∧ Broken g v) (fun v iter next kept one => ?_) start ran).2
    exact ⟨scoreRock_rocks (standard_fragments whole) kept.1 one,kept.2.trans (scoreRock_broken whole kept.1 one)⟩

theorem detection_broken (whole : Whole A) {g g' : Game} (standard : Rocks Standard g) (ran : g.collisionDetection A = .ok g') :
    Broken g g' := by
  refine (Runs.run_invariant (fun v : Game => Rocks Standard v ∧ Broken g v) (fun v pair next kept one => ?_)
    ⟨standard,.refl g⟩ ran).2
  exact ⟨playerRound_rocks (standard_fragments whole) kept.1 one,kept.2.trans (playerRound_broken whole kept.1 one)⟩

theorem moveRocks_radii (g : Game) (tickCount : UInt32) : radii (g.moveRocks A tickCount) = radii g := by
  simp only [radii,Game.moveRocks,RockField.tickEvent,List.map_map]
  rfl

variable {w t : World} {event : Event}

theorem moved_standard (g : Game) (tickCount : UInt32) (standard : Rocks Standard g) :
    Rocks Standard (g.moveRocks A tickCount) := by
  intro node member
  obtain ⟨old,present,rfl⟩ := List.mem_map.mp member
  exact standard old present

theorem tick_broken (whole : Whole A) (standard : Rocks Standard w.game) (ran : w.tickEvent A = .ok t) :
    Broken w.game t.game := by
  unfold World.tickEvent at ran
  split at ran
  · cases ran
    exact .refl _
  · obtain ⟨⟨game,sessions⟩,ticked,ran⟩ := Runs.bind_ok.mp ran
    obtain ⟨still,timed⟩ := Runs.run_invariant (fun v : World => v.game.gUniverse = game.gUniverse ∧ Ticked game v.game)
      (fun v _ next kept one => ⟨(timerRound_round one).1.trans kept.1,kept.2.trans (timerRound_ticked one).1⟩)
      ⟨rfl,.refl game⟩ ran
    obtain ⟨n,more,breaks⟩ := detection_broken whole (moved_standard w.game w.game.gUniverse.timer.tick standard) (gameTick_ok ticked)
    rw [moveRocks_radii] at breaks
    refine ⟨n,?_,?_⟩
    · rw [timed.destroyed]
      exact more
    · have same : radii t.game = radii game := by
        unfold radii
        rw [still]
      rw [same]
      exact breaks

theorem act_radii {s s' : Session} {g g' : Game} {le : Bool} {x : Requests.Extracted} (ran : Requests.act A s g le x = .ok (s',g')) :
    g'.destroyed = g.destroyed ∧ radii g' = radii g ++ List.replicate (launchedBy s.player x) rockRadius := by
  cases x with
  | registerSession w h =>
    rw [Requests.act,Messages.register_built] at ran
    cases ran
    exact ⟨rfl,(List.append_nil _).symm⟩
  | clickEvent clickX clickY =>
    simp only [Requests.act] at ran
    split at ran
    · rename_i free
      cases ran
      rw [free]
      exact ⟨rfl,(List.append_nil _).symm⟩
    · rename_i own known
      cases ran
      rw [known]
      exact ⟨rfl,List.map_append⟩
  | keyEvent key isDown =>
    simp only [Requests.act] at ran
    split at ran
    · cases ran
      exact ⟨rfl,(List.append_nil _).symm⟩
    · cases ran
      exact ⟨rfl,(List.append_nil _).symm⟩
  | resizeEvent width height =>
    simp only [Requests.act] at ran
    split at ran
    · cases ran
      exact ⟨rfl,(List.append_nil _).symm⟩
    · cases ran
      exact ⟨rfl,(List.append_nil _).symm⟩

theorem request_radii (ran : w.step A event = .ok t) (other : event ≠ .tick) : t.game.destroyed = w.game.destroyed ∧
    radii t.game = radii w.game ++ List.replicate (launches w event) rockRadius := by
  rcases World.step_request ran other with ⟨unasked,same⟩ | ⟨s,s',bytes,beyond,asked,done⟩
  · rw [launches,unasked,same]
    exact ⟨rfl,(List.append_nil _).symm⟩
  · simp only [launches,asked]
    rcases commsHandler_requested done with ⟨unknown,same⟩ | ⟨x,le,known,acted⟩
    · rw [unknown,same]
      exact ⟨rfl,(List.append_nil _).symm⟩
    · rw [known]
      exact act_radii (s := s.setLittleEndian le) acted

structure Counted (g : Game) (launched : ℕ) : Prop where
  destroyed : g.destroyed.length + load pending (radii g) = 7 * launched
  room : load room (radii g) ≤ 4 * launched

theorem load_launched (v : ℚ → ℕ) (n : ℕ) : load v (List.replicate n rockRadius) = v 32 * n := by
  induction n with
  | zero => rfl
  | succ n ih =>
    rw [List.replicate_succ,load_cons,ih,Nat.mul_succ,Nat.add_comm]
    rfl

theorem counted_step (whole : Whole A) (standard : Rocks Standard w.game) (ran : w.step A event = .ok t) {launched : ℕ}
    (counted : Counted w.game launched) : Counted t.game (launched + launches w event) := by
  obtain ⟨destroyed,most⟩ := counted
  by_cases tick : event = .tick
  · subst tick
    obtain ⟨n,more,breaks⟩ := tick_broken whole standard ran
    have cost := breaks_cost pending_even breaks
    exact ⟨by rw [more]; show _ = 7 * launched; omega,(breaks_less room_less breaks).trans most⟩
  · obtain ⟨same,rocks⟩ := request_radii ran tick
    have seven : pending 32 = 7 := by norm_num [pending]
    have four : room 32 = 4 := by norm_num [room]
    constructor
    · rw [same,rocks,load_append,load_launched,seven]
      omega
    · rw [rocks,load_append,load_launched,four]
      omega

-- Over every run of the server the calls of DestroyRock and those the rocks in the field
-- are still good for make up seven for each launch, and there are no more than four rocks
-- for each.
theorem rocks_counted (whole : Whole A) {rand : Rand} {history : List Event} {a : Account}
    (ran : Runs.run (Runs.annotate (World.step A) Account.note) (World.make A rand,⟨0,0⟩) history = .ok (w,a)) :
    w.game.destroyed.length + load pending (radii w.game) = 7 * a.launched ∧
      w.game.gUniverse.rockField.rocks.length ≤ 4 * a.launched := by
  have start : Counted (World.make A rand).game 0 := by
    have empty : radii (World.make A rand).game = [] := by
      rw [radii,World.make_game,(Game.make_fresh A rand).rocks]
      rfl
    have fresh : (World.make A rand).game.destroyed = [] := by
      rw [World.make_game]
      unfold Game.make
      split
      rfl
    exact ⟨by rw [empty,fresh]; rfl,by rw [empty]; exact Nat.le_refl 0⟩
  have standard : Rocks Standard (World.make A rand).game := make_rocks rand
  generalize World.make A rand = first at start standard ran
  have counted := (Runs.run_invariant (fun s : World × Account => Rocks Standard s.1.game ∧ Counted s.1.game s.2.launched)
    (fun s event next kept one => by
      obtain ⟨stepped,noted⟩ := Runs.annotate_ok.mp one
      rw [noted]
      exact ⟨step_standard whole kept.1 stepped,counted_step whole kept.1 stepped kept.2⟩) ⟨standard,start⟩ ran).2
  refine ⟨counted.destroyed,?_⟩
  have most := (length_load room_some _).trans counted.room
  rwa [radii,List.length_map] at most

theorem launches_asked {s : Session} {bytes : List UInt8} {beyond : Nat → UInt8} {x : Requests.Extracted}
    (asked : w.requestOf event = some (s,bytes,beyond)) (known : Session.requested bytes beyond = some x) :
    launches w event = launchedBy s.player x := by
  simp only [launches,asked,known]
  rfl

theorem run_unlaunched {events : List Event} (idle : ∀ event ∈ events, ∀ w, launches w event = 0) {a b : Account}
    (ran : Runs.run (Runs.annotate (World.step A) Account.note) (w,a) events = .ok (t,b)) : b.launched = a.launched := by
  induction events generalizing w a with
  | nil =>
    cases ran
    rfl
  | cons event rest ih =>
    obtain ⟨here,later⟩ := List.forall_mem_cons.mp idle
    obtain ⟨⟨middle,noted⟩,one,tail⟩ := Runs.bind_ok.mp ran
    have note := (Runs.annotate_ok.mp one).2
    calc b.launched = noted.launched := ih later tail
      _ = a.launched + launches w event := congrArg Account.launched note
      _ = a.launched := by rw [here w,Nat.add_zero]

theorem join_unlaunched : ∀ event ∈ joinEvents, ∀ w, launches w event = 0 := by
  have decoded : Session.requested registerRequest (fun _ => 0) = some (.registerSession 800 600) := rfl
  intro event member w
  rcases List.mem_cons.mp member with rfl | registered
  · rfl
  · rw [List.mem_singleton.mp registered]
    cases asked : w.requestOf (.onRead 0 (.message registerRequest fun _ => 0)) with
    | none => rw [launches,asked]
    | some request =>
      obtain ⟨s,_,same⟩ := Option.map_eq_some_iff.mp asked
      cases same
      exact launches_asked asked decoded

theorem click_launches (lone : RestingShip.Lone w) :
    launches w (.onRead 0 (.message RestingShip.clickRequest fun _ => 0)) = 1 := by
  obtain ⟨s,single,own,_⟩ := lone.session
  obtain ⟨c,conns,id,_⟩ := lone.conn
  have held : w.sessionAt c.sessionID = some s := by
    rw [id]
    exact sessionAt_some.mpr (getElem_single single).1
  have asked : w.requestOf (.onRead 0 (.message RestingShip.clickRequest fun _ => 0)) =
      some (s,RestingShip.clickRequest,fun _ => 0) := by
    rw [requestOf,conns]
    show (w.sessionAt c.sessionID).map _ = _
    rw [held]
    rfl
  have decoded : Session.requested RestingShip.clickRequest (fun _ => 0) = some (.clickEvent 400 300) := rfl
  rw [launches_asked asked decoded,own]
  rfl

theorem blast_launches {n : ℕ} {a : Account} (ran : Runs.run (Runs.annotate (World.step .upright) Account.note)
    (World.make .upright .zeros,⟨0,0⟩) (RestingShip.blastEvents n) = .ok (w,a)) : a.launched = 1 := by
  obtain ⟨first,join⟩ := joined .upright .zeros
  obtain ⟨early,joining⟩ := Runs.annotate_run Account.note join.run ⟨0,0⟩
  have none_early := run_unlaunched join_unlaunched joining
  rw [RestingShip.blastEvents,Runs.run_append _ joining] at ran
  obtain ⟨⟨clicked,late⟩,click,ticks⟩ := Runs.bind_ok.mp ran
  have noted : late = early.note first _ clicked := (Runs.annotate_ok.mp click).2
  have none_late : a.launched = late.launched := by
    refine run_unlaunched (fun event member w => ?_) ticks
    rw [List.eq_of_mem_replicate member]
    rfl
  calc a.launched = late.launched := none_late
    _ = early.launched + launches first _ := congrArg Account.launched noted
    _ = 0 + 1 := congrArg₂ (· + ·) none_early (click_launches (RestingShip.joined_lone join).1)

-- One rock, of which the ship has run into six pieces by the end of its last life.
theorem clicked_counted : ∃ n w a, Runs.run (Runs.annotate (World.step .upright) Account.note)
      (World.make .upright .zeros,⟨0,0⟩) (RestingShip.blastEvents n) = .ok (w,a) ∧
    a.launched = 1 ∧ radii w.game = [8] ∧ w.game.destroyed.length = 6 ∧
      w.game.destroyed.length + load pending (radii w.game) = 7 * a.launched ∧
        w.game.gUniverse.rockField.rocks.length ≤ 4 * a.launched := by
  obtain ⟨n,w,ran,stands⟩ := RestingShip.clicked_blasts (fun _ => 0) fun _ => 1
  obtain ⟨a,noted⟩ := Runs.annotate_run Account.note ran ⟨0,0⟩
  obtain ⟨even,most⟩ := rocks_counted whole_upright noted
  have left : radii w.game = [8] := by
    have sizes := congrArg (List.map Rock.radius) stands.pile.rocks
    rw [List.map_map,List.map_map] at sizes
    exact sizes
  have once := blast_launches noted
  have worth : load pending (radii w.game) = 1 := by
    rw [left]
    norm_num [load,pending]
  exact ⟨n,w,a,noted,once,left,by omega,even,most⟩

end Geoff.RockCensus
