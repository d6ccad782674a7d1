import Geoff.RestingShip

-- What a dead player still takes part in: its flag is tested by the ticks of the
-- player, but not by the collision detection.
namespace Geoff.DeadPlayer
open World Collision Collisions PlayerStore RestingShip

variable {A : Arith} {w t : World}

-- The book of player objects: each key has its own, and a session that points to one
-- points to that of its own id.
structure Book (w : World) : Prop where
  issued : ∀ (id : UInt32) v, (players w)[id]? = some v → ∃ address, v = some address ∧ address < w.game.allocated
  distinct : ∀ (id other : UInt32) address, (players w)[id]? = some (some address) →
    (players w)[other]? = some (some address) → id = other
  own : ∀ (id : UInt32) address, w.playerOf id = some address → (players w)[id]? = some (some address)

theorem book_make (A : Arith) (rand : Rand) : Book (World.make A rand) := by
  have empty := players_make A rand
  constructor
  · intro id v found; rw [empty] at found; simp at found
  · intro id other address found; rw [empty] at found; simp at found
  · intro id address held
    simp [World.playerOf,Geoff.playerOf,World.make,WebsockSessionManager.make] at held

theorem book_same (book : Book w) (same : players t = players w) (allocated : t.game.allocated = w.game.allocated)
    (held : ∀ id address, t.playerOf id = some address → w.playerOf id = some address) : Book t := by
  constructor
  · intro id v found
    rw [same] at found
    rw [allocated]
    exact book.issued id v found
  · intro id other address
    rw [same]
    exact book.distinct id other address
  · intro id address here
    rw [same]
    exact book.own id address (held id address here)

theorem book_registered {id : UInt32} (book : Book w) (inserted : players t = (players w).insert id (some w.game.allocated))
    (allocated : t.game.allocated = w.game.allocated + 1)
    (held : t.playerOf = Function.update w.playerOf id (some w.game.allocated)) : Book t := by
  have lookup : ∀ other : UInt32, (players t)[other]? =
      if id = other then some (some w.game.allocated) else (players w)[other]? := by
    intro other
    rw [inserted,Std.TreeMap.getElem?_insert]
    simp
  have fresh : ∀ other : UInt32, (players w)[other]? ≠ some (some w.game.allocated) := by
    intro other found
    obtain ⟨address,same,bound⟩ := book.issued other _ found
    cases same
    omega
  constructor
  · intro other v found
    rw [lookup] at found
    split at found
    · cases found; exact ⟨_,rfl,by omega⟩
    · obtain ⟨address,same,bound⟩ := book.issued other v found
      exact ⟨address,same,by omega⟩
  · intro one other address first second
    rw [lookup] at first second
    split at first
    · rename_i here
      cases first
      split at second
      · rename_i there; exact here.symm.trans there
      · exact absurd second (fresh other)
    · split at second
      · cases second; exact absurd first (fresh one)
      · exact book.distinct one other address first second
  · intro other address here
    rw [held] at here
    rw [lookup]
    by_cases same : id = other
    · subst same
      rw [Function.update_self] at here
      rw [if_pos rfl,← here]
    · rw [Function.update_of_ne (Ne.symm same)] at here
      rw [if_neg same]
      exact book.own other address here

theorem book_step {event : Event} (owned : w.Owned) (book : Book w) (ran : w.step A event = .ok t) : Book t := by
  cases step_turn ran with
  | quiet other game held => exact book_same book (by rw [players,game]; rfl) (by rw [game]) held
  | tick ticked =>
    rcases tickEvent_game ticked with ⟨_,rfl⟩ | ⟨_,g,m,universe_tick,moved,same⟩
    · exact book
    · have rounds := gameTick_rounds universe_tick
      exact book_same book (moved.players.trans rounds.players) (moved.allocated.trans rounds.allocated)
        fun id address here => by rwa [same] at here
  | @request conn bytes beyond _ c s player member found effect held =>
    have own := session_id owned found
    rcases effect_players effect with ⟨kept,same,allocated⟩ | ⟨new,inserted,allocated⟩
    · have here : w.playerOf c.sessionID = s.player := playerOf_found found
      rw [kept,← here,Function.update_eq_self] at held
      exact book_same book same allocated fun id address here => by rwa [held] at here
    · exact book_registered book inserted allocated (by rw [held,new,own])

theorem book_run {rand : Rand} {events : List Event} (ran : Runs.run (step A) (World.make A rand) events = .ok w) :
    w.Owned ∧ Book w :=
  Runs.run_invariant (fun w => w.Owned ∧ Book w)
    (fun _ _ _ kept one => ⟨owned_step kept.1 one,book_step kept.1 kept.2 one⟩) ⟨owned_make A rand,book_make A rand⟩ ran

def charges (id : UInt32) (g : Game) : List (UInt32 × Nat) := g.destroyed.filter (fun entry => entry.1 = id)

theorem rounds_apart {pairs : List (UInt32 × Option Nat)} {g g' : Game} {id : UInt32} {address : Nat}
    (rounds : Rounds pairs g g') (apart : ∀ pair ∈ pairs, pair.1 ≠ id ∧ pair.2 ≠ some address) :
    g'.memory address = g.memory address ∧ charges id g' = charges id g := by
  refine ⟨rounds.others address fun pair member => (apart pair member).2,?_⟩
  obtain ⟨log,same,own⟩ := rounds.charged
  have nothing : log.filter (fun entry => entry.1 = id) = [] := by
    rw [List.filter_eq_nil_iff]
    intro entry member
    obtain ⟨pair,present,key⟩ := List.mem_map.mp (own entry member)
    have other := (apart pair present).1
    rw [key] at other
    simpa using other
  rw [charges,same,List.filter_append,nothing,List.append_nil,charges]

theorem players_split {id : UInt32} {address : Nat} (book : Book w) (known : (players w)[id]? = some (some address)) :
    (∃ before after, (players w).toList = before ++ (id,some address) :: after) ∧
    ∀ before after, (players w).toList = before ++ (id,some address) :: after →
      ∀ pair ∈ before ++ after, pair.1 ≠ id ∧ pair.2 ≠ some address := by
  refine ⟨List.append_of_mem (Std.TreeMap.mem_toList_iff_getElem?_eq_some.mpr known),fun before after split => ?_⟩
  have distinct : ((players w).toList.map Prod.fst).Nodup := by
    rw [Std.TreeMap.map_fst_toList_eq_keys]
    exact Std.TreeMap.nodup_keys
  intro pair member
  have key : pair.1 ≠ id := by
    rw [split,List.map_append,List.map_cons,List.nodup_middle,List.nodup_cons,← List.map_append] at distinct
    exact fun same => distinct.1 (List.mem_map.mpr ⟨pair,member,same⟩)
  refine ⟨key,fun same => key ?_⟩
  have inside : (pair.1,some address) ∈ (players w).toList := by
    rw [← same,split]
    simp only [List.mem_append,List.mem_cons] at member ⊢
    exact member.imp_right .inr
  exact book.distinct pair.1 id address (Std.TreeMap.mem_toList_iff_getElem?_eq_some.mp inside) known

theorem collisions_exact {g g' : Game} {id : UInt32} {address : Nat} {before after : List (UInt32 × Option Nat)}
    (apart : ∀ pair ∈ before ++ after, pair.1 ≠ id ∧ pair.2 ≠ some address)
    (ran : (before ++ (id,some address) :: after).foldlM (playerRound A) g = .ok g') :
    ∃ next, before.foldlM (playerRound A) g = .ok next ∧
      (g'.memory address).ship.dead = (g.memory address).ship.dead ∧
      ((∀ node ∈ next.gUniverse.rockField.rocks, Missed A node (next.memory address).ship) →
        g'.memory address = g.memory address ∧ charges id g' = charges id g) ∧
      (charges id g' = charges id g →
        ∀ node ∈ next.gUniverse.rockField.rocks, Missed A node (next.memory address).ship) := by
  rw [List.foldlM_append] at ran
  obtain ⟨next,first,ran⟩ := Runs.bind_ok.mp ran
  rw [List.foldlM_cons] at ran
  obtain ⟨middle,own,last⟩ := Runs.bind_ok.mp ran
  obtain ⟨memory1,charges1⟩ := rounds_apart (rounds_run first) fun pair member => apart pair (by simp [member])
  obtain ⟨memory2,charges2⟩ := rounds_apart (rounds_run last) fun pair member => apart pair (by simp [member])
  obtain ⟨log,dead⟩ := playerRound_log own
  have charged : charges id middle = charges id next ++
      (hits A next.gUniverse.rockField.rocks (next.memory address).ship).map (fun iter => (id,iter)) := by
    rw [charges,log,List.filter_append,charges]
    congr 1
    exact List.filter_eq_self.mpr fun entry member => by
      obtain ⟨iter,_,rfl⟩ := List.mem_map.mp member
      simp
  refine ⟨next,first,by rw [memory2,dead,memory1],fun missed => ?_,fun same => ?_⟩
  · cases own.symm.trans (playerRound_missed id missed)
    exact ⟨memory2.trans memory1,charges2.trans charges1⟩
  · rw [charges2,charged,charges1] at same
    exact (hits_nil A).mp (List.map_eq_nil_iff.mp (List.append_right_eq_self.mp same))

structure Inert (id : UInt32) (address : Nat) (w t : World) : Prop where
  score : (t.game.memory address).score = (w.game.memory address).score
  lives : (t.game.memory address).ship.livesLeft = (w.game.memory address).ship.livesLeft
  exploding : (t.game.memory address).ship.exploding = (w.game.memory address).ship.exploding
  charges : charges id t.game = charges id w.game

theorem Inert.refl (id : UInt32) (address : Nat) (w : World) : Inert id address w w := ⟨rfl,rfl,rfl,rfl⟩

theorem inert_since {id : UInt32} {address : Nat} {first : World} (inert : Inert id address first w) :
    Inert id address first t ↔ Inert id address w t := by
  constructor
  · intro later
    exact ⟨later.score.trans inert.score.symm,later.lives.trans inert.lives.symm,
      later.exploding.trans inert.exploding.symm,later.charges.trans inert.charges.symm⟩
  · intro later
    exact ⟨later.score.trans inert.score,later.lives.trans inert.lives,later.exploding.trans inert.exploding,
      later.charges.trans inert.charges⟩

def Silent (id : UInt32) (w : World) (event : Event) : Prop :=
  ∀ conn bytes beyond c, event = .onRead conn (.message bytes beyond) → w.conns[conn]? = some c → c.sessionID = id →
    Session.asked bytes beyond ≠ some .registerSession ∧
      (Session.asked bytes beyond = some .keyEvent → Session.keyDown bytes beyond = false)

def Unstruck (A : Arith) (id : UInt32) (address : Nat) (w : World) (event : Event) : Prop :=
  event = .tick → w.game.gUniverse.timer.runTimer = true →
    ∀ before after next, (players w).toList = before ++ (id,some address) :: after →
      before.foldlM (playerRound A) (w.game.moveRocks A w.game.gUniverse.timer.tick) = .ok next →
      ∀ node ∈ next.gUniverse.rockField.rocks, Missed A node (next.memory address).ship

structure Dead (id : UInt32) (address : Nat) (w : World) : Prop where
  owned : w.Owned
  book : Book w
  known : (players w)[id]? = some (some address)
  dead : (w.game.memory address).ship.dead = true

def SameLife (p p' : Player) : Prop :=
  p'.score = p.score ∧ p'.ship.livesLeft = p.ship.livesLeft ∧ p'.ship.exploding = p.ship.exploding ∧
    p'.ship.dead = p.ship.dead

theorem inert_life {id : UInt32} {address : Nat} (same : SameLife (w.game.memory address) (t.game.memory address))
    (destroyed : t.game.destroyed = w.game.destroyed) : Inert id address w t :=
  ⟨same.1,same.2.1,same.2.2.1,by rw [charges,charges,destroyed]⟩

theorem keyUp_life (A : Arith) (p : Player) (code : Nat) : SameLife p (p.keyEvent A code false) := by
  simp only [Player.keyEvent,Bool.false_eq_true,false_and,if_false]
  rcases p.ship.keyEvent_cases A code false with ⟨_,_,_,same⟩ | ⟨down,_⟩
  · rw [same]
    exact ⟨rfl,rfl,rfl,rfl⟩
  · cases down

theorem setPlayer_life {g : Game} {address other : Nat} {p : Player}
    (kept : other = address → SameLife (g.memory address) p) :
    SameLife (g.memory address) ((g.setPlayer other p).memory address) := by
  by_cases same : address = other
  · subst same
    rw [Game.setPlayer_self]
    exact kept rfl
  · rw [Game.setPlayer_other same]
    exact ⟨rfl,rfl,rfl,rfl⟩

theorem request_life {id : UInt32} {address : Nat} {conn : Nat} {bytes : List UInt8} {beyond : Nat → UInt8}
    {c : WebsocketSession AppBuffer} {s : Session} {player : Option Nat} {g : Game} (dead : Dead id address w)
    (silent : Silent id w (.onRead conn (.message bytes beyond))) (member : w.conns[conn]? = some c)
    (found : w.gSessions.sessions[c.sessionID]? = some (some s))
    (effect : Effect A s w.game (Session.asked bytes beyond) (Session.keyDown bytes beyond) player g) :
    SameLife (w.game.memory address) (g.memory address) ∧ g.destroyed = w.game.destroyed ∧
      g.gUniverse.players[id]? = some (some address) := by
  have quiet := silent conn bytes beyond c rfl member
  have mine : s.player = some address → c.sessionID = id := by
    intro player
    exact dead.book.distinct c.sessionID id address (dead.book.own _ _ ((playerOf_found found).trans player)) dead.known
  cases effect with
  | idle => exact ⟨⟨rfl,rfl,rfl,rfl⟩,rfl,dead.known⟩
  | register type w' h =>
    obtain ⟨_,same,bound⟩ := dead.book.issued id _ dead.known
    cases same
    have old : (w.game.newPlayer A s.sessionID w' h).memory address = w.game.memory address :=
      Function.update_of_ne (by omega) _ _
    have key : s.sessionID ≠ id := by
      rw [session_id dead.owned found]
      exact fun same => (quiet same).1 type
    refine ⟨by rw [old]; exact ⟨rfl,rfl,rfl,rfl⟩,rfl,?_⟩
    rw [Game.newPlayer,Std.TreeMap.getElem?_insert,if_neg (by simpa using key)]
    exact dead.known
  | key type held code =>
    refine ⟨setPlayer_life fun same => ?_,rfl,dead.known⟩
    subst same
    rw [(quiet (mine held)).2 type]
    exact keyUp_life A _ code
  | click p => exact ⟨⟨rfl,rfl,rfl,rfl⟩,rfl,dead.known⟩
  | resize held w' h =>
    refine ⟨setPlayer_life fun same => ?_,rfl,dead.known⟩
    subst same
    exact ⟨rfl,rfl,rfl,rfl⟩

theorem dead_step {event : Event} {id : UInt32} {address : Nat} (dead : Dead id address w)
    (silent : Silent id w event) (ran : w.step A event = .ok t) : Dead id address t := by
  have owned := owned_step dead.owned ran
  have book := book_step dead.owned dead.book ran
  cases step_turn ran with
  | quiet other game held =>
    exact ⟨owned,book,by rw [players,game]; exact dead.known,by rw [game]; exact dead.dead⟩
  | request member found effect held =>
    obtain ⟨life,_,known⟩ := request_life dead silent member found effect
    exact ⟨owned,book,known,life.2.2.2.trans dead.dead⟩
  | tick ticked =>
    rcases tickEvent_game ticked with ⟨_,rfl⟩ | ⟨_,g,m,universe_tick,moved,_⟩
    · exact dead
    · have collided := gameTick_ok universe_tick
      obtain ⟨⟨before,after,split⟩,apart⟩ := players_split dead.book dead.known
      rw [Game.collisionDetection,show (w.game.moveRocks A _).gUniverse.players.toList = _ from split] at collided
      obtain ⟨_,_,alive,_⟩ := collisions_exact (apart before after split) collided
      have still : (g.memory address).ship.dead = true := alive.trans dead.dead
      refine ⟨owned,book,?_,by rw [moved.dead address still]; exact still⟩
      rw [players,moved.players.trans (gameTick_rounds universe_tick).players]
      exact dead.known

theorem inert_step {event : Event} {id : UInt32} {address : Nat} (dead : Dead id address w)
    (silent : Silent id w event) (ran : w.step A event = .ok t) :
    Inert id address w t ↔ Unstruck A id address w event := by
  cases step_turn ran with
  | quiet other game held =>
    exact ⟨fun _ tick => absurd tick other,fun _ => inert_life (by rw [game]; exact ⟨rfl,rfl,rfl,rfl⟩) (by rw [game])⟩
  | request member found effect held =>
    obtain ⟨life,destroyed,_⟩ := request_life dead silent member found effect
    exact ⟨fun _ tick => (by cases tick),fun _ => inert_life life destroyed⟩
  | tick ticked =>
    rcases tickEvent_game ticked with ⟨stopped,rfl⟩ | ⟨running,g,m,universe_tick,moved,_⟩
    · exact ⟨fun _ _ running => absurd running (by rw [stopped]; simp),fun _ => .refl id address _⟩
    · have collided := gameTick_ok universe_tick
      obtain ⟨⟨before,after,split⟩,apart⟩ := players_split dead.book dead.known
      have charged : charges id t.game = charges id g := by rw [charges,moved.destroyed,charges]
      constructor
      · intro inert _ _ before after next split first
        rw [Game.collisionDetection,show (w.game.moveRocks A _).gUniverse.players.toList = _ from split] at collided
        obtain ⟨_,again,_,_,exact_⟩ := collisions_exact (apart before after split) collided
        cases first.symm.trans again
        exact exact_ (charged.symm.trans inert.charges)
      · intro unstruck
        rw [Game.collisionDetection,show (w.game.moveRocks A _).gUniverse.players.toList = _ from split] at collided
        obtain ⟨next,first,alive,kept,_⟩ := collisions_exact (apart before after split) collided
        obtain ⟨memory,same⟩ := kept (unstruck rfl running before after next split first)
        have memory : g.memory address = w.game.memory address := memory
        have ship := moved.dead address (alive.trans dead.dead)
        refine ⟨?_,?_,?_,charged.trans same⟩
        · rw [moved.score,memory]
        · rw [ship,memory]
        · rw [ship,memory]

theorem dead_reachable {rand : Rand} {history : List Event}
    (ran : Runs.run (World.step A) (World.make A rand) history = .ok w) {id : UInt32} {address : Nat}
    (known : (players w)[id]? = some (some address)) (dead : (w.game.memory address).ship.dead = true) :
    Dead id address w := by
  obtain ⟨owned,book⟩ := book_run ran
  exact ⟨owned,book,known,dead⟩

-- From a reachable state with a dead player, a run that is silent for it keeps the
-- player inert exactly when no tick of the run strikes it.
theorem dead_inert_iff {rand : Rand} {history : List Event} (ran : Runs.run (World.step A) (World.make A rand) history = .ok w)
    {id : UInt32} {address : Nat} (known : (players w)[id]? = some (some address))
    (dead : (w.game.memory address).ship.dead = true) {events : List Event}
    (silent : Runs.Steps (World.step A) (Silent id) w events) :
    Runs.Always (World.step A) (Inert id address w) w events ↔
      Runs.Steps (World.step A) (Unstruck A id address) w events := by
  refine Runs.always_iff_steps_among (Dead id address) (Silent id)
    (fun _ _ _ dead silent one => dead_step dead silent one) (fun _ _ _ dead silent inert one => ?_)
    (dead_reachable ran known dead) (.refl id address w) silent
  rw [inert_since inert]
  exact inert_step dead silent one

theorem tick_silent (id : UInt32) (w : World) : Silent id w .tick := by
  intro conn bytes beyond c request
  cases request

theorem tick_steps (A : Arith) (id : UInt32) (w : World) : Runs.Steps (World.step A) (Silent id) w [.tick] := by
  cases one : w.step A .tick with
  | error fault => simp [Runs.Steps,one]
  | ok t => exact (Runs.steps_cons one).mpr ⟨tick_silent id w,trivial⟩

theorem over_known {radii : List ℚ} (stands : Stands Over radii w) :
    (players w)[(0 : UInt32)]? = some (some 0) ∧ (w.game.memory 0).ship.dead = true :=
  ⟨(getElem_single stands.lone.players).1,stands.ship.dead⟩

theorem over_inert_iff : ∃ history w, Runs.run (World.step .upright) (World.make .upright .zeros) history = .ok w ∧
    (Runs.Always (World.step .upright) (Inert 0 0 w) w [.tick] ↔
      Runs.Steps (World.step .upright) (Unstruck .upright 0 0) w [.tick]) := by
  obtain ⟨history,w,ran,stands⟩ := dead_reached (fun _ => 0) (fun _ => 1)
  obtain ⟨known,dead⟩ := over_known stands
  exact ⟨history,w,ran,dead_inert_iff ran known dead (tick_steps .upright 0 w)⟩

-- The dead ship lies below the last rock of the pile, and the next tick takes this
-- rock for its collision.
theorem dead_ship_hits_rock : ∃ history w, Runs.run (World.step .upright) (World.make .upright .zeros) history = .ok w ∧
    (players w)[(0 : UInt32)]? = some (some 0) ∧ (w.game.memory 0).ship.dead = true ∧
    Runs.Steps (World.step .upright) (Silent 0) w [.tick] ∧
    ¬ Runs.Always (World.step .upright) (Inert 0 0 w) w [.tick] := by
  obtain ⟨history,w,ran,stands⟩ := dead_reached (fun _ => 0) (fun _ => 1)
  obtain ⟨known,dead⟩ := over_known stands
  refine ⟨history,w,ran,known,dead,tick_steps .upright 0 w,fun always => ?_⟩
  have pile := pile_moves (fun _ => 0) (fun _ => 1) stands.pile w.game.gUniverse.timer.tick
  obtain ⟨g,round,_,_,timer,kept⟩ := round_strikes _ _ (by norm_num) pile 0 stands.ship
  obtain ⟨t,ticked,_,_⟩ := lone_ticks stands.lone round timer kept
  have inert := ((Runs.always_cons ticked).mp always).2
  have unstruck := (inert_step (dead_reachable ran known dead) (tick_silent 0 w) ticked).mp inert
  obtain ⟨node,nodes,rocks,head,_⟩ := List.map_eq_cons_iff.mp pile.rocks
  have missed := unstruck rfl stands.lone.running [] [] _ stands.lone.players rfl node
    (by rw [rocks]; exact List.mem_cons_self)
  have hit := shipHit_open (fun _ => 0) (fun _ => 1) (by norm_num) head
    (show Rests 0 false true false _ from stands.ship)
  exact absurd (hit.symm.trans missed.2) (by simp)

end Geoff.DeadPlayer
