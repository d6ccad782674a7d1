import Geoff.DeadPlayer
import Geoff.Interleavings

-- Servers with several browsers: which ticks run, and a game of two players with a rock
-- between them.
namespace Geoff.Company
open Collision Collisions PlayerStore World

variable {A : Arith} {rand : Rand} {w t : World} {m : SessionMap} {conns : List (WebsocketSession AppBuffer)}

-- No session is null, and the connection of each callback still reads or writes.
def Attended (conns : List (WebsocketSession AppBuffer)) (m : SessionMap) : Prop :=
  ∀ (id : UInt32) v, m[id]? = some v → ∃ s, v = some s ∧
    ∀ conn, s.txReadyCallback = some conn → ∃ c, conns[conn]? = some c ∧ c.alive = true

theorem attended_insert (attended : Attended conns m) {id : UInt32} {s s' : Session} (found : m[id]? = some (some s))
    (same : s'.txReadyCallback = s.txReadyCallback) : Attended conns (m.insert id (some s')) := by
  intro other v held
  rw [Std.TreeMap.getElem?_insert] at held
  split at held
  · cases held
    obtain ⟨_,own,alive⟩ := attended id _ found
    cases own
    refine ⟨s',rfl,?_⟩
    rw [same]
    exact alive
  · exact attended other v held

theorem attended_present (attended : Attended conns m) : Messages.Present m.toList := by
  intro pair member null
  obtain ⟨s,own,_⟩ := attended pair.1 pair.2 (Std.TreeMap.mem_toList_iff_getElem?_eq_some.mp member)
  rw [null] at own
  cases own

theorem tickSession_attended (g : Game) (id : UInt32) (attended : Attended conns m) :
    ∃ m', g.tickSession A m id = .ok m' ∧ Attended conns m' := by
  unfold Game.tickSession
  cases found : m[id]? with
  | none => exact ⟨m,rfl,attended⟩
  | some v =>
    obtain ⟨s,rfl,_⟩ := attended id v found
    cases player : s.player with
    | none => exact ⟨m,by simp only [player],attended⟩
    | some address =>
      simp only [player,Messages.universeTick_built g (attended_present attended)]
      exact ⟨_,rfl,attended_insert attended found rfl⟩

theorem onTxReady_attended (attended : Attended w.conns w.gSessions.sessions) {id : UInt32} {s : Session}
    (found : w.gSessions.sessions[id]? = some (some s)) :
    ∃ t, w.onTxReady s = .ok t ∧ Attended t.conns t.gSessions.sessions := by
  obtain ⟨_,own,alive⟩ := attended id _ found
  cases own
  unfold onTxReady
  cases callback : s.txReadyCallback with
  | none => exact ⟨w,rfl,attended⟩
  | some conn =>
    obtain ⟨c,member,living⟩ := alive conn callback
    simp only [member,living,Bool.true_eq_false,if_false]
    refine ⟨_,rfl,fun other v held => ?_⟩
    obtain ⟨s',same,alive'⟩ := attended other v held
    refine ⟨s',same,fun conn' callback' => ?_⟩
    obtain ⟨c',member',living'⟩ := alive' conn' callback'
    by_cases here : conn' = conn
    · subst here
      cases member.symm.trans member'
      exact ⟨_,List.getElem?_set_self (List.getElem?_eq_some_iff.mp member).1,living'⟩
    · exact ⟨c',(List.getElem?_set_ne (Ne.symm here)).trans member',living'⟩

theorem timerRound_attended (id : UInt32) (attended : Attended w.conns w.gSessions.sessions) :
    ∃ t, w.timerRound A id = .ok t ∧ Attended t.conns t.gSessions.sessions := by
  unfold timerRound
  cases found : w.gSessions.sessions[id]? with
  | none => exact ⟨w,rfl,attended⟩
  | some v =>
    obtain ⟨s,rfl,_⟩ := attended id v found
    obtain ⟨s',g,ticked,same⟩ : ∃ s' g, s.tickEvent A w.game = .ok (s',g) ∧ s'.txReadyCallback = s.txReadyCallback := by
      cases player : s.player with
      | none => exact ⟨s,w.game,Messages.sessionTick_unregistered player w.game,rfl⟩
      | some address => exact ⟨_,_,Messages.sessionTick_built player w.game,rfl⟩
    have after : ({w with gSessions := w.gSessions.update id s', game := g} : World).gSessions.sessions[id]? = some (some s') := by
      simp [WebsockSessionManager.update]
    simp only [ticked,Runs.ok_bind]
    exact onTxReady_attended (attended_insert attended found same) after

def Clear (A : Arith) (g : Game) : Prop := ∀ pair ∈ g.gUniverse.players.toList, ∃ address, pair.2 = some address ∧
  ∀ node ∈ g.gUniverse.rockField.rocks, Missed A node (g.memory address).ship

theorem clear_collides {g : Game} (clear : Clear A g) : g.collisionDetection A = .ok g := by
  have round : ∀ v pair, pair ∈ g.gUniverse.players.toList → v = g → ∃ next, playerRound A v pair = .ok next ∧ next = g := by
    rintro v ⟨id,own⟩ member rfl
    obtain ⟨address,rfl,missed⟩ := clear _ member
    exact ⟨v,playerRound_missed id missed,rfl⟩
  obtain ⟨g',collided,same⟩ := Runs.run_succeeds (· = g) round rfl
  rw [same] at collided
  exact collided

theorem tick_runs (attended : Attended w.conns w.gSessions.sessions)
    (clear : Clear A (w.game.moveRocks A w.game.gUniverse.timer.tick)) : ∃ t, w.step A .tick = .ok t := by
  have collided := clear_collides clear
  generalize moved : w.game.moveRocks A w.game.gUniverse.timer.tick = g at collided
  obtain ⟨m,queued,kept⟩ := Runs.run_succeeds (Attended w.conns)
    (fun m id (_ : id ∈ w.gSessions.sessions.keys) attended => tickSession_attended (A := A) g id attended) attended
  have ticked : w.game.tickEvent A w.gSessions.sessions w.game.gUniverse.timer.tick = .ok (g,m) := by
    rw [Game.tickEvent,moved]
    exact Runs.bind_ok.mpr ⟨g,collided,Runs.bind_ok.mpr ⟨m,queued,rfl⟩⟩
  have start : Attended ({w with game := g, gSessions := {w.gSessions with sessions := m}} : World).conns m := kept
  obtain ⟨t,ran,_⟩ := Runs.run_succeeds (fun v : World => Attended v.conns v.gSessions.sessions)
    (fun v id (_ : id ∈ m.keys) attended => timerRound_attended (A := A) id attended) start
  show ∃ t, w.tickEvent A = .ok t
  unfold tickEvent
  split
  · exact ⟨w,rfl⟩
  · rw [ticked]
    exact ⟨t,ran⟩

-- Connection `conn` is reading, and its session, which announced 0xAB, has `player`.
structure Seat (w : World) (conn : Nat) (id : UInt32) (player : Option Nat) : Prop where
  reads : ∃ c, w.conns[conn]? = some c ∧ c.sessionID = id ∧ c.reading = true
  session : ∃ s, w.entry id = some (some s) ∧ s.sessionID = id ∧ s.player = player ∧ s.isLittleEndian = true ∧
    s.txReadyCallback = some conn

structure Elsewhere (conn : Nat) (id : UInt32) (w t : World) : Prop where
  conns : ∀ other, other ≠ conn → t.conns[other]? = w.conns[other]?
  entry : ∀ other, other ≠ id → t.entry other = w.entry other

theorem Seat.elsewhere {conn conn' : Nat} {id id' : UInt32} {player : Option Nat} (seat : Seat w conn id player)
    (other : Elsewhere conn' id' w t) (apart : conn ≠ conn') (distinct : id ≠ id') : Seat t conn id player := by
  obtain ⟨⟨c,member,own,reading⟩,s,found,kept⟩ := seat
  exact ⟨⟨c,(other.conns conn apart).trans member,own,reading⟩,s,(other.entry id distinct).trans found,kept⟩

theorem pop_session (c : WebsocketSession AppBuffer) (s : Session) : (pop c (some (some s))).1.sessionID = c.sessionID ∧
    (pop c (some (some s))).1.reading = c.reading ∧ ∃ s', (pop c (some (some s))).2 = some (some s') ∧
      s'.sessionID = s.sessionID ∧ s'.player = s.player ∧ s'.isLittleEndian = s.isLittleEndian ∧
      s'.txReadyCallback = s.txReadyCallback := by
  obtain ⟨own,same,callback⟩ := sendNext_identity c s.toWebsockSession
  refine ⟨own,WebsocketSession.sendNext_reading _ _,_,rfl,same,rfl,?_,callback⟩
  cases queued : s.txQue with
  | nil => simp only [WebsocketSession.sendNext_empty c queued]
  | cons head rest => simp only [WebsocketSession.sendNext_cons c queued]

theorem answered_callback (s : Session) (g : Game) (bytes : List UInt8) (beyond : Nat → UInt8) :
    (s.answered A g bytes beyond).sessionID = s.sessionID ∧ (s.answered A g bytes beyond).txReadyCallback = s.txReadyCallback ∧
      (s.answered A g bytes beyond).player =
        if Session.asked bytes beyond = some .registerSession then some g.allocated else s.player := by
  unfold Session.answered Session.noted
  split
  · split <;> exact ⟨rfl,rfl,rfl⟩
  · split <;> exact ⟨rfl,rfl,rfl⟩

theorem seat_asks (A : Arith) {conn : Nat} {id : UInt32} {player : Option Nat} (seat : Seat w conn id player)
    (bytes : List UInt8) (beyond : Nat → UInt8) (long : ¬ bytes.length < 2) (little : Session.orderOf bytes = true) :
    ∃ (s : Session) (t : World), s.sessionID = id ∧ s.player = player ∧ w.step A (.onRead conn (.message bytes beyond)) = .ok t ∧
      Seat t conn id (if Session.asked bytes beyond = some .registerSession then some w.game.allocated else player) ∧
      t.game = (s.deed A bytes beyond).apply A w.game ∧ Elsewhere conn id w t ∧ t.conns.length = w.conns.length ∧
      t.gSessions.sessionId = w.gSessions.sessionId := by
  obtain ⟨⟨c,member,own,reading⟩,s,found,same,held,order,callback⟩ := seat
  subst own
  have served : serve A w.game conn c (w.entry c.sessionID) (.onRead conn (.message bytes beyond)) =
      some (pop c (some (some (s.answered A w.game bytes beyond)))) := by
    rw [found,serve,if_pos reading]
    rfl
  obtain ⟨t,one,placed⟩ := placed_step rfl member served
  have inside := (List.getElem?_eq_some_iff.mp member).1
  obtain ⟨ident,reads,s',left,id',player',order',callback'⟩ := pop_session c (s.answered A w.game bytes beyond)
  obtain ⟨answeredId,answeredCallback,answeredPlayer⟩ := answered_callback (A := A) s w.game bytes beyond
  refine ⟨s,t,same,held,one,⟨⟨_,?_,ident,reads.trans reading⟩,s',?_,?_,?_,?_,?_⟩,?_,⟨?_,?_⟩,?_,placed.next⟩
  · rw [placed.conns]
    exact List.getElem?_set_self inside
  · rw [placed.entry,Function.update_self,left]
  · exact (id'.trans answeredId).trans same
  · rw [player',answeredPlayer,held]
  · rw [order',Session.answered_order,if_neg long,little]
  · exact (callback'.trans answeredCallback).trans callback
  · rw [placed.game,found]
    rfl
  · intro other apart
    rw [placed.conns]
    exact List.getElem?_set_ne (Ne.symm apart)
  · intro other apart
    rw [placed.entry,Function.update_of_ne apart]
  · rw [placed.conns,List.length_set]

def joins (conn : Nat) : List Event := [.accept,.onRead conn (.message registerRequest fun _ => 0)]

theorem browser_joins (A : Arith) (w : World) : ∃ t, Runs.run (step A) w (joins w.conns.length) = .ok t ∧
    Seat t w.conns.length w.gSessions.sessionId (some w.game.allocated) ∧
    t.game = w.game.newPlayer A w.gSessions.sessionId 800 600 ∧ Elsewhere w.conns.length w.gSessions.sessionId w t ∧
    t.conns.length = w.conns.length + 1 ∧ t.gSessions.sessionId = w.gSessions.sessionId + 1 := by
  obtain ⟨v,one,accepted⟩ := Interleavings.accept_accepted A w
  have length : v.conns.length = w.conns.length + 1 := by
    rw [accepted.conns,List.length_append]
    rfl
  have seat : Seat v w.conns.length w.gSessions.sessionId none := by
    refine ⟨⟨.accepted w.gSessions.sessionId,?_,rfl,rfl⟩,w.acceptedSession,?_,rfl,rfl,rfl,rfl⟩
    · rw [accepted.conns]
      exact List.getElem?_concat_length
    · rw [accepted.entry,Function.update_self]
  obtain ⟨s,t,own,_,two,seat,game,elsewhere,same,next⟩ := seat_asks A seat registerRequest (fun _ => 0) (by decide) rfl
  refine ⟨t,Runs.bind_ok.mpr ⟨v,one,(Runs.run_single v _).trans two⟩,?_,?_,⟨?_,?_⟩,same.trans length,next.trans accepted.next⟩
  · rw [← accepted.game]
    exact seat
  · rw [game,accepted.game,← own]
    rfl
  · intro other apart
    rw [elsewhere.conns other apart,accepted.conns]
    by_cases old : other < w.conns.length
    · exact List.getElem?_append_left old
    · rw [List.getElem?_eq_none (by rw [List.length_append,List.length_singleton]; omega),List.getElem?_eq_none (by omega)]
  · intro other apart
    rw [elsewhere.entry other apart,accepted.entry,Function.update_of_ne apart]

structure Paired (A : Arith) (rand : Rand) (w : World) : Prop where
  run : Runs.run (step A) (World.make A rand) (joins 0 ++ joins 1) = .ok w
  first : Seat w 0 0 (some 0)
  second : Seat w 1 1 (some 1)
  alone : ∀ id, id ≠ 0 → id ≠ 1 → w.entry id = none
  game : w.game = ((Game.make A rand).newPlayer A 0 800 600).newPlayer A 1 800 600

theorem paired (A : Arith) (rand : Rand) : ∃ w, Paired A rand w := by
  obtain ⟨first,made,sessions,conns,game⟩ : ∃ first, World.make A rand = first ∧ first.gSessions = .make ∧
      first.conns = [] ∧ first.game = Game.make A rand := ⟨_,rfl,rfl,rfl,make_game A rand⟩
  have none_yet : first.conns.length = 0 := by rw [conns]; rfl
  have zero : first.gSessions.sessionId = 0 := by rw [sessions]; rfl
  have free : first.game.allocated = 0 := by rw [game]; exact (Game.make_fresh A rand).allocated
  obtain ⟨v,one,seat,joined,elsewhere,length,next⟩ := browser_joins A first
  rw [none_yet,zero,free] at seat
  rw [none_yet] at one length
  rw [zero] at joined next
  obtain ⟨w,two,seat',joined',elsewhere',_,_⟩ := browser_joins A v
  have more : v.game.allocated = 1 := by rw [joined,Game.newPlayer,free]
  rw [length,next] at elsewhere'
  rw [length,next,more] at seat'
  rw [length] at two
  rw [next] at joined'
  refine ⟨w,?_,seat.elsewhere elsewhere' (by decide) (by decide),seat',?_,?_⟩
  · rw [made,Runs.run_append _ one]
    exact two
  · intro id other another
    rw [elsewhere'.entry id another,elsewhere.entry id (by rw [zero]; exact other),entry,sessions]
    rfl
  · rw [joined',joined,game]
    rfl

theorem Paired.fresh (pair : Paired A rand w) : w.game.allocated = 2 ∧ w.game.gUniverse.rockField.rocks = [] ∧
    ∀ address < 2, w.game.memory address = Player.make A (Game.make A rand).gUniverse.toSize 800 600 := by
  have fresh := Game.make_fresh A rand
  have start := pair.game
  generalize Game.make A rand = g at fresh start
  rw [start]
  refine ⟨?_,fresh.rocks,fun address few => ?_⟩
  · show g.allocated + 1 + 1 = 2
    rw [fresh.allocated]
  · by_cases last : address = (g.newPlayer A 0 800 600).allocated
    · rw [last]
      exact Game.newPlayer_memory A (g.newPlayer A 0 800 600) 1 800 600
    · have first : address = g.allocated := by
        have next : (g.newPlayer A 0 800 600).allocated = g.allocated + 1 := rfl
        rw [next,fresh.allocated] at last
        rw [fresh.allocated]
        omega
      rw [Game.newPlayer_other A last,first]
      exact Game.newPlayer_memory A g 0 800 600

def turnRequest : List UInt8 := [0xAB,0x04,1,37]

-- The first player turns, and launches a rock at the middle of its window.
def playEvents : List Event := joins 0 ++ joins 1 ++
  [.onRead 0 (.message turnRequest fun _ => 0),.onRead 0 (.message RestingShip.clickRequest fun _ => 0)]

structure Played (A : Arith) (rand : Rand) (w : World) : Prop where
  run : Runs.run (step A) (World.make A rand) playEvents = .ok w
  first : Seat w 0 0 (some 0)
  second : Seat w 1 1 (some 1)
  alone : ∀ id, id ≠ 0 → id ≠ 1 → w.entry id = none
  allocated : w.game.allocated = 2
  turned : ∃ p : Player, w.game.memory 0 = p.keyEvent A 37 true
  ships : ∀ address < 2, (w.game.memory address).ship.gun.bullets = [] ∧ (w.game.memory address).ship.invulnerable = true
  rock : ∃ node, w.game.gUniverse.rockField.rocks = [node]

theorem turned_fresh {p : Player} (bullets : p.ship.gun.bullets = []) (safe : p.ship.invulnerable = true)
    (alive : p.ship.dead = false) : (p.keyEvent A 37 true).ship.gun.bullets = [] ∧
      (p.keyEvent A 37 true).ship.invulnerable = true := by
  have ship : (p.keyEvent A 37 true).ship = {p.ship with left := true} := by
    have keyed : p.ship.keyEvent A 37 true = {p.ship with left := true} := if_pos (.inr rfl)
    unfold Player.keyEvent
    simp only [keyed,alive,Bool.false_eq_true,if_false]
    split <;> rfl
  rw [ship]
  exact ⟨bullets,safe⟩

theorem played (A : Arith) (rand : Rand) : ∃ w, Played A rand w := by
  obtain ⟨v,pair⟩ := paired A rand
  obtain ⟨allocated,empty,new⟩ := pair.fresh
  obtain ⟨s,middle,own,player,turning,seat,turned,elsewhere,_,_⟩ :=
    seat_asks A pair.first turnRequest (fun _ => 0) (by decide) rfl
  have seat : Seat middle 0 0 (some 0) := seat
  obtain ⟨s',w,own',player',clicking,seat',clicked,elsewhere',_,_⟩ :=
    seat_asks A seat RestingShip.clickRequest (fun _ => 0) (by decide) rfl
  have second := pair.second.elsewhere elsewhere (by decide) (by decide)
  have steered : middle.game = v.game.setPlayer 0 ((v.game.memory 0).keyEvent A 37 true) := by
    rw [turned]
    simp only [Session.deed,player]
    rfl
  have launched : w.game = middle.game.launchRock A ((middle.game.memory 0).clickPoint 400 300) := by
    rw [clicked]
    simp only [Session.deed,player']
    rfl
  have memory : w.game.memory = Function.update v.game.memory 0 ((v.game.memory 0).keyEvent A 37 true) := by
    rw [launched,steered]
    rfl
  refine ⟨w,?_,seat',second.elsewhere elsewhere' (by decide) (by decide),?_,?_,⟨v.game.memory 0,?_⟩,?_,?_⟩
  · rw [playEvents,Runs.run_append _ pair.run,Runs.run_cons,turning,Runs.ok_bind,Runs.run_single]
    exact clicking
  · intro id other another
    rw [elsewhere'.entry id other,elsewhere.entry id other]
    exact pair.alone id other another
  · rw [launched,steered]
    exact allocated
  · rw [memory,Function.update_self]
  · intro address few
    rw [memory]
    by_cases here : address = 0
    · rw [here,Function.update_self,new 0 (by decide)]
      exact turned_fresh rfl rfl rfl
    · rw [Function.update_of_ne here,new address few]
      exact ⟨rfl,rfl⟩
  · rw [launched,steered]
    show ∃ node, v.game.gUniverse.rockField.rocks ++ [_] = [node]
    rw [empty]
    exact ⟨_,rfl⟩

theorem played_attended (played : Played A rand w) : Attended w.conns w.gSessions.sessions := by
  have sits : ∀ {conn : Nat} {id : UInt32} {player : Option Nat} {v : Option Session}, Seat w conn id player →
      w.entry id = some v → ∃ s, v = some s ∧
        ∀ conn, s.txReadyCallback = some conn → ∃ c, w.conns[conn]? = some c ∧ c.alive = true := by
    rintro conn id player v ⟨⟨c,member,_,reading⟩,s,found,_,_,_,callback⟩ held
    cases found.symm.trans held
    refine ⟨s,rfl,fun conn' called => ?_⟩
    cases callback.symm.trans called
    exact ⟨c,member,by rw [WebsocketSession.alive,reading]; rfl⟩
  intro id v held
  by_cases first : id = 0
  · subst first
    exact sits played.first held
  · by_cases second : id = 1
    · subst second
      exact sits played.second held
    · cases (played.alone id first second).symm.trans held

theorem played_few (played : Played A rand w) : w.gSessions.sessions.size ≤ 2 := by
  have keys : w.gSessions.sessions.keys ⊆ [0,1] := by
    intro id member
    by_contra other
    rw [List.mem_cons,List.mem_singleton,not_or] at other
    have none_held : w.gSessions.sessions[id]? = none := played.alone id other.1 other.2
    have held := Std.TreeMap.isSome_getElem?_iff_mem.mpr (Std.TreeMap.mem_keys.mp member)
    rw [none_held] at held
    cases held
  rw [← Std.TreeMap.length_keys]
  exact (List.subperm_of_subset Std.TreeMap.nodup_keys keys).length_le

-- Both ships are still shielded, and neither has shot.
theorem played_clear (played : Played A rand w) (tickCount : UInt32) : Clear A (w.game.moveRocks A tickCount) := by
  have book := (DeadPlayer.book_run played.run).2
  intro pair member
  obtain ⟨address,own,old⟩ := book.issued pair.1 pair.2 (Std.TreeMap.mem_toList_iff_getElem?_eq_some.mp member)
  rw [played.allocated] at old
  obtain ⟨bullets,safe⟩ := played.ships address old
  refine ⟨address,own,fun node _ => ⟨fun b shot => ?_,?_⟩⟩
  · rw [show (w.game.moveRocks A tickCount).memory = w.game.memory from rfl,bullets] at shot
    cases shot
  · show shipHit A node.rock (w.game.memory address).ship = false
    simp [shipHit,safe]

theorem played_ticks (played : Played A rand w) : ∃ t, w.step A .tick = .ok t :=
  tick_runs (played_attended played) (played_clear played _)

end Geoff.Company
