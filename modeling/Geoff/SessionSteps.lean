import Geoff.PlayerStore

-- What one step of the server does to a session: where each session of the store
-- comes from, and what its handlers append to its queue.
namespace Geoff

variable {A : Arith}

def Universe.fixed (v : Universe) : Size × Timer × UInt32 × List Position := (v.toSize,v.timer,v.ticks,v.stars)

namespace Session

-- The byte order a header byte stands for; the session keeps that of the last
-- message which was not too short.
def orderOf (bytes : List UInt8) : Bool := decide (bytes.head? = some 0xAB)

def noted (s : Session) (bytes : List UInt8) : Session :=
  if bytes.length < 2 then s else s.setLittleEndian (orderOf bytes)

def registeredBuffer (A : Arith) (s : Session) (g : Game) (le : Bool) : AppBuffer :=
  .filled le (Messages.sessionRegistered A le g.gUniverse.stars s.sessionID) 0

def answered (A : Arith) (s : Session) (g : Game) (bytes : List UInt8) (beyond : Nat → UInt8) : Session :=
  if asked bytes beyond = some .registerSession then
    ({s.noted bytes with player := some g.allocated} : Session).commit (s.registeredBuffer A g (orderOf bytes))
  else s.noted bytes

def withQueue (s : Session) (queue : List AppBuffer) : Session :=
  {s with toWebsockSession := {s.toWebsockSession with txQue := queue}}

@[simp] theorem withQueue_player (s : Session) (queue : List AppBuffer) : (s.withQueue queue).player = s.player := rfl
@[simp] theorem withQueue_order (s : Session) (queue : List AppBuffer) :
    (s.withQueue queue).isLittleEndian = s.isLittleEndian := rfl

theorem handle_answered {s : Session} {g : Game} {kind : RequestType} {rx : Rx} (other : kind ≠ .registerSession) :
    ∃ game, (s.handle A g kind rx).1 = .ok (s,game) := by
  cases kind with
  | registerSession => exact absurd rfl other
  | clickEvent =>
    simp only [handle,handleClickEvent_run]
    split <;> exact ⟨_,rfl⟩
  | keyEvent =>
    simp only [handle,handleKeyEvent_run]
    split <;> exact ⟨_,rfl⟩
  | resizeEvent =>
    simp only [handle,handleResizeEvent_run]
    split <;> exact ⟨_,rfl⟩

theorem commsHandler_answered (A : Arith) (s : Session) (g : Game) (bytes : List UInt8) (beyond : Nat → UInt8) :
    ∃ game, (s.commsHandler A g bytes beyond).1 = .ok (s.answered A g bytes beyond,game) := by
  unfold commsHandler answered asked noted
  by_cases short : bytes.length < 2
  · simp only [short,if_true]
    exact ⟨g,rfl⟩
  · simp only [short,if_false]
    cases type : RequestType.ofUInt8 ((rxBuffer bytes beyond).uint8 0) with
    | none =>
      rw [dispatch_unknown A type]
      exact ⟨g,rfl⟩
    | some kind =>
      rw [dispatch_known A type]
      by_cases register : kind = .registerSession
      · subst register
        rw [if_pos rfl]
        exact ⟨_,Messages.register_built A _ (s.setLittleEndian _) g _ _⟩
      · rw [if_neg (by simpa using register)]
        exact handle_answered register

theorem answered_player (A : Arith) (s : Session) (g : Game) (bytes : List UInt8) (beyond : Nat → UInt8) :
    (s.answered A g bytes beyond).player ≠ none ↔
      s.player ≠ none ∨ Session.asked bytes beyond = some .registerSession := by
  rw [Session.answered]
  split
  · rename_i register
    simp [Session.commit,register]
  · rename_i other
    rw [Session.noted]
    split <;> simp [other,Session.setLittleEndian]

theorem answered_order (A : Arith) (s : Session) (g : Game) (bytes : List UInt8) (beyond : Nat → UInt8) :
    (s.answered A g bytes beyond).isLittleEndian =
      if bytes.length < 2 then s.isLittleEndian else Session.orderOf bytes := by
  have noted : (s.noted bytes).isLittleEndian = if bytes.length < 2 then s.isLittleEndian else Session.orderOf bytes := by
    rw [Session.noted]
    split <;> rfl
  rw [Session.answered,← noted]
  split <;> rfl

end Session

theorem scoreRock_fixed {id : UInt32} {address : Nat} {g g' : Game} {rockIt : Nat}
    (ran : Collision.scoreRock A id address g rockIt = .ok g') : g'.gUniverse.fixed = g.gUniverse.fixed := by
  unfold Collision.scoreRock at ran
  split at ran
  · cases ran
  · obtain ⟨⟨field,rand⟩,_,result⟩ := Runs.bind_ok.mp ran
    cases result
    rfl

theorem playerRound_fixed {g g' : Game} {pair : UInt32 × Option Nat} (ran : Collision.playerRound A g pair = .ok g') :
    g'.gUniverse.fixed = g.gUniverse.fixed := by
  obtain ⟨id,_ | address⟩ := pair
  · rw [playerRound_null ran]
  · have rounds := Runs.run_relates (r := fun (g g' : Game) => g'.gUniverse.fixed = g.gUniverse.fixed) (fun _ => rfl)
      (fun _ _ _ first second => second.trans first) (fun _ _ _ _ one => scoreRock_fixed one) ran
    exact rounds

theorem gameTick_fixed {g g' : Game} {m m' : SessionMap} {tickCount : UInt32}
    (ran : g.tickEvent A m tickCount = .ok (g',m')) :
    g'.gUniverse.fixed = (g.moveRocks A tickCount).gUniverse.fixed :=
  Runs.run_relates (r := fun (g g' : Game) => g'.gUniverse.fixed = g.gUniverse.fixed) (fun _ => rfl)
    (fun _ _ _ first second => second.trans first) (fun _ _ _ _ one => playerRound_fixed one) (gameTick_ok ran)

theorem sessionTick_universe {s s' : Session} {g g' : Game} (ran : s.tickEvent A g = .ok (s',g')) :
    g'.gUniverse = g.gUniverse := by
  cases known : s.player with
  | none => rw [Messages.sessionTick_unregistered known] at ran; cases ran; rfl
  | some address => rw [Messages.sessionTick_built known] at ran; cases ran; rfl

theorem countShips_present {s : Session} {pairs : List (UInt32 × Option Session)} {before after : Nat}
    (counted : pairs.foldlM (PerSession.countShip s) before = .ok after) : Messages.Present pairs := by
  induction pairs generalizing before with
  | nil => exact fun _ member => absurd member List.not_mem_nil
  | cons first rest ih =>
    obtain ⟨middle,one,counted⟩ := Runs.bind_ok.mp counted
    intro pair member null
    rcases List.mem_cons.mp member with rfl | later
    · simp [PerSession.countShip,null] at one
    · exact ih counted pair later null

theorem universeTick_buffer {g : Game} {m : SessionMap} {s : Session} {txBuff : AppBuffer}
    (built : g.perSessionTickEvent A m s = .ok txBuff) :
    txBuff = .filled s.isLittleEndian (Messages.universeTick A s.isLittleEndian g m s.sessionID) 0 := by
  have present : Messages.Present m.toList := by
    obtain ⟨header,_,built⟩ := Runs.bind_ok.mp built
    obtain ⟨rocks,_,built⟩ := Runs.bind_ok.mp built
    obtain ⟨numShips,counted,_⟩ := Runs.bind_ok.mp built
    exact countShips_present counted
  rw [Messages.universeTick_built g present] at built
  exact (Except.ok.inj built).symm

def Committed (s : Session) (sent : AppBuffer → Prop) (s' : Session) : Prop :=
  if s.player = none then s' = s else ∃ txBuff, sent txBuff ∧ s' = s.commit txBuff

def UniverseMessage (A : Arith) (g : Game) (s : Session) (txBuff : AppBuffer) : Prop :=
  ∃ m, txBuff = .filled s.isLittleEndian (Messages.universeTick A s.isLittleEndian g m s.sessionID) 0

def PlayerMessage (A : Arith) (ticks : UInt32) (s : Session) (txBuff : AppBuffer) : Prop :=
  ∃ p, txBuff = .filled s.isLittleEndian (Messages.playerTick A s.isLittleEndian p s.sessionID ticks) 0

def Round (commits : Session → AppBuffer → Prop) (before after : Option (Option Session)) : Prop :=
  ∀ s, before = some (some s) → ∃ s', after = some (some s') ∧ Committed s (commits s) s'

theorem tickSession_round {g : Game} {m m' : SessionMap} {id : UInt32} (ran : g.tickSession A m id = .ok m') :
    Round (UniverseMessage A g) m[id]? m'[id]? ∧ ∀ other, other ≠ id → m'[other]? = m[other]? := by
  cases found : m[id]? with
  | none =>
    simp only [Game.tickSession,found] at ran
    cases ran
    exact ⟨fun _ absent => (by cases absent),fun _ _ => rfl⟩
  | some v =>
    simp only [Game.tickSession,found] at ran
    cases v with
    | none => cases ran
    | some sess =>
      cases player : sess.player with
      | none =>
        simp only [player] at ran
        cases ran
        refine ⟨?_,fun _ _ => rfl⟩
        rintro s ⟨⟩
        exact ⟨sess,found,by simp [Committed,player]⟩
      | some address =>
        simp only [player] at ran
        obtain ⟨txBuff,built,result⟩ := Runs.bind_ok.mp ran
        cases result
        refine ⟨?_,fun other differs => by simp [Std.TreeMap.getElem?_insert,Ne.symm differs]⟩
        rintro s ⟨⟩
        refine ⟨sess.commit txBuff,by simp [Session.commit,player],?_⟩
        rw [Committed,if_neg (by simp [player])]
        exact ⟨txBuff,⟨m,universeTick_buffer built⟩,rfl⟩

theorem gameTick_round {g g' : Game} {m m' : SessionMap} {tickCount : UInt32}
    (ran : g.tickEvent A m tickCount = .ok (g',m')) (id : UInt32) : Round (UniverseMessage A g') m[id]? m'[id]? := by
  obtain ⟨game,_,ran⟩ := Runs.bind_ok.mp ran
  obtain ⟨sessions,rounds,result⟩ := Runs.bind_ok.mp ran
  cases result
  obtain ⟨changed,_⟩ := Runs.run_keys (fun (m : SessionMap) (id : UInt32) => m[id]?)
    (fun _ => Round (UniverseMessage A g')) (fun _ => True) (fun _ _ _ _ _ => trivial)
    (fun _ _ _ _ one => (tickSession_round one).1) (fun _ _ _ _ one => (tickSession_round one).2) trivial
    Std.TreeMap.nodup_keys rounds
  intro s found
  exact changed id (World.found_key found) s found

namespace World
variable {w t : World}

def entry (w : World) (id : UInt32) : Option (Option Session) := w.gSessions.sessions[id]?

theorem timerRound_round {id : UInt32} (ran : w.timerRound A id = .ok t) :
    t.game.gUniverse = w.game.gUniverse ∧
    Round (PlayerMessage A w.game.gUniverse.ticks) (w.entry id) (t.entry id) ∧
      ∀ other, other ≠ id → t.entry other = w.entry other := by
  unfold timerRound at ran
  split at ran
  · rename_i session found
    obtain ⟨⟨session',game⟩,ticked,ran⟩ := Runs.bind_ok.mp ran
    obtain ⟨game_same,sessions_same⟩ := onTxReady_game ran
    have entry_same : ∀ other, t.entry other = (w.gSessions.update id session').sessions[other]? := by
      intro other
      rw [entry,sessions_same]
    refine ⟨by rw [game_same]; exact sessionTick_universe ticked,?_,fun other differs => ?_⟩
    · intro s here
      have same : s = session := Option.some.inj (Option.some.inj (here.symm.trans found))
      subst same
      refine ⟨session',by simp [entry_same,WebsockSessionManager.update],?_⟩
      cases player : s.player with
      | none =>
        rw [Messages.sessionTick_unregistered player] at ticked
        cases ticked
        simp [Committed,player]
      | some address =>
        rw [Messages.sessionTick_built player] at ticked
        cases ticked
        rw [Committed,if_neg (by simp [player])]
        exact ⟨_,⟨_,rfl⟩,rfl⟩
    · rw [entry_same]
      simp [WebsockSessionManager.update,Std.TreeMap.getElem?_insert,Ne.symm differs,entry]
  · rename_i absent
    cases ran
    refine ⟨rfl,fun s found => absurd found ?_,fun _ _ => rfl⟩
    exact absent s

theorem timerRound_players {id : UInt32} (ran : w.timerRound A id = .ok t) : t.playerOf = w.playerOf ∧
    t.game.gUniverse = w.game.gUniverse ∧
      ∀ address, w.playerOf id ≠ some address → t.game.memory address = w.game.memory address := by
  refine ⟨(timerRound_ticked ran).2,(timerRound_round ran).1,fun address other => ?_⟩
  unfold timerRound at ran
  split at ran
  · rename_i session found
    obtain ⟨⟨session',game⟩,ticked,ran⟩ := Runs.bind_ok.mp ran
    rw [(onTxReady_game ran).1]
    have player : w.playerOf id = session.player := playerOf_found found
    cases known : session.player with
    | none =>
      rw [Messages.sessionTick_unregistered known] at ticked
      cases ticked
      rfl
    | some own =>
      rw [Messages.sessionTick_built known] at ticked
      cases ticked
      exact Game.setPlayer_other (fun same => other (by rw [player,known,same])) ..
  · cases ran; rfl

theorem playerOf_key {m : SessionMap} {id : UInt32} (registered : Geoff.playerOf m id ≠ none) : id ∈ m.keys := by
  obtain ⟨address,known⟩ := Option.ne_none_iff_exists'.mp registered
  obtain ⟨s,found,_⟩ := playerOf_some.mp known
  exact World.found_key found

def Moved (A : Arith) (w : World) (g : Game) : Prop :=
  g.gUniverse.fixed = (w.game.moveRocks A w.game.gUniverse.timer.tick).gUniverse.fixed

structure Tick (A : Arith) (w : World) (s s' : Session) : Prop where
  unregistered : s.player = none → s' = s
  registered : s.player ≠ none → ∃ g first second, Moved A w g ∧ UniverseMessage A g s first ∧
    PlayerMessage A w.game.gUniverse.timer.tick s second ∧ s' = (s.commit first).commit second

theorem tickEvent_stopped (stopped : w.game.gUniverse.timer.runTimer = false) (ran : w.tickEvent A = .ok t) : t = w := by
  rw [tickEvent,if_pos stopped] at ran
  cases ran
  rfl

theorem tickEvent_round (running : w.game.gUniverse.timer.runTimer = true) (ran : w.tickEvent A = .ok t) :
    Moved A w t.game ∧ ∀ id s, w.entry id = some (some s) → ∃ s', t.entry id = some (some s') ∧ Tick A w s s' := by
  rw [tickEvent,if_neg (by simp [running])] at ran
  obtain ⟨⟨game,sessions⟩,ticked,ran⟩ := Runs.bind_ok.mp ran
  have moved := gameTick_fixed ticked
  have ticks : game.gUniverse.ticks = w.game.gUniverse.timer.tick := congrArg (fun fixed => fixed.2.2.1) moved
  -- the universe stays put while the loop of the timer runs over the sessions
  obtain ⟨changed,_⟩ := Runs.run_keys entry
    (fun _ => Round (PlayerMessage A w.game.gUniverse.timer.tick)) (fun v => v.game.gUniverse = game.gUniverse)
    (fun _ _ _ same one => (timerRound_round one).1.trans same)
    (fun v _ _ same one => by have round := (timerRound_round one).2.1; rwa [same,ticks] at round)
    (fun _ _ _ _ one => (timerRound_round one).2.2) rfl Std.TreeMap.nodup_keys ran
  have still : t.game.gUniverse = game.gUniverse :=
    Runs.run_invariant (fun v : World => v.game.gUniverse = game.gUniverse)
      (fun _ _ _ same one => (timerRound_round one).1.trans same) rfl ran
  refine ⟨by rw [Moved,still]; exact moved,fun id s found => ?_⟩
  obtain ⟨middle,here,early⟩ := gameTick_round ticked id s found
  obtain ⟨last,there,late⟩ := changed id (found_key here) middle here
  refine ⟨last,there,fun unregistered => ?_,fun registered => ?_⟩
  · rw [Committed,if_pos unregistered] at early
    subst early
    rwa [Committed,if_pos unregistered] at late
  · rw [Committed,if_neg registered] at early
    obtain ⟨first,sent,rfl⟩ := early
    rw [Committed,if_neg (by simpa [Session.commit] using registered)] at late
    obtain ⟨second,also,rfl⟩ := late
    exact ⟨game,first,second,moved,sent,also,rfl⟩

def messageFor (w : World) (event : Event) (id : UInt32) : Option (List UInt8 × (Nat → UInt8)) :=
  match event with
  | .onRead conn (.message bytes beyond) =>
    match w.conns[conn]? with
    | some c => if c.sessionID = id then some (bytes,beyond) else none
    | none => none
  | _ => none

inductive Origin (A : Arith) (w : World) (event : Event) (id : UInt32) : Session → Prop where
  | accepted (new : event = .accept) (next : id = w.gSessions.sessionId) : Origin A w event id w.acceptedSession
  | waited {s : Session} (found : w.entry id = some (some s)) (unasked : w.messageFor event id = none)
      (between : event = .tick → w.game.gUniverse.timer.runTimer = false)
      (old : event = .accept → id ≠ w.gSessions.sessionId) (queue : List AppBuffer) :
      Origin A w event id (s.withQueue queue)
  | answered {s : Session} (found : w.entry id = some (some s)) {bytes : List UInt8} {beyond : Nat → UInt8}
      (asked : w.messageFor event id = some (bytes,beyond)) (queue : List AppBuffer) :
      Origin A w event id ((s.answered A w.game bytes beyond).withQueue queue)
  | ticked {s s' : Session} (found : w.entry id = some (some s)) (now : event = .tick)
      (running : w.game.gUniverse.timer.runTimer = true) (tick : Tick A w s s') : Origin A w event id s'

def sessionAt (w : World) (id : UInt32) : Option Session := (w.entry id).join

theorem sessionAt_some {id : UInt32} {s : Session} : w.sessionAt id = some s ↔ w.entry id = some (some s) :=
  Option.join_eq_some_iff

structure Rewrites (key : UInt32) (change : Session → Session) (w t : World) : Prop where
  others : ∀ other, other ≠ key → t.entry other = w.entry other
  own : t.sessionAt key = (w.sessionAt key).map change

theorem Rewrites.trans {key : UInt32} {first second : Session → Session} {v : World} (before : Rewrites key first w t)
    (after : Rewrites key second t v) : Rewrites key (fun s => second (first s)) w v := by
  refine ⟨fun other differs => (after.others other differs).trans (before.others other differs),?_⟩
  rw [after.own,before.own,Option.map_map]
  rfl

theorem rewrites_insert {key : UInt32} {change : Session → Session} {s : Session} (found : w.entry key = some (some s))
    (written : t.gSessions.sessions = w.gSessions.sessions.insert key (some (change s))) : Rewrites key change w t := by
  constructor
  · intro other differs
    rw [entry,written,Std.TreeMap.getElem?_insert,if_neg (by simpa using Ne.symm differs)]
    rfl
  · rw [sessionAt_some.mpr found,sessionAt,entry,written,Std.TreeMap.getElem?_insert_self]
    rfl

theorem rewrites_nothing {key : UInt32} {change : Session → Session} (absent : w.sessionAt key = none)
    (others : ∀ other, other ≠ key → t.entry other = w.entry other) (still : t.sessionAt key = none) :
    Rewrites key change w t :=
  ⟨others,by rw [still,absent]; rfl⟩

theorem lookUp_rewrites {key : UInt32} {change : Session → Session} (absent : w.entry key = none)
    (written : t.gSessions.sessions = w.gSessions.sessions.insert key none) : Rewrites key change w t := by
  refine rewrites_nothing (by rw [sessionAt,absent]; rfl) (fun other differs => ?_) ?_
  · rw [entry,written,Std.TreeMap.getElem?_insert,if_neg (by simpa using Ne.symm differs)]
    rfl
  · rw [sessionAt,entry,written,Std.TreeMap.getElem?_insert_self]
    rfl

theorem commsHandler_rewrites {id : UInt32} {bytes : List UInt8} {beyond : Nat → UInt8}
    (ran : w.commsHandler A id bytes beyond = .ok t) :
    Rewrites id (fun s => s.answered A w.game bytes beyond) w t := by
  cases found : w.gSessions.sessions[id]? with
  | none =>
    simp only [commsHandler,WebsockSessionManager.findById_absent found] at ran
    cases ran
    exact lookUp_rewrites found rfl
  | some v =>
    simp only [commsHandler,WebsockSessionManager.findById_found found] at ran
    cases v with
    | none =>
      cases ran
      have null : w.sessionAt id = none := by rw [sessionAt,entry,found]; rfl
      exact rewrites_nothing null (fun _ _ => rfl) null
    | some session =>
      obtain ⟨game,answer⟩ := Session.commsHandler_answered A session w.game bytes beyond
      simp only [answer] at ran
      cases ran
      exact rewrites_insert found rfl

theorem sendNext_tail (c : WebsocketSession AppBuffer) (s : WebsockSession AppBuffer) :
    (c.sendNext s).2 = {s with txQue := s.txQue.tail} := by
  cases queued : s.txQue with
  | nil =>
    rw [WebsocketSession.sendNext_empty c queued,List.tail_nil,← queued]
  | cons head rest => rw [WebsocketSession.sendNext_cons c queued,List.tail_cons]

theorem sendFrom_rewrites (conn : Nat) {c : WebsocketSession AppBuffer} {session : Session}
    (found : w.entry c.sessionID = some (some session)) :
    Rewrites c.sessionID (fun s => s.withQueue s.txQue.tail) w (w.sendFrom conn c session) := by
  refine rewrites_insert found ?_
  simp only [sendFrom,setConn,WebsockSessionManager.update,sendNext_tail,Session.withQueue]

theorem sendNext_rewrites (w : World) (conn : Nat) (c : WebsocketSession AppBuffer) :
    Rewrites c.sessionID (fun s => s.withQueue s.txQue.tail) w (w.sendNext conn c) := by
  cases found : w.gSessions.sessions[c.sessionID]? with
  | none =>
    simp only [sendNext,WebsockSessionManager.findById_absent found]
    exact lookUp_rewrites found rfl
  | some v =>
    simp only [sendNext,WebsockSessionManager.findById_found found]
    cases v with
    | none =>
      have null : w.sessionAt c.sessionID = none := by rw [sessionAt,entry,found]; rfl
      exact rewrites_nothing null (fun _ _ => rfl) null
    | some session => exact sendFrom_rewrites conn found

theorem message_ok {conn : Nat} {c : WebsocketSession AppBuffer} {s : Session} (member : w.conns[conn]? = some c)
    (reading : c.reading = true) (found : w.sessionAt c.sessionID = some s) (bytes : List UInt8) (beyond : Nat → UInt8) :
    ∃ t c' queue, w.step A (.onRead conn (.message bytes beyond)) = .ok t ∧ t.conns[conn]? = some c' ∧
      c'.sessionID = c.sessionID ∧ c'.reading = true ∧
        t.sessionAt c.sessionID = some ((s.answered A w.game bytes beyond).withQueue queue) := by
  obtain ⟨game,answer⟩ := Session.commsHandler_answered A s w.game bytes beyond
  have handled := onRead_handled conn member reading (sessionAt_some.mp found) answer
  have inside := (List.getElem?_eq_some_iff.mp member).1
  refine ⟨_,(c.sendNext (s.answered A w.game bytes beyond).toWebsockSession).1,
    (s.answered A w.game bytes beyond).txQue.tail,handled,?_,(sendNext_identity _ _).1,
    (WebsocketSession.sendNext_reading _ _).trans reading,?_⟩
  · simp [sendFrom,setConn,inside]
  · have inserted : ({w with gSessions := w.gSessions.update c.sessionID (s.answered A w.game bytes beyond), game := game} :
        World).entry c.sessionID = some (some (s.answered A w.game bytes beyond)) := by
      simp [entry,WebsockSessionManager.update]
    rw [(sendFrom_rewrites conn inserted).own,sessionAt_some.mpr inserted]
    rfl

theorem origin_same {event : Event} {id : UInt32} {s : Session} (found : w.entry id = some (some s))
    (unasked : w.messageFor event id = none) (between : event = .tick → w.game.gUniverse.timer.runTimer = false)
    (old : event = .accept → id ≠ w.gSessions.sessionId) : Origin A w event id s :=
  .waited found unasked between old s.txQue

theorem rewrites_origin {event : Event} {key id : UInt32} {queue : Session → List AppBuffer} {s' : Session}
    (rewritten : Rewrites key (fun s => s.withQueue (queue s)) w t) (unasked : w.messageFor event id = none)
    (other : event ≠ .tick ∧ event ≠ .accept) (held : t.sessionAt id = some s') : Origin A w event id s' := by
  have between : event = .tick → w.game.gUniverse.timer.runTimer = false := fun tick => absurd tick other.1
  have old : event = .accept → id ≠ w.gSessions.sessionId := fun accept => absurd accept other.2
  by_cases own : id = key
  · subst own
    rw [rewritten.own] at held
    obtain ⟨s,found,rfl⟩ := Option.map_eq_some_iff.mp held
    exact .waited (sessionAt_some.mp found) unasked between old _
  · rw [sessionAt,rewritten.others id own] at held
    exact origin_same (sessionAt_some.mp held) unasked between old

theorem close_entry (w : World) {id key : UInt32} (own : id ≠ key) : (w.onClose key).entry id = w.entry id := by
  simp [entry,onClose,WebsockSessionManager.deleteById,Std.TreeMap.getElem?_erase,Ne.symm own]

theorem close_own (w : World) (key : UInt32) : (w.onClose key).entry key = none := by
  simp [entry,onClose,WebsockSessionManager.deleteById]

theorem accept_own (ran : w.onAccept = .ok t) : t.entry w.gSessions.sessionId = some (some w.acceptedSession) := by
  rw [onAccept_ok] at ran
  cases ran
  simp [entry,WebsockSessionManager.update]

theorem accept_entry {id : UInt32} (ran : w.onAccept = .ok t) (old : id ≠ w.gSessions.sessionId) :
    t.entry id = w.entry id := by
  rw [onAccept_ok] at ran
  cases ran
  simp [entry,WebsockSessionManager.update,WebsockSessionManager.addSession,Std.TreeMap.getElem?_insert,Ne.symm old]

theorem tick_held {id : UInt32} {s' : Session} (ran : w.tickEvent A = .ok t) (held : t.sessionAt id = some s') :
    ∃ s, w.sessionAt id = some s := by
  have known := PlayerStore.hasSession_tags.mp ⟨s',sessionAt_some.mp held⟩
  rw [(tickEvent_tags ran).1] at known
  obtain ⟨s,found⟩ := PlayerStore.hasSession_tags.mpr known
  exact ⟨s,sessionAt_some.mpr found⟩

theorem step_origin {event : Event} {id : UInt32} {s' : Session} (ran : w.step A event = .ok t)
    (held : t.sessionAt id = some s') : Origin A w event id s' := by
  have here := sessionAt_some.mp held
  cases step_handled ran with
  | accept accepted =>
    by_cases new : id = w.gSessions.sessionId
    · subst new
      cases here.symm.trans (accept_own accepted)
      exact .accepted rfl rfl
    · rw [accept_entry accepted new] at here
      exact origin_same here rfl (fun tick => (by cases tick)) (fun _ => new)
  | tick ticked =>
    obtain ⟨s,found⟩ := tick_held ticked held
    cases running : w.game.gUniverse.timer.runTimer with
    | false =>
      cases tickEvent_stopped running ticked
      exact origin_same here rfl (fun _ => running) (fun accept => (by cases accept))
    | true =>
      obtain ⟨next,there,tick⟩ := (tickEvent_round running ticked).2 id s (sessionAt_some.mp found)
      cases here.symm.trans there
      exact .ticked (sessionAt_some.mp found) rfl running tick
  | @closed conn c =>
    by_cases own : id = c.sessionID
    · rw [own,close_own] at here
      cases here
    · rw [close_entry _ own] at here
      exact origin_same here rfl (fun tick => (by cases tick)) (fun accept => (by cases accept))
  | failed => exact origin_same here rfl (fun tick => (by cases tick)) (fun accept => (by cases accept))
  | @message conn c bytes beyond handled member _ answered =>
    have rewritten := (commsHandler_rewrites answered).trans (sendNext_rewrites handled conn c)
    by_cases own : id = c.sessionID
    · subst own
      rw [rewritten.own] at held
      obtain ⟨s,found,rfl⟩ := Option.map_eq_some_iff.mp held
      exact .answered (sessionAt_some.mp found) (by simp [messageFor,member]) _
    · rw [rewritten.others id own] at here
      exact origin_same here (by simp [messageFor,member,Ne.symm own]) (fun tick => (by cases tick))
        (fun accept => (by cases accept))
  | unwritten => exact origin_same here rfl (fun tick => (by cases tick)) (fun accept => (by cases accept))
  | @written conn c => exact rewrites_origin (sendNext_rewrites w conn c.writeDone) rfl ⟨by simp,by simp⟩ held
  | @posted conn c session _ _ _ found =>
    exact rewrites_origin (sendFrom_rewrites conn (c := {c with posted := c.posted - 1}) (callbackSession_found found))
      rfl ⟨by simp,by simp⟩ held

end World
end Geoff
