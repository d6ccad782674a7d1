import Geoff.ServerSteps

-- What a request and a tick do to the game: which players they create, write to
-- and charge with a destroyed rock.
namespace Geoff

variable {A : Arith}

inductive Effect (A : Arith) (s : Session) (g : Game) (asked : Option RequestType) (down : Bool) :
    Option Nat → Game → Prop where
  | idle : Effect A s g asked down s.player g
  | register (type : asked = some .registerSession) (w h : UInt16) :
      Effect A s g asked down (some g.allocated) (g.newPlayer A s.sessionID w h)
  | key (type : asked = some .keyEvent) {address : Nat} (known : s.player = some address) (code : Nat) :
      Effect A s g asked down s.player (g.setPlayer address ((g.memory address).keyEvent A code down))
  | click (p : Position) : Effect A s g asked down s.player (g.launchRock A p)
  | resize {address : Nat} (known : s.player = some address) (w h : UInt16) :
      Effect A s g asked down s.player (g.setPlayer address ((g.memory address).resizeEvent A g.gUniverse.toSize w h))

theorem Effect.noted {s : Session} {le down : Bool} {g g' : Game} {asked : Option RequestType} {player : Option Nat}
    (effect : Effect A (s.setLittleEndian le) g asked down player g') : Effect A s g asked down player g' := by
  cases effect with
  | idle => exact .idle
  | register type w h => exact .register type w h
  | key type known code => exact .key (s := s) type known code
  | click p => exact .click p
  | resize known w h => exact .resize (s := s) known w h

theorem handle_effect {s s' : Session} {g g' : Game} {kind : RequestType} {rx : Rx}
    (ran : (s.handle A g kind rx).1 = .ok (s',g')) :
    Effect A s g (some kind) (decide (rx.uint8 1 ≠ 0)) s'.player g' := by
  cases kind with
  | registerSession =>
    have built := (Messages.register_built A rx.buffer.isLittleEndian s g _ _).symm.trans ran
    cases built
    exact .register rfl _ _
  | clickEvent =>
    simp only [Session.handle,Session.handleClickEvent_run] at ran
    split at ran
    · cases ran; exact .idle
    · cases ran; exact .click _
  | keyEvent =>
    simp only [Session.handle,Session.handleKeyEvent_run] at ran
    split at ran
    · cases ran; exact .idle
    · rename_i known; cases ran; exact .key rfl known _
  | resizeEvent =>
    simp only [Session.handle,Session.handleResizeEvent_run] at ran
    split at ran
    · cases ran; exact .idle
    · rename_i known; cases ran; exact .resize known _ _

theorem commsHandler_effect {s s' : Session} {g g' : Game} {bytes : List UInt8} {beyond : Nat → UInt8}
    (ran : (s.commsHandler A g bytes beyond).1 = .ok (s',g')) :
    Effect A s g (Session.asked bytes beyond) (Session.keyDown bytes beyond) s'.player g' := by
  unfold Session.commsHandler at ran
  unfold Session.asked
  split at ran
  · cases ran; exact .idle
  · rename_i long
    rw [if_neg long]
    cases type : RequestType.ofUInt8 ((Session.rxBuffer bytes beyond).uint8 0) with
    | none => rw [Session.dispatch_unknown A type] at ran; cases ran; exact .idle
    | some kind =>
      rw [Session.dispatch_known A type] at ran
      dsimp only at ran
      exact (handle_effect ran).noted

structure Charged (id : UInt32) (address : Nat) (g g' : Game) : Prop where
  players : g'.gUniverse.players = g.gUniverse.players
  size : g'.gUniverse.toSize = g.gUniverse.toSize
  allocated : g'.allocated = g.allocated
  others : ∀ other, other ≠ address → g'.memory other = g.memory other
  charged : ∃ log, g'.destroyed = g.destroyed ++ log ∧ ∀ entry ∈ log, entry.1 = id

namespace Charged
variable {id : UInt32} {address : Nat} {g g' g'' : Game}

theorem refl (g : Game) : Charged id address g g := ⟨rfl,rfl,rfl,fun _ _ => rfl,[],by simp,by simp⟩

theorem trans (first : Charged id address g g') (second : Charged id address g' g'') : Charged id address g g'' := by
  obtain ⟨log1,same1,own1⟩ := first.charged
  obtain ⟨log2,same2,own2⟩ := second.charged
  refine ⟨second.players.trans first.players,second.size.trans first.size,second.allocated.trans first.allocated,
    fun other ne => (second.others other ne).trans (first.others other ne),log1 ++ log2,?_,?_⟩
  · rw [same2,same1,List.append_assoc]
  · intro entry member
    exact (List.mem_append.mp member).elim (own1 entry) (own2 entry)

theorem setPlayer (g : Game) (p : Player) : Charged id address g (g.setPlayer address p) :=
  ⟨rfl,rfl,rfl,fun _ ne => Function.update_of_ne ne _ _,[],by simp [Game.setPlayer],by simp⟩

end Charged

theorem scoreRock_charged {id : UInt32} {address : Nat} {g g' : Game} {rockIt : Nat}
    (ran : Collision.scoreRock A id address g rockIt = .ok g') :
    Charged id address g g' ∧ g'.destroyed = g.destroyed ++ [(id,rockIt)] := by
  unfold Collision.scoreRock at ran
  split at ran
  · cases ran
  · obtain ⟨⟨field,rand⟩,_,result⟩ := Runs.bind_ok.mp ran
    cases result
    exact ⟨⟨rfl,rfl,rfl,fun _ ne => Function.update_of_ne ne _ _,[(id,rockIt)],rfl,by simp⟩,rfl⟩

theorem scoreRocks_charged {id : UInt32} {address : Nat} {g g' : Game} {rocks : List Nat}
    (ran : rocks.foldlM (Collision.scoreRock A id address) g = .ok g') : Charged id address g g' :=
  Runs.run_relates Charged.refl (fun _ _ _ first second => first.trans second)
    (fun _ _ _ _ one => (scoreRock_charged one).1) ran

theorem playerRound_charged {id : UInt32} {address : Nat} {g g' : Game}
    (ran : Collision.playerRound A g (id,some address) = .ok g') : Charged id address g g' :=
  (Charged.setPlayer g _).trans (scoreRocks_charged ran)

theorem playerRound_null {id : UInt32} {g g' : Game} (ran : Collision.playerRound A g (id,none) = .ok g') : g' = g := by
  simp only [Collision.playerRound] at ran
  split at ran
  · cases ran; rfl
  · cases ran

structure Rounds (pairs : List (UInt32 × Option Nat)) (g g' : Game) : Prop where
  players : g'.gUniverse.players = g.gUniverse.players
  size : g'.gUniverse.toSize = g.gUniverse.toSize
  allocated : g'.allocated = g.allocated
  others : ∀ address, (∀ pair ∈ pairs, pair.2 ≠ some address) → g'.memory address = g.memory address
  charged : ∃ log, g'.destroyed = g.destroyed ++ log ∧ ∀ entry ∈ log, entry.1 ∈ pairs.map Prod.fst

theorem playerRound_rounds {pairs : List (UInt32 × Option Nat)} {g g' : Game} {pair : UInt32 × Option Nat}
    (member : pair ∈ pairs) (ran : Collision.playerRound A g pair = .ok g') : Rounds pairs g g' := by
  obtain ⟨id,_ | address⟩ := pair
  · rw [playerRound_null ran]
    exact ⟨rfl,rfl,rfl,fun _ _ => rfl,[],by simp,by simp⟩
  · obtain ⟨players,size,allocated,others,log,same,own⟩ := playerRound_charged ran
    refine ⟨players,size,allocated,fun other free => others other fun here => free _ member (by rw [here]),log,same,?_⟩
    intro entry inside
    rw [own entry inside]
    exact List.mem_map_of_mem (f := Prod.fst) member

theorem rounds_run {pairs : List (UInt32 × Option Nat)} {g g' : Game}
    (ran : pairs.foldlM (Collision.playerRound A) g = .ok g') : Rounds pairs g g' := by
  refine Runs.run_relates (r := Rounds pairs) ?_ ?_ (fun _ _ _ member one => playerRound_rounds member one) ran
  · exact fun g => ⟨rfl,rfl,rfl,fun _ _ => rfl,[],by simp,by simp⟩
  · rintro g g' g'' first second
    obtain ⟨log1,same1,own1⟩ := first.charged
    obtain ⟨log2,same2,own2⟩ := second.charged
    refine ⟨second.players.trans first.players,second.size.trans first.size,second.allocated.trans first.allocated,
      fun other free => (second.others other free).trans (first.others other free),log1 ++ log2,?_,?_⟩
    · rw [same2,same1,List.append_assoc]
    · intro entry member
      exact (List.mem_append.mp member).elim (own1 entry) (own2 entry)

theorem gameTick_ok {g g' : Game} {m m' : SessionMap} {tickCount : UInt32}
    (ran : g.tickEvent A m tickCount = .ok (g',m')) : (g.moveRocks A tickCount).collisionDetection A = .ok g' := by
  obtain ⟨game,collided,ran⟩ := Runs.bind_ok.mp ran
  obtain ⟨sessions,_,result⟩ := Runs.bind_ok.mp ran
  cases result
  exact collided

theorem gameTick_rounds {g g' : Game} {m m' : SessionMap} {tickCount : UInt32}
    (ran : g.tickEvent A m tickCount = .ok (g',m')) : Rounds g.gUniverse.players.toList g g' := by
  obtain ⟨players,size,allocated,others,charged⟩ := rounds_run (gameTick_ok ran)
  exact ⟨players,size,allocated,others,charged⟩

structure Ticked (g g' : Game) : Prop where
  players : g'.gUniverse.players = g.gUniverse.players
  size : g'.gUniverse.toSize = g.gUniverse.toSize
  allocated : g'.allocated = g.allocated
  destroyed : g'.destroyed = g.destroyed
  score : ∀ address, (g'.memory address).score = (g.memory address).score
  dead : ∀ address, (g.memory address).ship.dead = true → (g'.memory address).ship = (g.memory address).ship

theorem Ticked.refl (g : Game) : Ticked g g := ⟨rfl,rfl,rfl,rfl,fun _ => rfl,fun _ _ => rfl⟩

theorem Ticked.trans {g g' g'' : Game} (first : Ticked g g') (second : Ticked g' g'') : Ticked g g'' where
  players := second.players.trans first.players
  size := second.size.trans first.size
  allocated := second.allocated.trans first.allocated
  destroyed := second.destroyed.trans first.destroyed
  score := fun address => (second.score address).trans (first.score address)
  dead := fun address dead =>
    (second.dead address (by rw [first.dead address dead]; exact dead)).trans (first.dead address dead)

theorem tick_score (u : Size) (p : Player) : (p.tick A u).score = p.score := by
  unfold Player.tick
  dsimp only
  split <;> split <;> rfl

theorem tick_dead (u : Size) {p : Player} (dead : p.ship.dead = true) : (p.tick A u).ship = p.ship := by
  simp only [Player.tick,dead,if_true]
  split <;> rfl

theorem tick_alive (u : Size) {p : Player} (alive : p.ship.dead = false) :
    (p.tick A u).ship = p.ship.tickEvent A u := by
  simp only [Player.tick,alive,Bool.false_eq_true,if_false]
  split <;> rfl

theorem sessionTick_ticked {s s' : Session} {g g' : Game} (ran : s.tickEvent A g = .ok (s',g')) :
    Ticked g g' ∧ s'.player = s.player := by
  cases known : s.player with
  | none =>
    rw [Messages.sessionTick_unregistered known] at ran
    cases ran
    exact ⟨.refl g,known⟩
  | some address =>
    rw [Messages.sessionTick_built known] at ran
    cases ran
    refine ⟨⟨rfl,rfl,rfl,rfl,fun other => ?_,fun other dead => ?_⟩,known⟩
    · by_cases here : other = address
      · subst here; simp [Game.setPlayer,tick_score]
      · simp [Game.setPlayer,Function.update_of_ne here]
    · by_cases here : other = address
      · subst here; simp [Game.setPlayer,tick_dead _ dead]
      · simp [Game.setPlayer,Function.update_of_ne here]

def playerOf (m : SessionMap) (id : UInt32) : Option Nat := m[id]?.bind fun v => v.bind Session.player

theorem playerOf_found {m : SessionMap} {id : UInt32} {s : Session} (found : m[id]? = some (some s)) :
    playerOf m id = s.player := by
  rw [playerOf,found]
  rfl

theorem playerOf_some {m : SessionMap} {id : UInt32} {address : Nat} :
    playerOf m id = some address ↔ ∃ s : Session, m[id]? = some (some s) ∧ s.player = some address := by
  constructor
  · intro player
    obtain ⟨v,found,held⟩ := Option.bind_eq_some_iff.mp player
    obtain ⟨s,rfl,known⟩ := Option.bind_eq_some_iff.mp held
    exact ⟨s,found,known⟩
  · rintro ⟨s,found,known⟩
    exact (playerOf_found found).trans known

theorem playerOf_insert (m : SessionMap) (k : UInt32) (v : Option Session) :
    playerOf (m.insert k v) = Function.update (playerOf m) k (v.bind Session.player) := by
  funext id
  by_cases same : k = id
  · subst same; simp [playerOf]
  · simp [playerOf,Std.TreeMap.getElem?_insert,same,Function.update_of_ne (Ne.symm same)]

theorem playerOf_erase (m : SessionMap) (k : UInt32) : playerOf (m.erase k) = Function.update (playerOf m) k none := by
  funext id
  by_cases same : k = id
  · subst same; simp [playerOf]
  · simp [playerOf,Std.TreeMap.getElem?_erase,same,Function.update_of_ne (Ne.symm same)]

theorem playerOf_update {m : SessionMap} {k : UInt32} {s s' : Session} (found : m[k]? = some (some s))
    (same : s'.player = s.player) : playerOf (m.insert k (some s')) = playerOf m := by
  rw [playerOf_insert]
  exact Function.update_eq_self_iff.mpr (by simp [playerOf,found,same])

theorem playerOf_null {m : SessionMap} {k : UInt32} (absent : m[k]? = none) :
    playerOf (m.insert k none) = playerOf m := by
  rw [playerOf_insert]
  exact Function.update_eq_self_iff.mpr (by simp [playerOf,absent])

theorem tickSession_players {g : Game} {m m' : SessionMap} {id : UInt32} (ran : g.tickSession A m id = .ok m') :
    playerOf m' = playerOf m := by
  cases found : m[id]? with
  | none => simp only [Game.tickSession,found] at ran; cases ran; rfl
  | some v =>
    simp only [Game.tickSession,found] at ran
    cases v with
    | none => cases ran
    | some sess =>
      cases player : sess.player with
      | none => simp only [player] at ran; cases ran; rfl
      | some address =>
        simp only [player] at ran
        obtain ⟨txBuff,_,result⟩ := Runs.bind_ok.mp ran
        cases result
        exact playerOf_update found player.symm

theorem gameTick_players {g g' : Game} {m m' : SessionMap} {tickCount : UInt32}
    (ran : g.tickEvent A m tickCount = .ok (g',m')) : playerOf m' = playerOf m := by
  obtain ⟨game,_,ran⟩ := Runs.bind_ok.mp ran
  obtain ⟨sessions,rounds,result⟩ := Runs.bind_ok.mp ran
  cases result
  exact Runs.run_relates (r := fun m m' => playerOf m' = playerOf m) (fun _ => rfl)
    (fun _ _ _ first second => second.trans first) (fun _ _ _ _ one => tickSession_players one) rounds

namespace World
variable {w t : World}

def playerOf (w : World) : UInt32 → Option Nat := Geoff.playerOf w.gSessions.sessions

theorem onTxReady_game {session : Session} (ran : w.onTxReady session = .ok t) :
    t.game = w.game ∧ t.gSessions = w.gSessions := by
  unfold onTxReady at ran
  split at ran
  · cases ran; exact ⟨rfl,rfl⟩
  · split at ran
    · cases ran
    · split at ran
      · cases ran
      · cases ran; exact ⟨rfl,rfl⟩

theorem timerRound_ticked {id : UInt32} (ran : w.timerRound A id = .ok t) :
    Ticked w.game t.game ∧ t.playerOf = w.playerOf := by
  unfold timerRound at ran
  split at ran
  · rename_i session found
    obtain ⟨⟨session',game⟩,ticked,ran⟩ := Runs.bind_ok.mp ran
    obtain ⟨moved,same⟩ := sessionTick_ticked ticked
    obtain ⟨game_same,sessions_same⟩ := onTxReady_game ran
    refine ⟨by rw [game_same]; exact moved,?_⟩
    rw [playerOf,sessions_same]
    exact playerOf_update found same
  · cases ran; exact ⟨.refl _,rfl⟩

theorem tickEvent_game (ran : w.tickEvent A = .ok t) :
    (w.game.gUniverse.timer.runTimer = false ∧ t = w) ∨ (w.game.gUniverse.timer.runTimer = true ∧ ∃ g m,
      w.game.tickEvent A w.gSessions.sessions w.game.gUniverse.timer.tick = .ok (g,m) ∧ Ticked g t.game ∧
        t.playerOf = w.playerOf) := by
  unfold tickEvent at ran
  split at ran
  · rename_i stopped; cases ran; exact .inl ⟨stopped,rfl⟩
  · rename_i running
    obtain ⟨⟨game,sessions⟩,ticked,ran⟩ := Runs.bind_ok.mp ran
    obtain ⟨moved,same⟩ := Runs.run_relates (r := fun (w t : World) => Ticked w.game t.game ∧ t.playerOf = w.playerOf)
      (fun _ => ⟨.refl _,rfl⟩) (fun _ _ _ first second => ⟨first.1.trans second.1,second.2.trans first.2⟩)
      (fun _ _ _ _ one => timerRound_ticked one) ran
    exact .inr ⟨by simpa using running,game,sessions,ticked,moved,same.trans (gameTick_players ticked)⟩

inductive Turn (A : Arith) (w : World) : Event → World → Prop where
  | quiet {event : Event} {t : World} (other : event ≠ .tick) (game : t.game = w.game)
      (players : ∀ id address, t.playerOf id = some address → w.playerOf id = some address) : Turn A w event t
  | request {conn : Nat} {bytes : List UInt8} {beyond : Nat → UInt8} {t : World} {c : WebsocketSession AppBuffer}
      {s : Session} {player : Option Nat} (member : w.conns[conn]? = some c)
      (found : w.gSessions.sessions[c.sessionID]? = some (some s))
      (effect : Effect A s w.game (Session.asked bytes beyond) (Session.keyDown bytes beyond) player t.game)
      (players : t.playerOf = Function.update w.playerOf c.sessionID player) :
      Turn A w (.onRead conn (.message bytes beyond)) t
  | tick {t : World} (ran : w.tickEvent A = .ok t) : Turn A w .tick t

theorem sendFrom_players (conn : Nat) {c : WebsocketSession AppBuffer} {session : Session}
    (found : w.gSessions.sessions[c.sessionID]? = some (some session)) :
    (w.sendFrom conn c session).game = w.game ∧ (w.sendFrom conn c session).playerOf = w.playerOf :=
  ⟨rfl,playerOf_update found rfl⟩

theorem sendNext_players (w : World) (conn : Nat) (c : WebsocketSession AppBuffer) :
    (w.sendNext conn c).game = w.game ∧ (w.sendNext conn c).playerOf = w.playerOf := by
  cases found : w.gSessions.sessions[c.sessionID]? with
  | none =>
    simp only [sendNext,WebsockSessionManager.findById_absent found]
    exact ⟨rfl,playerOf_null found⟩
  | some v =>
    cases v with
    | none =>
      simp only [sendNext,WebsockSessionManager.findById_found found]
      exact ⟨rfl,rfl⟩
    | some session =>
      simp only [sendNext,WebsockSessionManager.findById_found found]
      exact sendFrom_players conn found

theorem dropped {t : World} {k : UInt32} (same : t.playerOf = Function.update w.playerOf k none) :
    ∀ id address, t.playerOf id = some address → w.playerOf id = some address := by
  intro id address held
  rw [same] at held
  by_cases here : id = k
  · subst here; simp at held
  · rwa [Function.update_of_ne here] at held

theorem step_turn {event : Event} (ran : w.step A event = .ok t) : Turn A w event t := by
  cases step_handled ran with
  | accept accepted =>
    rw [onAccept_ok] at accepted
    cases accepted
    refine .quiet (by simp) rfl (dropped (k := w.gSessions.sessionId) ?_)
    simp only [playerOf,WebsockSessionManager.update,WebsockSessionManager.addSession,playerOf_insert,
      Function.update_idem]
    rfl
  | tick ticked => exact .tick ticked
  | closed => exact .quiet (by simp) rfl (dropped (playerOf_erase _ _))
  | failed => exact .quiet (by simp) rfl fun _ _ held => held
  | @message conn c bytes beyond handled member _ answered =>
    obtain ⟨game_same,players_same⟩ := sendNext_players handled conn c
    cases found : w.gSessions.sessions[c.sessionID]? with
    | none =>
      simp only [commsHandler,WebsockSessionManager.findById_absent found] at answered
      cases answered
      refine .quiet (by simp) game_same fun id address held => ?_
      rw [players_same] at held
      rwa [playerOf,playerOf_null found] at held
    | some v =>
      simp only [commsHandler,WebsockSessionManager.findById_found found] at answered
      cases v with
      | none =>
        cases answered
        exact .quiet (by simp) game_same fun id address held => by rwa [players_same] at held
      | some session =>
        obtain ⟨⟨session',game⟩,done,result⟩ := Runs.bind_ok.mp answered
        cases result
        refine .request member found ?_ (players_same.trans (playerOf_insert _ _ _))
        rw [game_same]
        exact commsHandler_effect done
  | unwritten => exact .quiet (by simp) rfl fun _ _ held => held
  | @written conn c =>
    obtain ⟨game_same,players_same⟩ := sendNext_players w conn c.writeDone
    exact .quiet (by simp) game_same fun id address held => by rwa [players_same] at held
  | @posted conn c session _ _ _ found =>
    obtain ⟨game_same,players_same⟩ := sendFrom_players conn
      (c := {c with posted := c.posted - 1}) (callbackSession_found found)
    exact .quiet (by simp) game_same fun id address held => by rwa [players_same] at held

end World
end Geoff
