import Geoff.PlayerSteps

-- The two messages a tick commits for a session, byte for byte: the first from the game
-- once its collisions are done, the second from the player once it has moved.
namespace Geoff
open Collision Messages

variable {A : Arith}

def owners (m : SessionMap) : Std.TreeMap UInt32 Nat := m.filterMap fun _ v => v.bind Session.player

theorem owners_playerOf (m : SessionMap) (id : UInt32) : (owners m)[id]? = playerOf m id := Std.TreeMap.getElem?_filterMap'

theorem otherShips_owners (g : Game) (sessionID : UInt32) (m : SessionMap) : otherShips g sessionID m.toList =
    (owners m).toList.filterMap fun pair => if pair.1 = sessionID then none else some (g.memory pair.2).ship := by
  rw [owners,Std.TreeMap.toList_filterMap,List.filterMap_filterMap,otherShips]
  apply List.filterMap_congr
  rintro ⟨id,v⟩ _
  cases v with
  | none => simp [otherShip]
  | some s => cases player : s.player <;> simp [otherShip,player]

theorem otherShips_same {m n : SessionMap} (same : playerOf m = playerOf n) (g : Game) (sessionID : UInt32) :
    otherShips g sessionID m.toList = otherShips g sessionID n.toList := by
  have equal : (owners m).Equiv (owners n) := by
    apply Std.TreeMap.Equiv.of_forall_constGet?_eq
    intro id
    exact (owners_playerOf m id).trans ((congrFun same id).trans (owners_playerOf n id).symm)
  rw [otherShips_owners,otherShips_owners,equal.toList_eq]

def Session.universeBuffer (A : Arith) (g : Game) (m : SessionMap) (s : Session) : AppBuffer :=
  .filled s.isLittleEndian (universeTick A s.isLittleEndian g m s.sessionID) 0

def Session.playerBuffer (A : Arith) (p : Player) (ticks : UInt32) (s : Session) : AppBuffer :=
  .filled s.isLittleEndian (playerTick A s.isLittleEndian p s.sessionID ticks) 0

theorem universeBuffer_same {m n : SessionMap} (same : playerOf m = playerOf n) (g : Game) (s : Session) :
    s.universeBuffer A g m = s.universeBuffer A g n := by
  unfold Session.universeBuffer universeTick
  rw [otherShips_same same]

def Told (A : Arith) (g : Game) (m : SessionMap) (before after : Option (Option Session)) : Prop :=
  ∀ s, before = some (some s) → s.player ≠ none → after = some (some (s.commit (s.universeBuffer A g m)))

theorem tickSession_told {g : Game} {m m' : SessionMap} {id : UInt32} (ran : g.tickSession A m id = .ok m') :
    Told A g m m[id]? m'[id]? := by
  intro s found registered
  obtain ⟨address,player⟩ := Option.ne_none_iff_exists'.mp registered
  simp only [Game.tickSession,found,player] at ran
  obtain ⟨txBuff,built,result⟩ := Runs.bind_ok.mp ran
  cases result
  rw [Std.TreeMap.getElem?_insert_self,universeTick_buffer built]
  simp only [Session.commit,player]
  rfl

theorem gameTick_told {g g' : Game} {m m' : SessionMap} {tickCount : UInt32} (ran : g.tickEvent A m tickCount = .ok (g',m'))
    (id : UInt32) : Told A g' m m[id]? m'[id]? := by
  obtain ⟨game,_,ran⟩ := Runs.bind_ok.mp ran
  obtain ⟨sessions,rounds,result⟩ := Runs.bind_ok.mp ran
  cases result
  obtain ⟨changed,_⟩ := Runs.run_keys (fun (v : SessionMap) (id : UInt32) => v[id]?)
    (fun _ => Told A g' m) (fun v => playerOf v = playerOf m)
    (fun _ _ _ same one => (tickSession_players one).trans same)
    (fun v _ _ same one s found registered => by
      rw [← universeBuffer_same same]
      exact tickSession_told one s found registered)
    (fun _ _ _ _ one => (tickSession_round one).2) rfl Std.TreeMap.nodup_keys rounds
  intro s found
  exact changed id (World.found_key found) s found

namespace World
variable {w t : World}

def seat (w : World) (id : UInt32) : Option (Option Session) × Option Player :=
  (w.entry id,(w.playerOf id).map w.game.memory)

def Moves (A : Arith) (u : Size) (ticks : UInt32) (before after : Option (Option Session) × Option Player) : Prop :=
  ∀ s p, before = (some (some s),some p) →
    after = (some (some (s.commit (s.playerBuffer A (p.tick A u) ticks))),some (p.tick A u))

theorem timerRound_moves {id : UInt32} (ran : w.timerRound A id = .ok t) :
    Moves A w.game.gUniverse.toSize w.game.gUniverse.ticks (w.seat id) (t.seat id) := by
  intro s p seated
  obtain ⟨found,sits⟩ := Prod.mk.inj seated
  obtain ⟨address,owned,rfl⟩ := Option.map_eq_some_iff.mp sits
  have player : s.player = some address := (playerOf_found found).symm.trans owned
  have moved := (timerRound_players ran).1
  have stored : w.gSessions.sessions[id]? = some (some s) := found
  simp only [timerRound,stored,sessionTick_built player,Runs.ok_bind] at ran
  obtain ⟨game,sessions⟩ := onTxReady_game ran
  rw [seat,moved,owned,entry,game,sessions]
  simp only [WebsockSessionManager.update,Std.TreeMap.getElem?_insert_self,Option.map_some,Game.setPlayer_self]
  rfl

theorem timerRound_aside (book : DeadPlayer.Book w) {v : World} {id : UInt32} (players : v.playerOf = w.playerOf)
    (ran : v.timerRound A id = .ok t) (other : UInt32) (differs : other ≠ id) : t.seat other = v.seat other := by
  obtain ⟨same,_,untouched⟩ := timerRound_players ran
  rw [seat,seat,(timerRound_round ran).2.2 other differs,same]
  congr 1
  cases own : v.playerOf other with
  | none => rfl
  | some address =>
    rw [Option.map_some,Option.map_some,untouched address]
    intro shared
    rw [players] at own shared
    exact differs (book_apart book other id address own shared)

theorem tick_exact (book : DeadPlayer.Book w) (running : w.game.gUniverse.timer.runTimer = true)
    (ran : w.tickEvent A = .ok t) : ∃ g,
      (w.game.moveRocks A w.game.gUniverse.timer.tick).collisionDetection A = .ok g ∧ t.game.gUniverse = g.gUniverse ∧
      ∀ id s address, w.sessionAt id = some s → s.player = some address →
        t.game.memory address = (g.memory address).tick A g.gUniverse.toSize ∧
        t.sessionAt id = some ((s.commit (s.universeBuffer A g w.gSessions.sessions)).commit
          (s.playerBuffer A (t.game.memory address) g.gUniverse.ticks)) := by
  rw [tickEvent,if_neg (by simp [running])] at ran
  obtain ⟨⟨g,sessions⟩,ticked,ran⟩ := Runs.bind_ok.mp ran
  have ran : Runs.run (timerRound A) {w with game := g, gSessions := {w.gSessions with sessions := sessions}}
    sessions.keys = .ok t := ran
  generalize started : ({w with game := g, gSessions := {w.gSessions with sessions := sessions}} : World) = v at ran
  have players : v.playerOf = w.playerOf := by
    rw [← started]
    exact gameTick_players ticked
  have game : v.game = g := by rw [← started]
  have kept : ∀ u id next, u.playerOf = w.playerOf ∧ u.game.gUniverse = g.gUniverse → timerRound A u id = .ok next →
      next.playerOf = w.playerOf ∧ next.game.gUniverse = g.gUniverse := by
    intro u id next same one
    obtain ⟨first,second,_⟩ := timerRound_players one
    exact ⟨first.trans same.1,second.trans same.2⟩
  have start : v.playerOf = w.playerOf ∧ v.game.gUniverse = g.gUniverse := ⟨players,by rw [game]⟩
  obtain ⟨changed,_⟩ := Runs.run_keys seat (fun _ => Moves A g.gUniverse.toSize g.gUniverse.ticks) _ kept
    (fun u _ _ same one => by
      have moves := timerRound_moves one
      rwa [same.2] at moves)
    (fun u _ _ same one => timerRound_aside book same.1 one) start Std.TreeMap.nodup_keys ran
  obtain ⟨owned,still⟩ := Runs.run_invariant _ kept start ran
  refine ⟨g,gameTick_ok ticked,still,fun id s address found player => ?_⟩
  have stored := sessionAt_some.mp found
  have registered : s.player ≠ none := by
    rw [player]
    exact Option.some_ne_none address
  have held : w.playerOf id = some address := (playerOf_found stored).trans player
  have told := gameTick_told ticked id s stored registered
  have here : v.entry id = some (some (s.commit (s.universeBuffer A g w.gSessions.sessions))) := by
    rw [← started]
    exact told
  have seated : v.seat id = (some (some (s.commit (s.universeBuffer A g w.gSessions.sessions))),some (g.memory address)) := by
    rw [seat,here,players,held,game]
    rfl
  have key : id ∈ sessions.keys := found_key told
  obtain ⟨entered,moved⟩ := Prod.mk.inj (changed id key _ _ seated)
  rw [owned,held,Option.map_some,Option.some.injEq] at moved
  rw [moved]
  exact ⟨rfl,sessionAt_some.mpr entered⟩

end World
end Geoff
