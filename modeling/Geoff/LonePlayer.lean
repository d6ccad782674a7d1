import Geoff.PlayerSteps
import Geoff.ShipBounds

-- The server with one player: its steps as steps of this player's ship.
namespace Geoff.LonePlayer
open Collision Collisions PlayerEvents PlayerStore RestingShip ShipBounds World

variable {A : Arith} {w t : World}

theorem requested_acts (s : Session) (g : Game) {bytes : List UInt8} {beyond : Nat → UInt8} {x : Requests.Extracted}
    (known : Session.requested bytes beyond = some x) :
    ∃ le, (s.commsHandler A g bytes beyond).1 = Requests.act A (s.setLittleEndian le) g le x := by
  obtain ⟨kind,asked,rfl⟩ := Option.map_eq_some_iff.mp known
  exact ⟨_,Requests.commsHandler_decoded A s g asked⟩

theorem lone_asks (lone : Lone w) {bytes : List UInt8} {beyond : Nat → UInt8} {x : Requests.Extracted} {g : Game}
    (known : Session.requested bytes beyond = some x)
    (acted : ∀ (s : Session) le, s.player = some 0 → Requests.act A s w.game le x = .ok (s,g))
    (timer : g.gUniverse.timer = w.game.gUniverse.timer) (kept : g.gUniverse.players = w.game.gUniverse.players) :
    ∃ t, w.step A (.onRead 0 (.message bytes beyond)) = .ok t ∧ t.game = g ∧ Lone t := by
  refine lone_handles lone (fun s own => ?_) timer kept
  obtain ⟨le,handled⟩ := requested_acts (A := A) s w.game known
  exact ⟨le,handled.trans (acted (s.setLittleEndian le) le own)⟩

-- A key or a new window size is an event of the one player.
theorem lone_plays (lone : Lone w) {bytes : List UInt8} {beyond : Nat → UInt8} {x : Requests.Extracted} {event : PlayerEvent}
    (known : Session.requested bytes beyond = some x) (single : x.events = [event]) :
    ∃ t, w.step A (.onRead 0 (.message bytes beyond)) = .ok t ∧ Lone t ∧
      t.game = w.game.setPlayer 0 (play A w.game.gUniverse.toSize (w.game.memory 0) event) := by
  have acted : ∀ (s : Session) le, s.player = some 0 → Requests.act A s w.game le x =
      .ok (s,w.game.setPlayer 0 (play A w.game.gUniverse.toSize (w.game.memory 0) event)) := by
    intro s le own
    cases x with
    | keyEvent key isDown =>
      cases single
      simp only [Requests.act,own]
      rfl
    | resizeEvent width height =>
      cases single
      simp only [Requests.act,own]
      rfl
    | registerSession w h => cases single
    | clickEvent clickX clickY => cases single
  obtain ⟨t,one,game,lone⟩ := lone_asks lone known acted rfl rfl
  exact ⟨t,one,lone,game⟩

theorem lone_owned (lone : Lone w) : w.owned 0 = true := by
  obtain ⟨s,single,own,_⟩ := lone.session
  exact owned_iff.mpr ⟨0,(playerOf_found (getElem_single single).1).trans own⟩

structure Solo (phase : Ship → Prop) (w : World) : Prop where
  lone : Lone w
  empty : w.game.gUniverse.rockField.rocks = []
  size : w.game.gUniverse.toSize = field
  made : 0 < w.game.allocated
  ship : phase (w.game.memory 0).ship

theorem solo_joined {rand : Rand} {phase : Ship → Prop} (join : Joined A rand w)
    (ship : phase (Player.make A field 800 600).ship) : Solo phase w := by
  obtain ⟨lone,empty⟩ := joined_lone join
  have fresh := Game.make_fresh A rand
  have game := join.game
  generalize Game.make A rand = first at fresh game
  have mine : w.game.memory 0 = Player.make A field 800 600 := by
    have made := Game.newPlayer_memory A first 0 800 600
    rw [fresh.allocated,fresh.size] at made
    rw [game]
    exact made
  refine ⟨lone,empty,?_,?_,by rw [mine]; exact ship⟩
  · rw [game]
    exact fresh.size
  · rw [game]
    exact Nat.succ_pos _

theorem solo_ticks (next : Ship → Prop) {phase : Ship → Prop} (solo : Solo phase w) (alive : ∀ s, phase s → s.dead = false)
    (moves : ∀ s, phase s → next (s.tickEvent A field)) : ∃ t, w.step A .tick = .ok t ∧ Solo next t := by
  obtain ⟨t,ticked,lone,empty,game⟩ := lone_drifts (A := A) solo.lone solo.empty
  refine ⟨t,ticked,lone,empty,?_,?_,?_⟩
  · rw [game]
    exact solo.size
  · rw [game]
    exact solo.made
  · rw [game,Game.setPlayer_self,tick_alive _ (alive _ solo.ship),solo.size]
    exact moves _ solo.ship

theorem solo_plays (next : Ship → Prop) {phase : Ship → Prop} (solo : Solo phase w) {bytes : List UInt8} {beyond : Nat → UInt8}
    {x : Requests.Extracted} {event : PlayerEvent} (known : Session.requested bytes beyond = some x)
    (single : x.events = [event]) (moves : ∀ p : Player, phase p.ship → next (play A field p event).ship) :
    ∃ t, w.step A (.onRead 0 (.message bytes beyond)) = .ok t ∧ Solo next t := by
  obtain ⟨t,one,lone,game⟩ := lone_plays (A := A) solo.lone known single
  refine ⟨t,one,lone,?_,?_,?_,?_⟩
  · rw [game]
    exact solo.empty
  · rw [game]
    exact solo.size
  · rw [game]
    exact solo.made
  · rw [game,Game.setPlayer_self,solo.size]
    exact moves _ solo.ship

theorem solo_events {phase : Ship → Prop} (solo : Solo phase w) :
    ∃ before, w.eventsOf A .tick 0 = before ++ [.tick] ∧ .tick ∉ before ∧
      (plays A w.game.gUniverse.toSize (w.game.memory 0) before).ship = (w.game.memory 0).ship := by
  obtain ⟨still,round⟩ := lone_round (A := A) solo.empty
  have loop : w.game.gUniverse.players.toList = [(0,some 0)] := solo.lone.players
  refine ⟨detectionEvents A 0 (w.game.moveRocks A w.game.gUniverse.timer.tick) w.game.gUniverse.players.toList,?_,?_,?_⟩
  · simp only [eventsOf,solo.lone.running,if_true,tickEvents,lone_owned solo.lone]
  · intro ticked
    obtain ⟨_,_,same⟩ := detection_rounds _ _ _ _ ticked
    cases same
  · simp only [loop,detectionEvents,round,still,if_true]
    rfl

theorem solo_moves {phase : Ship → Prop} (solo : Solo phase w) {address : Nat} {before after : List PlayerEvent}
    (split : w.eventsOf A .tick address = before ++ .tick :: after) :
    address = 0 ∧ (plays A w.game.gUniverse.toSize (w.game.memory 0) before).ship = (w.game.memory 0).ship := by
  obtain ⟨s,single,own,_⟩ := solo.lone.session
  have mine : address = 0 := by
    by_contra other
    have free : ¬ w.owned address = true := by
      intro held
      obtain ⟨id,player⟩ := owned_iff.mp held
      obtain ⟨session,found,known⟩ := playerOf_some.mp player
      have inside := Std.TreeMap.mem_toList_iff_getElem?_eq_some.mpr found
      rw [single] at inside
      cases List.mem_singleton.mp inside
      exact other (Option.some.inj (known.symm.trans own))
    have ticked : .tick ∈ w.eventsOf A .tick address := by
      rw [split]
      simp
    simp only [eventsOf,solo.lone.running,if_true,tickEvents,if_neg free,List.append_nil] at ticked
    obtain ⟨_,_,same⟩ := detection_rounds _ _ _ _ ticked
    cases same
  subst mine
  obtain ⟨events,alone,untimed,same⟩ := solo_events (A := A) solo
  rw [alone] at split
  rcases Runs.split_last.mp split with ⟨rfl,_⟩ | ⟨rest,_,more⟩
  · exact ⟨rfl,same⟩
  · exact absurd (by rw [more]; simp) untimed

end Geoff.LonePlayer
