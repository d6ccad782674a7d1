import Geoff.PlayerSteps
import Geoff.ShipBounds

-- Invariants of a player and of its ship over the runs of the server, for the window
-- sizes the browsers send.
namespace Geoff

def Requests.Extracted.Sized (ok : UInt16 → UInt16 → Prop) : Requests.Extracted → Prop
  | .registerSession w h => ok w h
  | .resizeEvent width height => ok width height
  | _ => True

def PlayerEvents.PlayerEvent.Sized (ok : UInt16 → UInt16 → Prop) : PlayerEvents.PlayerEvent → Prop
  | .resize w h => ok w h
  | _ => True

namespace Viewport
open Consts Collision PlayerEvents ShipBounds World

def Windows (ok : UInt16 → UInt16 → Prop) (w : World) (event : Event) : Prop :=
  ∀ s bytes beyond x, w.requestOf event = some (s,bytes,beyond) → Session.requested bytes beyond = some x → x.Sized ok

variable {A : Arith} {ok : UInt16 → UInt16 → Prop} {w t : World} {event : Event} {address : Nat}

theorem requestEvents_sized (windows : Windows ok w event) : ∀ e ∈ w.requestEvents event address, e.Sized ok := by
  intro e member
  obtain ⟨s,bytes,beyond,x,asked,_,known,inside⟩ := requestEvents_member member
  have sized := windows s bytes beyond x asked known
  cases x with
  | keyEvent key isDown =>
    rw [List.mem_singleton.mp inside]
    trivial
  | resizeEvent width height =>
    rw [List.mem_singleton.mp inside]
    exact sized
  | registerSession w h => exact absurd inside List.not_mem_nil
  | clickEvent clickX clickY => exact absurd inside List.not_mem_nil

theorem eventsOf_sized (windows : Windows ok w event) : ∀ e ∈ w.eventsOf A event address, e.Sized ok := by
  intro e member
  by_cases tick : event = .tick
  · subst tick
    simp only [eventsOf] at member
    split at member
    · rcases List.mem_append.mp member with struck | ticked
      · obtain ⟨_,_,rfl⟩ := detection_rounds _ _ _ e struck
        trivial
      · unfold tickEvents at ticked
        split at ticked
        · rw [List.mem_singleton.mp ticked]
          trivial
        · exact absurd ticked List.not_mem_nil
    · exact absurd member List.not_mem_nil
  · rw [eventsOf_request tick] at member
    exact requestEvents_sized windows e member

theorem before_sized (windows : Windows ok w event) {before after : List PlayerEvent} {played : PlayerEvent}
    (split : w.eventsOf A event address = before ++ played :: after) : ∀ e ∈ before, e.Sized ok := by
  intro e member
  apply eventsOf_sized windows
  rw [split]
  exact List.mem_append_left _ member

theorem windows_message {conn : Nat} {bytes : List UInt8} {beyond : Nat → UInt8}
    (sized : ∀ x, Session.requested bytes beyond = some x → x.Sized ok) (w : World) :
    Windows ok w (.onRead conn (.message bytes beyond)) := by
  intro s bytes' beyond' x asked known
  obtain ⟨found,_,same⟩ := Option.map_eq_some_iff.mp asked
  cases same
  exact sized x known

theorem windows_tick (ok : UInt16 → UInt16 → Prop) (w : World) : Windows ok w .tick := fun _ _ _ _ asked => by cases asked

theorem windows_register (standard : ok 800 600) (conn : Nat) (w : World) :
    Windows ok w (.onRead conn (.message registerRequest fun _ => 0)) := by
  have decoded : Session.requested registerRequest (fun _ => 0) = some (.registerSession 800 600) := rfl
  refine windows_message (fun x known => ?_) w
  cases decoded.symm.trans known
  exact standard

theorem windows_join (standard : ok 800 600) : ∀ event ∈ joinEvents, ∀ w, Windows ok w event := by
  intro event member w
  rcases List.mem_cons.mp member with rfl | registered
  · exact fun _ _ _ _ asked => by cases asked
  · rw [List.mem_singleton.mp registered]
    exact windows_register standard 0 w

def Registers (ok : UInt16 → UInt16 → Prop) (w : World) (event : Event) : Prop :=
  ∀ s bytes beyond cw ch, w.requestOf event = some (s,bytes,beyond) →
    Session.requested bytes beyond = some (.registerSession cw ch) → ok cw ch

theorem windows_registers (windows : Windows ok w event) : Registers ok w event :=
  fun s bytes beyond cw ch asked known => windows s bytes beyond (.registerSession cw ch) asked known

theorem step_made (registers : Registers ok w event) (ran : w.step A event = .ok t) (new : w.game.allocated ≤ address)
    (old : address < t.game.allocated) :
    ∃ cw ch, ok cw ch ∧ t.game.memory address = Player.make A w.game.gUniverse.toSize cw ch := by
  have grown : t.game.allocated ≠ w.game.allocated := by omega
  by_cases tick : event = .tick
  · subst tick
    exact absurd (tick_played ran).allocated grown
  · rcases step_request ran tick with ⟨_,same⟩ | ⟨s,s',bytes,beyond,asked,done⟩
    · exact absurd (congrArg Game.allocated same) grown
    · rcases commsHandler_requested done with ⟨_,same⟩ | ⟨x,le,known,acted⟩
      · exact absurd (congrArg Game.allocated same) grown
      · rcases act_made acted with ⟨cw,ch,registered,game⟩ | same
        · subst registered
          have here : address = w.game.allocated := by
            rw [game] at old
            simp only [Game.newPlayer] at old
            omega
          rw [game,here]
          exact ⟨cw,ch,registers s bytes beyond cw ch asked known,Game.newPlayer_memory A w.game _ cw ch⟩
        · exact absurd same grown

theorem step_registered {s : Session} {bytes : List UInt8} {beyond : Nat → UInt8} {cw ch : UInt16}
    (ran : w.step A event = .ok t) (asked : w.requestOf event = some (s,bytes,beyond))
    (known : Session.requested bytes beyond = some (.registerSession cw ch)) :
    w.game.allocated < t.game.allocated ∧
      t.game.memory w.game.allocated = Player.make A w.game.gUniverse.toSize cw ch := by
  have other : event ≠ .tick := by
    rintro rfl
    cases asked
  rcases step_request ran other with ⟨unasked,_⟩ | ⟨s₂,s',bytes₂,beyond₂,asked₂,done⟩
  · cases unasked.symm.trans asked
  · cases asked₂.symm.trans asked
    rcases commsHandler_requested done with ⟨unknown,_⟩ | ⟨x,le,known₂,acted⟩
    · cases unknown.symm.trans known
    · cases known₂.symm.trans known
      rw [Requests.act,Messages.register_built] at acted
      generalize t.game = game at acted
      cases acted
      exact ⟨Nat.lt_succ_self _,Game.newPlayer_memory A w.game _ cw ch⟩

structure Lasting (A : Arith) (ok : UInt16 → UInt16 → Prop) (good : Player → Prop) : Prop where
  made : ∀ cw ch, ok cw ch → good (Player.make A field cw ch)
  played : ∀ p (event : PlayerEvent), event.Sized ok → good p → good (play A field p event)

theorem Lasting.plays {good : Player → Prop} (lasting : Lasting A ok good) {events : List PlayerEvent}
    (sized : ∀ e ∈ events, e.Sized ok) {p : Player} (start : good p) : good (plays A field p events) := by
  induction events generalizing p with
  | nil => exact start
  | cons event rest ih =>
    obtain ⟨here,later⟩ := List.forall_mem_cons.mp sized
    exact ih later (lasting.played p event here start)

structure Served (good : Player → Prop) (w : World) : Prop where
  owned : w.Owned
  book : DeadPlayer.Book w
  size : w.game.gUniverse.toSize = field
  players : ∀ address < w.game.allocated, good (w.game.memory address)

theorem served_step {good : Player → Prop} (lasting : Lasting A ok good) (served : Served good w)
    (windows : Windows ok w event) (ran : w.step A event = .ok t) : Served good t := by
  refine ⟨owned_step served.owned ran,DeadPlayer.book_step served.owned served.book ran,
    (step_universe ran).1.trans served.size,fun address old => ?_⟩
  by_cases known : address < w.game.allocated
  · rw [step_plays served.book ran known,served.size]
    exact lasting.plays (eventsOf_sized windows) (served.players address known)
  · obtain ⟨cw,ch,sized,made⟩ := step_made (windows_registers windows) ran (Nat.le_of_not_lt known) old
    rw [made,served.size]
    exact lasting.made cw ch sized

theorem served_make (good : Player → Prop) (rand : Rand) : Served good (World.make A rand) := by
  have fresh := Game.make_fresh A rand
  rw [← World.make_game A rand] at fresh
  exact ⟨owned_make A rand,DeadPlayer.book_make A rand,fresh.size,fun address old =>
    absurd old (by rw [fresh.allocated]; exact Nat.not_lt_zero _)⟩

theorem served_run {good : Player → Prop} (lasting : Lasting A ok good) {rand : Rand} {history : List Event}
    (windows : Runs.Steps (World.step A) (Windows ok) (World.make A rand) history)
    (ran : Runs.run (World.step A) (World.make A rand) history = .ok w) : Served good w := by
  have start : Served good (World.make A rand) := served_make good rand
  generalize World.make A rand = first at start windows ran
  exact Runs.run_among (fun _ _ _ served windows one => served_step lasting served windows one) start windows ran

theorem windows_any (w : World) (event : Event) : Windows (fun _ _ => True) w event := by
  intro _ _ _ x _ _
  cases x with
  | registerSession w h => trivial
  | resizeEvent width height => trivial
  | keyEvent key isDown => trivial
  | clickEvent clickX clickY => trivial

theorem served_always {good : Player → Prop} (lasting : Lasting A (fun _ _ => True) good) (rand : Rand)
    (history : List Event) : Runs.Always (World.step A) (Served good) (World.make A rand) history := by
  have start : Served good (World.make A rand) := served_make good rand
  generalize World.make A rand = first at start
  exact Runs.always_invariant (fun w event t served one => served_step lasting served (windows_any w event) one) start history

end Viewport

namespace ShipRuns
open Consts Collision PlayerEvents ShipBounds Viewport

-- A ship without what the keys, the bullets, the explosions and the count of lives write
-- to. An invariant about the rest is indifferent to them.
def trim (s : Ship) : Ship :=
  {s with
    gun := ⟨[]⟩,
    explosionDuration := 0,
    livesLeft := 0,
    thrusting := false,
    left := false,
    right := false,
    exploding := false,
    dead := false}

variable (A : Arith)

def shield (s : Ship) : Ship :=
  let s := {s with invDuration := A.fl (s.invDuration - A.fl (1 / fps))}
  if s.invDuration < 0 then {s with invulnerable := false} else s.blink A

structure Seaworthy (ok : UInt16 → UInt16 → Prop) (good : Ship → Prop) : Prop where
  made : ∀ cw ch, ok cw ch → good (Player.make A field cw ch).ship
  trimmed : ∀ s s', trim s' = trim s → good s → good s'
  resized : ∀ s w h, ok w h → good s → good (s.resizeEvent A field w h)
  stopped : ∀ s, good s → good s.explode
  reborn : ∀ s, good s → s.livesLeft ≠ 0 → good (s.newLife A)
  moved : ∀ s, good s → s.exploding = false → s.dead = false → good (s.moveShip A field)
  shielded : ∀ s, good s → s.invulnerable = true → good (shield A s)

variable {A} {ok : UInt16 → UInt16 → Prop} {good : Ship → Prop}

theorem shield_writes (s : Ship) : ∃ invDuration invulnerable visible blinkTime blinkNum, shield A s =
    {s with
      invDuration := invDuration,
      invulnerable := invulnerable,
      visible := visible,
      blinkTime := blinkTime,
      blinkNum := blinkNum} := by
  simp only [shield]
  split
  · exact ⟨_,_,_,_,_,rfl⟩
  · obtain ⟨visible,blinkTime,blinkNum,blinked⟩ :=
      Ship.blink_writes A {s with invDuration := A.fl (s.invDuration - A.fl (1 / fps))}
    rw [blinked]
    exact ⟨_,_,_,_,_,rfl⟩

theorem Seaworthy.newLife (sound : Seaworthy A ok good) {s : Ship} (start : good s) : good (s.newLife A) := by
  by_cases left : s.livesLeft = 0
  · unfold Ship.newLife
    rw [if_neg (not_not.mpr left)]
    apply sound.trimmed s
    · rfl
    · exact start
  · exact sound.reborn s start left

theorem Seaworthy.key (sound : Seaworthy A ok good) {p : Player} (start : good p.ship) (code : Nat) (isDown : Bool) :
    good (p.keyEvent A code isDown).ship := by
  have keyed : good (p.ship.keyEvent A code isDown) := by
    apply sound.trimmed p.ship
    · rcases p.ship.keyEvent_cases A code isDown with ⟨_,_,_,same⟩ | ⟨_,same⟩
      · rw [same]
        rfl
      · rw [same]
        rfl
    · exact start
  simp only [Player.keyEvent]
  split
  · split
    · have alive : good {p.ship.keyEvent A code isDown with dead := false, livesLeft := 1} := by
        apply sound.trimmed (p.ship.keyEvent A code isDown)
        · rfl
        · exact keyed
      have reborn := sound.newLife alive
      show good ((p.ship.keyEvent A code isDown).resurrect A)
      apply sound.trimmed (({p.ship.keyEvent A code isDown with dead := false, livesLeft := 1} : Ship).newLife A)
      · rfl
      · exact reborn
    · exact keyed
  · exact keyed

theorem Seaworthy.scanned (sound : Seaworthy A ok good) {s s' : Ship} (start : good s) (scanned : Scanned s s') : good s' := by
  obtain ⟨bullets,_,rfl | ⟨_,_,rfl⟩⟩ := scanned
  · exact sound.trimmed s _ rfl start
  · apply sound.stopped
    exact sound.trimmed s _ rfl start

theorem Seaworthy.ticked (sound : Seaworthy A ok good) {s : Ship} (start : good s) (alive : s.dead = false) :
    good (s.tickEvent A field) := by
  have moved : good (s.moveShip A field) := by
    cases blast : s.exploding with
    | true =>
      rw [Ship.moveShip,if_pos (by rw [blast]; rfl)]
      exact start
    | false => exact sound.moved s start blast alive
  simp only [Ship.tickEvent]
  generalize s.moveShip A field = m at moved
  have shot : good {m with gun := m.gun.tickEvent A field} := sound.trimmed m _ rfl moved
  split
  · split
    · apply sound.newLife
      exact sound.trimmed m _ rfl moved
    · exact sound.trimmed m _ rfl moved
  · split
    · rename_i shields
      exact sound.shielded _ shot shields
    · exact shot

theorem Seaworthy.lasting (sound : Seaworthy A ok good) : Lasting A ok (fun p => good p.ship) where
  made := sound.made
  played := by
    intro p event sized start
    cases event with
    | key code isDown => exact sound.key start code isDown
    | resize w h => exact sound.resized p.ship w h sized start
    | collide rocks score => exact sound.scanned start (scanRocks_scanned rocks p.ship)
    | tick =>
      show good (p.tick A field).ship
      cases dead : p.ship.dead with
      | true =>
        rw [tick_dead field dead]
        exact start
      | false =>
        rw [tick_alive field dead]
        exact sound.ticked start dead

end ShipRuns
end Geoff
