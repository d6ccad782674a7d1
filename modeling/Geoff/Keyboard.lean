import Geoff.ScanMeaning
import Geoff.ShipRuns

-- The keys held at a browser against the controls of its ship on the server, with the
-- requests under way between the two.
namespace Geoff.Keyboard
open Collision PlayerEvents Requests World

inductive Control where
  | left
  | right
  | thrust
deriving DecidableEq, Repr

def control (key : Nat) : Option Control :=
  if key = 65 ∨ key = 37 then some .left
  else if key = 68 ∨ key = 39 then some .right
  else if key = 73 ∨ key = 87 ∨ key = 38 then some .thrust
  else none

abbrev Controls := Control → Bool

def controls (s : Ship) : Controls
  | .left => s.left
  | .right => s.right
  | .thrust => s.thrusting

def released : Controls := fun _ => false

def press (key : Nat) (isDown : Bool) (c : Controls) : Controls :=
  match control key with
  | some k => Function.update c k isDown
  | none => c

section Ships
variable {A : Arith} {u : Size}

theorem keyEvent_controls (s : Ship) (key : Nat) (isDown : Bool) :
    controls (s.keyEvent A key isDown) = press key isDown (controls s) := by
  unfold Ship.keyEvent press control
  split
  · funext k
    cases k <;> simp [controls]
  · split
    · funext k
      cases k <;> simp [controls]
    · split
      · funext k
        cases k <;> simp [controls]
      · split
        · split <;> rfl
        · rfl

theorem newLife_controls (s : Ship) : controls (s.newLife A) = controls s := by
  unfold Ship.newLife
  split <;> rfl

theorem keyed_controls (p : Player) (key : Nat) (isDown : Bool) :
    controls (p.keyEvent A key isDown).ship = press key isDown (controls p.ship) := by
  rw [← keyEvent_controls (A := A)]
  unfold Player.keyEvent
  dsimp only
  split
  · split
    · exact newLife_controls _
    · rfl
  · rfl

theorem blink_controls (s : Ship) : controls (s.blink A) = controls s := by
  obtain ⟨_,_,_,blinks⟩ := Ship.blink_writes (A := A) s
  rw [blinks]
  rfl

theorem tickEvent_controls (s : Ship) : controls (s.tickEvent A u) = controls s := by
  have moved : controls (s.moveShip A u) = controls s := by
    obtain ⟨_,_,_,_,_,steered⟩ := Ship.moveShip_steered A u s
    rw [steered]
    rfl
  unfold Ship.tickEvent
  dsimp only
  split
  · split
    · exact (newLife_controls _).trans moved
    · exact moved
  · split
    · split
      · exact moved
      · exact (blink_controls _).trans moved
    · exact moved

theorem scanned_controls (rocks : List RockNode) (s : Ship) : controls (scanRocks A rocks s).1 = controls s := by
  rw [ScanMeaning.scanRocks_ship]
  split <;> rfl

def steer (c : Controls) : PlayerEvent → Controls
  | .key code isDown => press code isDown c
  | _ => c

theorem play_controls (p : Player) (event : PlayerEvent) : controls (play A u p event).ship = steer (controls p.ship) event := by
  cases event with
  | key code isDown => exact keyed_controls p code isDown
  | resize w h => rfl
  | collide rocks score => exact scanned_controls rocks p.ship
  | tick =>
    simp only [play,steer]
    cases life : p.ship.dead with
    | true => rw [tick_dead u life]
    | false => rw [tick_alive u life,tickEvent_controls]

theorem plays_controls (p : Player) (events : List PlayerEvent) :
    controls (plays A u p events).ship = events.foldl steer (controls p.ship) := by
  induction events generalizing p with
  | nil => rfl
  | cons event rest ih =>
    rw [List.foldl_cons,← play_controls]
    exact ih _

theorem unsteered {events : List PlayerEvent} (other : ∀ code isDown, .key code isDown ∉ events) (c : Controls) :
    events.foldl steer c = c := by
  induction events with
  | nil => rfl
  | cons event rest ih =>
    have same : steer c event = c := by
      cases event with
      | key code isDown => exact absurd List.mem_cons_self (other code isDown)
      | resize => rfl
      | collide => rfl
      | tick => rfl
    rw [List.foldl_cons,same]
    exact ih fun code isDown member => other code isDown (List.mem_cons_of_mem _ member)

theorem make_controls (w h : UInt16) : controls (Player.make A u w h).ship = released := by
  funext k
  cases k <;> rfl

end Ships

def heed (c : Option Controls) : Extracted → Option Controls
  | .registerSession _ _ => some released
  | .keyEvent key isDown => c.map (press key.toNat isDown)
  | _ => c

def hear (c : Option Controls) : Option (List UInt8 × (Nat → UInt8)) → Option Controls
  | some (bytes,beyond) => ((Session.requested bytes beyond).map (heed c)).getD c
  | none => c

def controlsAt (w : World) (id : UInt32) : Option Controls :=
  (w.playerOf id).map fun address => controls (w.game.memory address).ship

section Steps
variable {A : Arith} {w t : World} {event : Event} {id : UInt32}

theorem playerOf_sessionAt (w : World) (id : UInt32) : w.playerOf id = (w.sessionAt id).bind Session.player := by
  rw [World.playerOf,Geoff.playerOf,sessionAt,entry]
  cases w.gSessions.sessions[id]? with
  | none => rfl
  | some v => rfl

theorem requestOf_messageFor {s : Session} {bytes : List UInt8} {beyond : Nat → UInt8}
    (asked : w.messageFor event id = some (bytes,beyond)) (held : w.sessionAt id = some s) :
    w.requestOf event = some (s,bytes,beyond) := by
  unfold messageFor at asked
  split at asked
  · split at asked
    · rename_i c member
      split at asked
      · rename_i own
        cases asked
        simp [requestOf,member,own,held]
      · cases asked
    · cases asked
  · cases asked

theorem messageFor_requestOf {s : Session} {bytes : List UInt8} {beyond : Nat → UInt8} {address : Nat}
    (book : DeadPlayer.Book w) (asked : w.requestOf event = some (s,bytes,beyond)) (owner : s.player = some address)
    (player : w.playerOf id = some address) : w.messageFor event id = some (bytes,beyond) := by
  unfold requestOf at asked
  split at asked
  · rename_i conn read past
    cases member : w.conns[conn]? with
    | none => simp [member] at asked
    | some c =>
      simp only [member,Option.bind_some,Option.map_eq_some_iff,Prod.mk.injEq] at asked
      obtain ⟨s',found,rfl,rfl,rfl⟩ := asked
      have other : w.playerOf c.sessionID = some address := by
        rw [playerOf_sessionAt,found]
        exact owner
      simp [messageFor,member,book_apart book _ _ address other player]
  · cases asked

theorem unasked_unsteered (book : DeadPlayer.Book w) {address : Nat} (player : w.playerOf id = some address)
    (unasked : w.messageFor event id = none) (code : Nat) (isDown : Bool) :
    .key code isDown ∉ w.eventsOf A event address := by
  intro member
  by_cases tick : event = .tick
  · subst tick
    simp only [eventsOf] at member
    split at member
    · rcases List.mem_append.mp member with round | ticked
      · obtain ⟨rocks,score,impossible⟩ := detection_rounds address _ _ _ round
        cases impossible
      · unfold tickEvents at ticked
        split at ticked
        · cases List.mem_singleton.mp ticked
        · exact absurd ticked List.not_mem_nil
    · exact absurd member List.not_mem_nil
  · rw [eventsOf_request tick] at member
    obtain ⟨s,bytes,beyond,x,asked,owner,_,_⟩ := requestEvents_member member
    cases unasked.symm.trans (messageFor_requestOf book asked owner player)

theorem kept_controls (book : DeadPlayer.Book w) (ran : w.step A event = .ok t) {address : Nat}
    (player : w.playerOf id = some address) : controls (t.game.memory address).ship =
      (w.eventsOf A event address).foldl steer (controls (w.game.memory address).ship) := by
  obtain ⟨_,same,bound⟩ := book.issued id _ (book.own id address player)
  cases same
  rw [step_plays book ran bound,plays_controls]

theorem heed_events {x : Extracted} (other : ∀ w h, x ≠ .registerSession w h) (c : Controls) :
    heed (some c) x = some (x.events.foldl steer c) := by
  cases x with
  | registerSession w h => exact absurd rfl (other w h)
  | clickEvent => rfl
  | keyEvent => rfl
  | resizeEvent => rfl

theorem heed_none {x : Extracted} (other : ∀ w h, x ≠ .registerSession w h) : heed none x = none := by
  cases x with
  | registerSession w h => exact absurd rfl (other w h)
  | clickEvent => rfl
  | keyEvent => rfl
  | resizeEvent => rfl

theorem requested_register {bytes : List UInt8} {beyond : Nat → UInt8} :
    (∃ w h, Session.requested bytes beyond = some (.registerSession w h)) ↔
      Session.asked bytes beyond = some .registerSession := by
  unfold Session.requested
  cases Session.asked bytes beyond with
  | none => simp
  | some kind =>
    cases kind with
    | registerSession => exact ⟨fun _ => rfl,fun _ => ⟨_,_,rfl⟩⟩
    | clickEvent => exact ⟨fun ⟨_,_,same⟩ => (by cases same),fun same => (by cases same)⟩
    | keyEvent => exact ⟨fun ⟨_,_,same⟩ => (by cases same),fun same => (by cases same)⟩
    | resizeEvent => exact ⟨fun ⟨_,_,same⟩ => (by cases same),fun same => (by cases same)⟩

theorem answered_pointer (A : Arith) (s : Session) (g : Game) (bytes : List UInt8) (beyond : Nat → UInt8) :
    (s.answered A g bytes beyond).player =
      if Session.asked bytes beyond = some .registerSession then some g.allocated else s.player := by
  have noted : (s.noted bytes).player = s.player := by
    rw [Session.noted]
    split <;> rfl
  rw [Session.answered,← noted]
  split <;> rfl

theorem step_controls (book : DeadPlayer.Book w) (ran : w.step A event = .ok t) (id : UInt32) :
    controlsAt t id = none ∨ controlsAt t id = hear (controlsAt w id) (w.messageFor event id) := by
  cases held : t.sessionAt id with
  | none => exact .inl (by rw [controlsAt,playerOf_sessionAt,held]; rfl)
  | some s' =>
    have pointer : t.playerOf id = s'.player := by rw [playerOf_sessionAt,held]; rfl
    cases step_origin ran held with
    | accepted _ _ => exact .inl (by rw [controlsAt,pointer]; rfl)
    | @waited s found unasked _ _ queue =>
      have before : w.playerOf id = s.player := by rw [playerOf_sessionAt,sessionAt_some.mpr found]; rfl
      refine .inr ?_
      rw [unasked,hear,controlsAt,controlsAt,pointer,Session.withQueue_player,before]
      cases player : s.player with
      | none => rfl
      | some address =>
        have kept := kept_controls book ran (before.trans player)
        rw [unsteered (unasked_unsteered book (before.trans player) unasked)] at kept
        exact congrArg some kept
    | @ticked s _ found now running tick =>
      have before : w.playerOf id = s.player := by rw [playerOf_sessionAt,sessionAt_some.mpr found]; rfl
      have unasked : w.messageFor event id = none := by rw [now]; rfl
      refine .inr ?_
      rw [unasked,hear,controlsAt,controlsAt,before]
      cases player : s.player with
      | none =>
        rw [pointer,tick.unregistered player,player]
        rfl
      | some address =>
        obtain ⟨g,first,second,_,_,_,same⟩ := tick.registered (by simp [player])
        have kept := kept_controls book ran (before.trans player)
        rw [unsteered (unasked_unsteered book (before.trans player) unasked)] at kept
        rw [pointer,same]
        simp only [Session.commit,player]
        exact congrArg some kept
    | @answered s found bytes beyond asked queue =>
      have before : w.playerOf id = s.player := by rw [playerOf_sessionAt,sessionAt_some.mpr found]; rfl
      have request := requestOf_messageFor asked (sessionAt_some.mpr found)
      have untimed : event ≠ .tick := fun tick => by rw [tick] at asked; cases asked
      refine .inr ?_
      rw [asked,hear]
      by_cases register : Session.asked bytes beyond = some .registerSession
      · obtain ⟨cw,ch,known⟩ := requested_register.mpr register
        obtain ⟨_,made⟩ := Viewport.step_registered ran request known
        rw [known,controlsAt,pointer,Session.withQueue_player,answered_pointer,if_pos register]
        exact congrArg some ((congrArg (fun p => controls p.ship) made).trans (make_controls cw ch))
      · have pointed : t.playerOf id = s.player := by
          rw [pointer,Session.withQueue_player,answered_pointer,if_neg register]
        have other : ∀ x, Session.requested bytes beyond = some x → ∀ cw ch, x ≠ .registerSession cw ch :=
          fun x known cw ch same => register (requested_register.mp ⟨cw,ch,by rw [known,same]⟩)
        rw [controlsAt,controlsAt,pointed,before]
        cases player : s.player with
        | none =>
          cases known : Session.requested bytes beyond with
          | none => rfl
          | some x => exact (heed_none (other x known)).symm
        | some address =>
          have kept := kept_controls book ran (before.trans player)
          rw [eventsOf_request untimed] at kept
          simp only [requestEvents,request,player,if_true] at kept
          cases known : Session.requested bytes beyond with
          | none =>
            rw [known] at kept
            exact congrArg some kept
          | some x =>
            rw [known] at kept
            exact (congrArg some kept).trans (heed_events (other x known) _).symm

end Steps

-- A page of GameFace.js once its socket is open: the table keysPressed, and the calls
-- whose requests are under way to the server, oldest first.
structure Desk where
  world : World
  keysPressed : Nat → Bool
  pipe : List Call

-- `again` is event.repeat.
inductive Input where
  | keydown (keyCode : Nat) (again : Bool)
  | keyup (keyCode : Nat)
  | resize (sessionID : Option ℚ) (width height : ℚ)
  | click (sessionID : Option ℚ) (clientX clientY : ℚ)
  | server (event : Event)

namespace Desk

def send (d : Desk) (call : Call) : Desk := {d with pipe := d.pipe ++ [call]}

def onKeydown (d : Desk) (keyCode : Nat) (again : Bool) : Desk :=
  let d := {d with keysPressed := Function.update d.keysPressed keyCode true}
  if again then d else d.send (.processKeyEvent keyCode true)

def onKeyup (d : Desk) (keyCode : Nat) : Desk :=
  let d := {d with keysPressed := Function.update d.keysPressed keyCode false}
  d.send (.processKeyEvent keyCode false)

def onServer (A : Arith) (p : GameFace.Platform) (id : UInt32) (d : Desk) (event : Event) : Except Fault Desk :=
  match d.world.messageFor event id,d.pipe with
  | none,_ => do
    let world ← d.world.step A event
    return {d with world := world}
  | some (bytes,_),call :: rest =>
    if bytes = call.bytes p then do
      let world ← d.world.step A event
      return {d with world := world, pipe := rest}
    else .error .notPending
  | some _,[] => .error .notPending

def step (A : Arith) (p : GameFace.Platform) (id : UInt32) (d : Desk) : Input → Except Fault Desk
  | .keydown keyCode again => .ok (d.onKeydown keyCode again)
  | .keyup keyCode => .ok (d.onKeyup keyCode)
  | .resize sessionID width height => .ok (d.send (.onResize sessionID width height))
  | .click sessionID clientX clientY => .ok (d.send (.onClick sessionID clientX clientY))
  | .server event => d.onServer A p id event

end Desk

def settle (c : Option Controls) (calls : List Call) : Option Controls := calls.foldl (fun c call => heed c call.found) c

def controlOf (keyCode : Nat) : Option Control := control (toUint8 keyCode).toNat

def Holds (keysPressed : Nat → Bool) (k : Control) : Prop := ∃ code, keysPressed code = true ∧ controlOf code = some k

def Desk.settled (d : Desk) (id : UInt32) : Option Controls := settle (controlsAt d.world id) d.pipe

-- The ship is steered by the keys held, or will be once the requests have come in.
def Agreed (id : UInt32) (d : Desk) : Prop := ∀ c, d.settled id = some c → ∀ k, c k = true ↔ Holds d.keysPressed k

-- An auto-repeat starts no control, and no key is let go while another one of its control
-- is held; a page that has no ship may do either.
def Spares (id : UInt32) (d : Desk) : Input → Prop
  | .keydown keyCode again => again = true → d.settled id ≠ none → ∀ k, controlOf keyCode = some k → Holds d.keysPressed k
  | .keyup keyCode => d.settled id ≠ none → ∀ k, controlOf keyCode = some k →
      ∀ other, other ≠ keyCode → d.keysPressed other = true → controlOf other ≠ some k
  | _ => True

theorem press_down {key : Nat} {c : Controls} {k : Control} :
    press key true c k = true ↔ control key = some k ∨ c k = true := by
  unfold press
  cases held : control key with
  | none => simp
  | some own =>
    by_cases same : k = own
    · subst same; simp
    · simp [Function.update_of_ne same,Ne.symm same]

theorem press_up {key : Nat} {c : Controls} {k : Control} :
    press key false c k = true ↔ control key ≠ some k ∧ c k = true := by
  unfold press
  cases held : control key with
  | none => simp
  | some own =>
    by_cases same : k = own
    · subst same; simp
    · simp [Function.update_of_ne same,Ne.symm same]

theorem holds_down {keys : Nat → Bool} {keyCode : Nat} {k : Control} :
    Holds (Function.update keys keyCode true) k ↔ controlOf keyCode = some k ∨ Holds keys k := by
  constructor
  · rintro ⟨code,held,own⟩
    by_cases same : code = keyCode
    · subst same
      exact .inl own
    · rw [Function.update_of_ne same] at held
      exact .inr ⟨code,held,own⟩
  · rintro (own | ⟨code,held,own⟩)
    · exact ⟨keyCode,Function.update_self ..,own⟩
    · refine ⟨code,?_,own⟩
      by_cases same : code = keyCode
      · subst same
        exact Function.update_self ..
      · rwa [Function.update_of_ne same]

theorem holds_up {keys : Nat → Bool} {keyCode : Nat} {k : Control} :
    Holds (Function.update keys keyCode false) k ↔ ∃ other, other ≠ keyCode ∧ keys other = true ∧ controlOf other = some k := by
  constructor
  · rintro ⟨code,held,own⟩
    have apart : code ≠ keyCode := by
      rintro rfl
      simp at held
    rw [Function.update_of_ne apart] at held
    exact ⟨code,apart,held,own⟩
  · rintro ⟨code,apart,held,own⟩
    exact ⟨code,by rwa [Function.update_of_ne apart],own⟩

theorem settle_append (c : Option Controls) (calls : List Call) (last : Call) :
    settle c (calls ++ [last]) = heed (settle c calls) last.found := by
  rw [settle,settle,List.foldl_append]
  rfl

theorem settle_none {calls : List Call} {c : Controls} (fresh : settle none calls = some c) (before : Option Controls) :
    settle before calls = some c := by
  induction calls generalizing before with
  | nil => cases fresh
  | cons call rest ih =>
    unfold settle at fresh ⊢
    rw [List.foldl_cons] at fresh ⊢
    cases call with
    | registerClient => exact fresh
    | onResize => exact ih fresh _
    | processKeyEvent => exact ih fresh _
    | onClick => exact ih fresh _

theorem call_requested (p : GameFace.Platform) (call : Call) (beyond : Nat → UInt8) :
    Session.requested (call.bytes p) beyond = some call.found := by
  rw [Session.requested,call_asked]
  exact congrArg some (call_found p call beyond)

section Desks
variable {A : Arith} {p : GameFace.Platform} {id : UInt32} {d next : Desk}

theorem keydown_exact {keyCode : Nat} {again : Bool} (agreed : Agreed id d) :
    Agreed id (d.onKeydown keyCode again) ↔ Spares id d (.keydown keyCode again) := by
  cases again with
  | false =>
    refine ⟨fun _ impossible => (by cases impossible),fun _ c settled k => ?_⟩
    have sent : (d.onKeydown keyCode false).settled id = heed (d.settled id) (Call.processKeyEvent keyCode true).found :=
      settle_append _ _ _
    rw [sent] at settled
    obtain ⟨before,held,rfl⟩ := Option.map_eq_some_iff.mp settled
    have keys : (d.onKeydown keyCode false).keysPressed = Function.update d.keysPressed keyCode true := rfl
    rw [keys,holds_down,press_down,agreed before held k]
    rfl
  | true =>
    have still : (d.onKeydown keyCode true).settled id = d.settled id := rfl
    have keys : (d.onKeydown keyCode true).keysPressed = Function.update d.keysPressed keyCode true := rfl
    constructor
    · intro after _ served k own
      obtain ⟨c,settled⟩ := Option.ne_none_iff_exists'.mp served
      have there := (after c (still.trans settled) k).mpr (by rw [keys,holds_down]; exact .inl own)
      exact (agreed c settled k).mp there
    · intro spares c settled k
      rw [still] at settled
      rw [keys,holds_down,agreed c settled k]
      constructor
      · intro held
        exact .inr held
      · rintro (own | held)
        · exact spares rfl (by simp [settled]) k own
        · exact held

theorem keyup_exact {keyCode : Nat} (agreed : Agreed id d) :
    Agreed id (d.onKeyup keyCode) ↔ Spares id d (.keyup keyCode) := by
  have sent : (d.onKeyup keyCode).settled id = heed (d.settled id) (Call.processKeyEvent keyCode false).found :=
    settle_append _ _ _
  have keys : (d.onKeyup keyCode).keysPressed = Function.update d.keysPressed keyCode false := rfl
  constructor
  · intro after served k own other apart held same
    obtain ⟨c,settled⟩ := Option.ne_none_iff_exists'.mp served
    have let_go := (after _ (by rw [sent,settled]; rfl) k).mpr (by rw [keys,holds_up]; exact ⟨other,apart,held,same⟩)
    exact (press_up.mp let_go).1 own
  · intro spares c settled k
    rw [sent] at settled
    obtain ⟨before,held,rfl⟩ := Option.map_eq_some_iff.mp settled
    rw [keys,holds_up,press_up,agreed before held k]
    constructor
    · rintro ⟨other,code,down,own⟩
      refine ⟨code,?_,down,own⟩
      rintro rfl
      exact other own
    · rintro ⟨code,apart,down,own⟩
      refine ⟨fun mine => ?_,code,down,own⟩
      exact spares (by simp [held]) k mine code apart down own

theorem server_agreed {event : Event} (book : DeadPlayer.Book d.world) (agreed : Agreed id d)
    (ran : d.onServer A p id event = .ok next) : Agreed id next := by
  unfold Desk.onServer at ran
  split at ran
  · rename_i unasked
    obtain ⟨t,one,result⟩ := Runs.bind_ok.mp ran
    cases result
    intro c settled
    refine agreed c ?_
    rcases step_controls book one id with gone | heard
    · exact settle_none (by rw [← gone]; exact settled) _
    · rw [unasked] at heard
      have same : controlsAt t id = controlsAt d.world id := heard
      rw [Desk.settled,← same]
      exact settled
  · rename_i bytes beyond call rest asked pipe
    split at ran
    · rename_i sent
      obtain ⟨t,one,result⟩ := Runs.bind_ok.mp ran
      cases result
      intro c settled
      have before : d.settled id = settle (heed (controlsAt d.world id) call.found) rest := by
        rw [Desk.settled,pipe]
        rfl
      refine agreed c (before.trans ?_)
      rcases step_controls book one id with gone | heard
      · exact settle_none (by rw [← gone]; exact settled) _
      · rw [asked,hear,sent,call_requested] at heard
        rw [Desk.settled,heard] at settled
        exact settled
    · cases ran
  · cases ran

theorem server_world {event : Event} (ran : d.onServer A p id event = .ok next) : d.world.step A event = .ok next.world := by
  unfold Desk.onServer at ran
  split at ran
  · obtain ⟨t,one,result⟩ := Runs.bind_ok.mp ran
    cases result
    exact one
  · split at ran
    · obtain ⟨t,one,result⟩ := Runs.bind_ok.mp ran
      cases result
      exact one
    · cases ran
  · cases ran

def Kept (d : Desk) : Prop := d.world.Owned ∧ DeadPlayer.Book d.world

theorem step_kept {input : Input} (kept : Kept d) (ran : d.step A p id input = .ok next) : Kept next := by
  cases input with
  | server event =>
    have one := server_world ran
    exact ⟨owned_step kept.1 one,DeadPlayer.book_step kept.1 kept.2 one⟩
  | keydown keyCode again =>
    cases ran
    unfold Desk.onKeydown
    dsimp only
    split <;> exact kept
  | keyup keyCode => cases ran; exact kept
  | resize sessionID width height => cases ran; exact kept
  | click sessionID clientX clientY => cases ran; exact kept

theorem step_exact {input : Input} (kept : Kept d) (agreed : Agreed id d) (ran : d.step A p id input = .ok next) :
    Agreed id next ↔ Spares id d input := by
  -- a request other than a key's leaves the controls as they were
  have aside : ∀ call : Call, (∀ c, heed c call.found = c) → Agreed id (d.send call) := by
    intro call idle c settled
    have sent : (d.send call).settled id = heed (d.settled id) call.found := settle_append _ _ _
    rw [sent,idle] at settled
    exact agreed c settled
  cases input with
  | server event => exact ⟨fun _ => trivial,fun _ => server_agreed kept.2 agreed ran⟩
  | keydown keyCode again => cases ran; exact keydown_exact agreed
  | keyup keyCode => cases ran; exact keyup_exact agreed
  | resize sessionID width height => cases ran; exact ⟨fun _ => trivial,fun _ => aside _ fun _ => rfl⟩
  | click sessionID clientX clientY => cases ran; exact ⟨fun _ => trivial,fun _ => aside _ fun _ => rfl⟩

theorem start_agreed (w : World) (keys : Nat → Bool) (width height : ℚ) :
    Agreed id ⟨w,keys,[.registerClient width height]⟩ ↔ ∀ k, ¬ Holds keys k := by
  have settled : (⟨w,keys,[.registerClient width height]⟩ : Desk).settled id = some released := rfl
  constructor
  · intro agreed k held
    have down := (agreed released settled k).mpr held
    cases down
  · intro free c same k
    cases settled.symm.trans same
    exact ⟨fun impossible => (by cases impossible),fun held => absurd held (free k)⟩

end Desks

-- From the moment a page registers, whatever the server and other browsers do, its ship
-- is steered by the keys held exactly as long as every event of the keyboard spares that.
theorem keys_steer_iff (A : Arith) (p : GameFace.Platform) (rand : Rand) (before : List Event) {w : World}
    (ran : Runs.run (World.step A) (World.make A rand) before = .ok w) (id : UInt32)
    (keys : Nat → Bool) (width height : ℚ) (inputs : List Input) :
    Runs.Always (Desk.step A p id) (Agreed id) ⟨w,keys,[.registerClient width height]⟩ inputs ↔
      (∀ k, ¬ Holds keys k) ∧ Runs.Steps (Desk.step A p id) (Spares id) ⟨w,keys,[.registerClient width height]⟩ inputs := by
  have exactly : Agreed id ⟨w,keys,[.registerClient width height]⟩ →
      (Runs.Always (Desk.step A p id) (Agreed id) ⟨w,keys,[.registerClient width height]⟩ inputs ↔
        Runs.Steps (Desk.step A p id) (Spares id) ⟨w,keys,[.registerClient width height]⟩ inputs) := fun start =>
    Runs.always_iff_steps Kept (fun _ _ _ kept one => step_kept kept one)
      (fun _ _ _ kept agreed one => step_exact kept agreed one) (DeadPlayer.book_run ran) start inputs
  rw [← start_agreed w keys width height]
  constructor
  · intro always
    exact ⟨always.here,(exactly always.here).mp always⟩
  · rintro ⟨start,steps⟩
    exact (exactly start).mpr steps

-- The arrow and W both thrust: letting go of one ends the thrust of the other.
theorem two_keys_disagree : ¬ Runs.Always (Desk.step .upright .little 0) (Agreed 0)
    ⟨World.make .upright .zeros,fun _ => false,[.registerClient 800 600]⟩ [.keydown 38 false,.keydown 87 false,.keyup 38] := by
  have start : Runs.run (World.step .upright) (World.make .upright .zeros) [] = .ok (World.make .upright .zeros) := rfl
  rw [keys_steer_iff .upright .little .zeros [] start]
  rintro ⟨_,steps⟩
  have first := (Runs.steps_cons rfl).mp steps
  have second := (Runs.steps_cons rfl).mp first.2
  have third := (Runs.steps_cons rfl).mp second.2
  exact third.1 (Option.some_ne_none _) .thrust rfl 87 (by decide) rfl rfl

end Geoff.Keyboard
