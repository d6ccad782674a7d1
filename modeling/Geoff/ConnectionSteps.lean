import Geoff.SessionSteps

-- An event of a connection as what it makes of the connection's object, of the entry of
-- its session and of the game; it reaches nothing else.
namespace Geoff
open World

variable {A : Arith}

inductive Deed where
  | idle
  | join (sessionID : UInt32) (w h : UInt16)
  | steer (address : Nat) (change : Size → Player → Player)
  | launch (address : Nat) (clickX clickY : UInt16)

namespace Deed

def apply (A : Arith) (g : Game) : Deed → Game
  | .idle => g
  | .join sessionID w h => g.newPlayer A sessionID w h
  | .steer address change => g.setPlayer address (change g.gUniverse.toSize (g.memory address))
  | .launch address clickX clickY => g.launchRock A ((g.memory address).clickPoint clickX clickY)

def player : Deed → Option Nat
  | .steer address _ => some address
  | .launch address _ _ => some address
  | _ => none

def joins : Deed → Bool
  | .join _ _ _ => true
  | _ => false

def launches : Deed → Bool
  | .launch _ _ _ => true
  | _ => false

end Deed

namespace Session

def deed (A : Arith) (s : Session) (bytes : List UInt8) (beyond : Nat → UInt8) : Deed :=
  let rx := rxBuffer bytes beyond
  match asked bytes beyond,s.player with
  | some .registerSession,_ => .join s.sessionID (rx.uint16 3) (rx.uint16 5)
  | some .keyEvent,some address => .steer address fun _ p => p.keyEvent A (rx.uint8 2).toNat (decide (rx.uint8 1 ≠ 0))
  | some .clickEvent,some address => .launch address (rx.uint16 5) (rx.uint16 7)
  | some .resizeEvent,some address => .steer address fun size p => p.resizeEvent A size (rx.uint16 5) (rx.uint16 7)
  | _,_ => .idle

theorem commsHandler_deed (A : Arith) (s : Session) (g : Game) (bytes : List UInt8) (beyond : Nat → UInt8) :
    (s.commsHandler A g bytes beyond).1 = .ok (s.answered A g bytes beyond,(s.deed A bytes beyond).apply A g) := by
  unfold commsHandler answered deed asked noted
  by_cases short : bytes.length < 2
  · simp only [short,if_true]
    rfl
  · simp only [short,if_false]
    cases type : RequestType.ofUInt8 ((rxBuffer bytes beyond).uint8 0) with
    | none =>
      rw [dispatch_unknown A type]
      rfl
    | some kind =>
      rw [dispatch_known A type]
      cases kind with
      | registerSession => exact Messages.register_built A _ (s.setLittleEndian _) g _ _
      | clickEvent =>
        simp only [handle,handleClickEvent_run]
        cases player : s.player <;> simp [setLittleEndian,player,Deed.apply] <;> rfl
      | keyEvent =>
        simp only [handle,handleKeyEvent_run]
        cases player : s.player <;> simp [setLittleEndian,player,Deed.apply] <;> rfl
      | resizeEvent =>
        simp only [handle,handleResizeEvent_run]
        cases player : s.player <;> simp [setLittleEndian,player,Deed.apply] <;> rfl

end Session

def pop (c : WebsocketSession AppBuffer) (v : Option (Option Session)) :
    WebsocketSession AppBuffer × Option (Option Session) :=
  match v with
  | some (some s) =>
    let sent := c.sendNext s.toWebsockSession
    (sent.1,some (some {s with toWebsockSession := sent.2}))
  | _ => (c,some none)

def Event.conn : Event → Option Nat
  | .onRead conn _ => some conn
  | .onWrite conn _ => some conn
  | .posted conn => some conn
  | _ => none

theorem Event.conn_none {event : Event} (unbound : event.conn = none) : event = .accept ∨ event = .tick := by
  cases event with
  | accept => exact .inl rfl
  | tick => exact .inr rfl
  | onRead => cases unbound
  | onWrite => cases unbound
  | posted => cases unbound

def Event.asksFor (kind : RequestType) : Event → Bool
  | .onRead _ (.message bytes beyond) => Session.asked bytes beyond = some kind
  | _ => false

-- What the handler of an event makes of the connection `conn` and of the entry of its
-- session. The game enters only the answer to a registration.
def serve (A : Arith) (g : Game) (conn : Nat) (c : WebsocketSession AppBuffer) (v : Option (Option Session)) :
    Event → Option (WebsocketSession AppBuffer × Option (Option Session))
  | .onRead _ (.error ec) =>
    if c.reading then some ({c with reading := false},if ec = .closed then none else v) else none
  | .onRead _ (.message bytes beyond) =>
    if c.reading then some (pop c (some (v.join.map fun s => s.answered A g bytes beyond))) else none
  | .onWrite _ (some _) => if c.writing then some ({c with writing := false},v) else none
  | .onWrite _ none => if c.writing then some (pop c.writeDone v) else none
  | .posted _ =>
    if c.posted ≠ 0 ∧ c.alive = true ∧ (v.join.bind fun s => s.txReadyCallback) = some conn then
      some (pop {c with posted := c.posted - 1} v)
    else none
  | _ => none

def deedOf (A : Arith) (v : Option (Option Session)) : Event → Deed
  | .onRead _ (.message bytes beyond) =>
    match v.join with
    | some s => s.deed A bytes beyond
    | none => .idle
  | _ => .idle

structure Placed (conn : Nat) (key : UInt32) (after : WebsocketSession AppBuffer × Option (Option Session)) (g : Game)
    (w t : World) : Prop where
  conns : t.conns = w.conns.set conn after.1
  entry : t.entry = Function.update w.entry key after.2
  game : t.game = g
  next : t.gSessions.sessionId = w.gSessions.sessionId

section Steps
variable {w t : World} {conn : Nat} {c : WebsocketSession AppBuffer}

theorem entry_insert {key : UInt32} {v : Option Session}
    (written : t.gSessions.sessions = w.gSessions.sessions.insert key v) : t.entry = Function.update w.entry key (some v) := by
  funext id
  rw [entry,written,Std.TreeMap.getElem?_insert]
  by_cases own : id = key
  · subst own; simp
  · rw [Function.update_of_ne own,if_neg (by simpa using Ne.symm own)]
    rfl

theorem entry_erase {key : UInt32} (written : t.gSessions.sessions = w.gSessions.sessions.erase key) :
    t.entry = Function.update w.entry key none := by
  funext id
  rw [entry,written,Std.TreeMap.getElem?_erase]
  by_cases own : id = key
  · subst own; simp
  · rw [Function.update_of_ne own,if_neg (by simpa using Ne.symm own)]
    rfl

theorem entry_same (written : t.gSessions.sessions = w.gSessions.sessions) (key : UInt32) :
    t.entry = Function.update w.entry key (w.entry key) := by
  rw [Function.update_eq_self]
  funext id
  rw [entry,written]
  rfl

theorem sendFrom_placed (w : World) (conn : Nat) {c : WebsocketSession AppBuffer} {s : Session}
    (found : w.entry c.sessionID = some (some s)) :
    Placed conn c.sessionID (pop c (w.entry c.sessionID)) w.game w (w.sendFrom conn c s) := by
  rw [found]
  exact ⟨rfl,entry_insert rfl,rfl,rfl⟩

theorem sendNext_placed (w : World) (conn : Nat) (c : WebsocketSession AppBuffer) :
    Placed conn c.sessionID (pop c (w.entry c.sessionID)) w.game w (w.sendNext conn c) := by
  cases found : w.gSessions.sessions[c.sessionID]? with
  | none =>
    simp only [sendNext,WebsockSessionManager.findById_absent found,entry,found]
    exact ⟨rfl,entry_insert rfl,rfl,rfl⟩
  | some v =>
    simp only [sendNext,WebsockSessionManager.findById_found found]
    cases v with
    | none =>
      rw [entry,found]
      exact ⟨rfl,(Function.update_eq_self_iff.mpr (show some none = w.entry c.sessionID from found.symm)).symm,rfl,rfl⟩
    | some s => exact sendFrom_placed w conn found

theorem commsHandler_placed (A : Arith) (w : World) (id : UInt32) (bytes : List UInt8) (beyond : Nat → UInt8) :
    ∃ t, w.commsHandler A id bytes beyond = .ok t ∧ t.conns = w.conns ∧
      t.entry = Function.update w.entry id (some ((w.entry id).join.map fun s => s.answered A w.game bytes beyond)) ∧
      t.game = (match (w.entry id).join with | some s => s.deed A bytes beyond | none => .idle).apply A w.game ∧
      t.gSessions.sessionId = w.gSessions.sessionId := by
  cases found : w.gSessions.sessions[id]? with
  | none =>
    simp only [World.commsHandler,WebsockSessionManager.findById_absent found,entry,found]
    exact ⟨_,rfl,rfl,entry_insert rfl,rfl,rfl⟩
  | some v =>
    simp only [World.commsHandler,WebsockSessionManager.findById_found found]
    have held : w.entry id = some v := found
    cases v with
    | none =>
      rw [held]
      exact ⟨_,rfl,rfl,(Function.update_eq_self_iff.mpr held.symm).symm,rfl,rfl⟩
    | some s =>
      simp only [held,Session.commsHandler_deed]
      exact ⟨_,rfl,rfl,entry_insert rfl,rfl,rfl⟩

theorem callbackSession_entry (w : World) (conn : Nat) (id : UInt32) : w.callbackSession conn id =
    match (w.entry id).join with
    | some s => if s.txReadyCallback = some conn then some s else none
    | none => none := by
  rw [callbackSession,entry]
  cases found : w.gSessions.sessions[id]? with
  | none => rfl
  | some v => cases v <;> rfl

theorem step_serve {event : Event} (own : event.conn = some conn) (member : w.conns[conn]? = some c) :
    match serve A w.game conn c (w.entry c.sessionID) event with
    | some after => ∃ t, w.step A event = .ok t ∧
        Placed conn c.sessionID after ((deedOf A (w.entry c.sessionID) event).apply A w.game) w t
    | none => ∃ fault, w.step A event = .error fault := by
  cases event with
  | accept => cases own
  | tick => cases own
  | onRead other result =>
    cases own
    cases reading : c.reading with
    | false =>
      simp only [step,member,reading]
      cases result <;> (simp only [serve,reading]; exact ⟨_,rfl⟩)
    | true =>
      cases result with
      | error ec =>
        simp only [serve,reading,step,member,if_true,onRead]
        by_cases closed : ec = .closed
        · rw [if_pos closed,if_pos closed]
          exact ⟨_,rfl,rfl,entry_erase rfl,rfl,rfl⟩
        · rw [if_neg closed,if_neg closed]
          exact ⟨_,rfl,rfl,entry_same rfl _,rfl,rfl⟩
      | message bytes beyond =>
        obtain ⟨handled,answered,conns,entries,game,next⟩ := commsHandler_placed A w c.sessionID bytes beyond
        have sent := sendNext_placed handled conn c
        rw [entries,Function.update_self] at sent
        simp only [serve,reading,step,member,if_true,onRead,answered]
        refine ⟨_,rfl,sent.conns.trans (by rw [conns]),?_,sent.game.trans game,sent.next.trans next⟩
        rw [sent.entry,entries,Function.update_idem]
  | onWrite other ec =>
    cases own
    cases writing : c.writing with
    | false =>
      simp only [step,member,writing]
      cases ec <;> (simp only [serve,writing]; exact ⟨_,rfl⟩)
    | true =>
      cases ec with
      | some ec =>
        simp only [serve,writing,step,member,if_true]
        exact ⟨_,rfl,rfl,entry_same rfl _,rfl,rfl⟩
      | none =>
        simp only [serve,writing,step,member,if_true]
        exact ⟨_,rfl,sendNext_placed w conn c.writeDone⟩
  | posted other =>
    cases own
    simp only [serve,step,member,onPosted]
    by_cases pending : c.posted = 0
    · rw [if_neg (by simp [pending]),if_pos pending]
      exact ⟨_,rfl⟩
    rw [if_neg pending]
    cases alive : c.alive with
    | false =>
      rw [if_neg (by simp),if_pos rfl]
      exact ⟨_,rfl⟩
    | true =>
      rw [if_neg (Bool.true_eq_false.mp ·),callbackSession_entry]
      cases found : (w.entry c.sessionID).join with
      | none =>
        rw [if_neg (by simp)]
        exact ⟨_,rfl⟩
      | some s =>
        by_cases callback : s.txReadyCallback = some conn
        · have held := Option.join_eq_some_iff.mp found
          rw [if_pos ⟨pending,rfl,callback⟩]
          simp only [if_pos callback]
          exact ⟨_,rfl,sendFrom_placed w conn (c := {c with posted := c.posted - 1}) held⟩
        · rw [if_neg fun all => callback all.2.2]
          simp only [if_neg callback]
          exact ⟨_,rfl⟩

theorem step_placed {event : Event} (own : event.conn = some conn) (ran : w.step A event = .ok t) :
    ∃ c after, w.conns[conn]? = some c ∧ serve A w.game conn c (w.entry c.sessionID) event = some after ∧
      Placed conn c.sessionID after ((deedOf A (w.entry c.sessionID) event).apply A w.game) w t := by
  cases member : w.conns[conn]? with
  | none =>
    cases event <;> cases own <;> (simp only [step,member] at ran; cases ran)
  | some c =>
    have served := step_serve (A := A) own member
    cases after : serve A w.game conn c (w.entry c.sessionID) event with
    | none =>
      rw [after] at served
      obtain ⟨fault,failed⟩ := served
      cases failed.symm.trans ran
    | some next =>
      rw [after] at served
      obtain ⟨t',one,placed⟩ := served
      cases one.symm.trans ran
      exact ⟨c,next,rfl,after,placed⟩

theorem placed_step {event : Event} {after : WebsocketSession AppBuffer × Option (Option Session)}
    (own : event.conn = some conn) (member : w.conns[conn]? = some c)
    (served : serve A w.game conn c (w.entry c.sessionID) event = some after) :
    ∃ t, w.step A event = .ok t ∧
      Placed conn c.sessionID after ((deedOf A (w.entry c.sessionID) event).apply A w.game) w t := by
  have result := step_serve (A := A) own member
  rwa [served] at result

-- The game enters `serve` through the stars, and for a registration through the next
-- free address.
theorem serve_game {g g' : Game} {v : Option (Option Session)} {event : Event}
    (stars : g'.gUniverse.stars = g.gUniverse.stars)
    (fresh : event.asksFor .registerSession = true → g'.allocated = g.allocated) :
    serve A g' conn c v event = serve A g conn c v event := by
  cases event with
  | accept => rfl
  | tick => rfl
  | posted other => rfl
  | onWrite other ec => cases ec <;> rfl
  | onRead other result =>
    cases result with
    | error ec => rfl
    | message bytes beyond =>
      have same : (fun s => Session.answered A s g' bytes beyond) = fun s => Session.answered A s g bytes beyond := by
        funext s
        unfold Session.answered Session.registeredBuffer
        by_cases register : Session.asked bytes beyond = some .registerSession
        · rw [if_pos register,if_pos register,stars,fresh (by simpa [Event.asksFor] using register)]
        · rw [if_neg register,if_neg register]
      simp only [serve,same]

end Steps

theorem deed_joins {s : Session} {bytes : List UInt8} {beyond : Nat → UInt8} (joins : (s.deed A bytes beyond).joins = true) :
    Session.asked bytes beyond = some .registerSession := by
  unfold Session.deed at joins
  split at joins
  · assumption
  all_goals simp [Deed.joins] at joins

theorem deed_launches {s : Session} {bytes : List UInt8} {beyond : Nat → UInt8}
    (launches : (s.deed A bytes beyond).launches = true) : Session.asked bytes beyond = some .clickEvent := by
  unfold Session.deed at launches
  split at launches
  · simp [Deed.launches] at launches
  · simp [Deed.launches] at launches
  · assumption
  all_goals simp [Deed.launches] at launches

theorem deed_player {s : Session} {bytes : List UInt8} {beyond : Nat → UInt8} {address : Nat}
    (held : (s.deed A bytes beyond).player = some address) : s.player = some address := by
  unfold Session.deed at held
  split at held
  · cases held
  · cases held; assumption
  · cases held; assumption
  · cases held; assumption
  · cases held

section Deeds
variable {v : Option (Option Session)} {event : Event}

theorem deedOf_joins (joins : (deedOf A v event).joins = true) : event.asksFor .registerSession = true := by
  unfold deedOf at joins
  split at joins
  · split at joins
    · simpa [Event.asksFor] using deed_joins joins
    · cases joins
  · cases joins

theorem deedOf_launches (launches : (deedOf A v event).launches = true) : event.asksFor .clickEvent = true := by
  unfold deedOf at launches
  split at launches
  · split at launches
    · simpa [Event.asksFor] using deed_launches launches
    · cases launches
  · cases launches

theorem deedOf_player {address : Nat} (held : (deedOf A v event).player = some address) :
    v.join.bind Session.player = some address := by
  unfold deedOf at held
  split at held
  · split at held
    · rename_i s found
      rw [found]
      exact deed_player held
    · cases held
  · cases held

end Deeds
end Geoff
