import Geoff.Messages
import Geoff.Server

-- What one step of the server does to the session store and to the connections,
-- and which faults it cannot run into. The invariants of the stores follow from
-- these laws alone.
namespace Geoff
open Std

def Session.identity (s : Session) : UInt32 × Option Nat := (s.sessionID,s.txReadyCallback)

abbrev Tags := UInt32 → Option (Option (UInt32 × Option Nat))

def tags (m : SessionMap) : Tags := fun id => m[id]?.map (Option.map Session.identity)

theorem tags_insert (m : SessionMap) (k : UInt32) (v : Option Session) :
    tags (m.insert k v) = Function.update (tags m) k (some (v.map Session.identity)) := by
  funext id
  by_cases same : k = id
  · subst same; simp [tags]
  · simp [tags,TreeMap.getElem?_insert,same,Function.update_of_ne (Ne.symm same)]

theorem tags_erase (m : SessionMap) (k : UInt32) : tags (m.erase k) = Function.update (tags m) k none := by
  funext id
  by_cases same : k = id
  · subst same; simp [tags]
  · simp [tags,TreeMap.getElem?_erase,same,Function.update_of_ne (Ne.symm same)]

theorem tags_found {m : SessionMap} {id : UInt32} {v : Option Session} (found : m[id]? = some v) :
    tags m id = some (v.map Session.identity) := by
  simp [tags,found]

theorem tags_update {m : SessionMap} {id : UInt32} {s s' : Session} (found : m[id]? = some (some s))
    (same : s'.identity = s.identity) : tags (m.insert id (some s')) = tags m := by
  rw [tags_insert,Option.map_some,same]
  exact Function.update_eq_self_iff.mpr (tags_found found).symm

theorem Session.handle_identity {A : Arith} {s s' : Session} {g g' : Game} {kind : RequestType} {rx : Rx}
    (ran : (s.handle A g kind rx).1 = .ok (s',g')) : s'.identity = s.identity := by
  cases kind with
  | registerSession =>
    obtain ⟨txBuffer,_,result⟩ := Runs.bind_ok.mp ran
    cases result; rfl
  | clickEvent =>
    simp only [handle,handleClickEvent_run] at ran
    split at ran <;> (cases ran; rfl)
  | keyEvent =>
    simp only [handle,handleKeyEvent_run] at ran
    split at ran <;> (cases ran; rfl)
  | resizeEvent =>
    simp only [handle,handleResizeEvent_run] at ran
    split at ran <;> (cases ran; rfl)

theorem Session.commsHandler_identity {A : Arith} {s s' : Session} {g g' : Game} {bytes : List UInt8}
    {beyond : Nat → UInt8} (ran : (s.commsHandler A g bytes beyond).1 = .ok (s',g')) :
    s'.identity = s.identity := by
  unfold commsHandler at ran
  split at ran
  · cases ran; rfl
  · cases known : RequestType.ofUInt8 ((rxBuffer bytes beyond).uint8 0) with
    | none => rw [dispatch_unknown A known] at ran; cases ran; rfl
    | some kind =>
      rw [dispatch_known A known] at ran
      dsimp only at ran
      have kept := handle_identity ran
      exact kept.trans rfl

theorem Session.tickEvent_identity {A : Arith} {s s' : Session} {g g' : Game}
    (ran : s.tickEvent A g = .ok (s',g')) : s'.identity = s.identity := by
  unfold tickEvent at ran
  split at ran
  · cases ran; rfl
  · obtain ⟨⟨p,txBuff⟩,_,result⟩ := Runs.bind_ok.mp ran
    cases result; rfl

namespace WebsockSessionManager
variable {S : Type}

theorem findById_found {m : WebsockSessionManager S} {id : UInt32} {v : Option S}
    (found : m.sessions[id]? = some v) : m.findById id = (v,m) := by
  simp [findById,found]

theorem findById_absent {m : WebsockSessionManager S} {id : UInt32} (absent : m.sessions[id]? = none) :
    m.findById id = (none,{m with sessions := m.sessions.insert id none}) := by
  simp [findById,absent]

end WebsockSessionManager

namespace World

def tags (w : World) : Tags := Geoff.tags w.gSessions.sessions

def connIDs (w : World) : List UInt32 := w.conns.map WebsocketSession.sessionID

end World

def Touched (t : Tags) (id : UInt32) : Tags := if t id = none then Function.update t id (some none) else t

-- What an event does to g_sessions: on_accept adds the session of the next
-- connection, OnClose deletes, and FindSessionByID and CommsHandler look up.
inductive StoreOp where
  | add (id : UInt32) (conn : Nat)
  | delete (id : UInt32)
  | lookUp (id : UInt32)
  | idle

def StoreOp.apply (t : Tags) : StoreOp → Tags
  | .add id conn => Function.update t id (some (some (id,some conn)))
  | .delete id => Function.update t id none
  | .lookUp id => Touched t id
  | .idle => t

def StoreOp.opened : StoreOp → List UInt32
  | .add id _ => [id]
  | _ => []

namespace World

def storeOp (w : World) : Event → StoreOp
  | .accept => .add w.gSessions.sessionId w.conns.length
  | .onRead conn result =>
    match w.conns[conn]?,result with
    | some c,.error .closed => .delete c.sessionID
    | some c,.message _ _ => .lookUp c.sessionID
    | _,_ => .idle
  | .onWrite conn ec =>
    match w.conns[conn]?,ec with
    | some c,none => .lookUp c.sessionID
    | _,_ => .idle
  | .posted _ => .idle
  | .tick => .idle

theorem setConn_ids {w : World} {conn : Nat} {c : WebsocketSession AppBuffer} (c' : WebsocketSession AppBuffer)
    (found : w.conns[conn]? = some c)
    (same : c'.sessionID = c.sessionID) : (w.setConn conn c').connIDs = w.connIDs := by
  apply List.ext_getElem?
  intro i
  by_cases here : conn = i
  · subst here
    obtain ⟨inside,rfl⟩ := List.getElem?_eq_some_iff.mp found
    simp [connIDs,setConn,same,inside]
  · simp [connIDs,setConn,List.getElem?_set_ne here]

theorem sendNext_identity (c : WebsocketSession AppBuffer) (s : WebsockSession AppBuffer) :
    (c.sendNext s).1.sessionID = c.sessionID ∧ (c.sendNext s).2.sessionID = s.sessionID ∧
      (c.sendNext s).2.txReadyCallback = s.txReadyCallback := by
  cases queued : s.txQue with
  | nil => rw [WebsocketSession.sendNext_empty c queued]; exact ⟨rfl,rfl,rfl⟩
  | cons head rest =>
    rw [WebsocketSession.sendNext_cons c queued]
    refine ⟨?_,rfl,rfl⟩
    unfold WebsocketSession.doWrite
    split <;> rfl

theorem touched_known {t : Tags} {id : UInt32} (known : t id ≠ none) : Touched t id = t := if_neg known

theorem touched_twice (t : Tags) (id : UInt32) : Touched (Touched t id) id = Touched t id := by
  by_cases absent : t id = none
  · exact touched_known (by simp [Touched,absent])
  · rw [touched_known absent,touched_known absent]

theorem lookup_tags {w : World} {id : UInt32} {v : Option Session} (found : w.gSessions.sessions[id]? = some v) :
    Touched w.tags id = w.tags :=
  touched_known (by rw [tags,tags_found found]; simp)

theorem lookup_absent {w : World} {id : UInt32} (absent : w.gSessions.sessions[id]? = none) :
    Geoff.tags (w.gSessions.sessions.insert id none) = Touched w.tags id := by
  have missing : w.tags id = none := by simp [tags,Geoff.tags,absent]
  rw [tags_insert,Touched,if_pos missing]
  rfl

variable {A : Arith} {w t : World}

theorem commsHandler_tags {id : UInt32} {bytes : List UInt8} {beyond : Nat → UInt8}
    (ran : w.commsHandler A id bytes beyond = .ok t) : t.tags = Touched w.tags id ∧ t.conns = w.conns := by
  cases found : w.gSessions.sessions[id]? with
  | none =>
    simp only [commsHandler,WebsockSessionManager.findById_absent found] at ran
    cases ran
    exact ⟨lookup_absent found,rfl⟩
  | some v =>
    simp only [commsHandler,WebsockSessionManager.findById_found found] at ran
    rw [lookup_tags found]
    cases v with
    | none => cases ran; exact ⟨rfl,rfl⟩
    | some session =>
      obtain ⟨⟨session',game⟩,handled,result⟩ := Runs.bind_ok.mp ran
      cases result
      exact ⟨tags_update found (Session.commsHandler_identity handled),rfl⟩

theorem sendFrom_tags {conn : Nat} {c : WebsocketSession AppBuffer} (c' : WebsocketSession AppBuffer) {session : Session}
    (member : w.conns[conn]? = some c) (same : c'.sessionID = c.sessionID)
    (found : w.gSessions.sessions[c'.sessionID]? = some (some session)) :
    (w.sendFrom conn c' session).tags = w.tags ∧ (w.sendFrom conn c' session).connIDs = w.connIDs := by
  obtain ⟨conn_same,id_same,callback_same⟩ := sendNext_identity c' session.toWebsockSession
  refine ⟨tags_update found ?_,setConn_ids _ member (conn_same.trans same)⟩
  simp only [Session.identity,id_same,callback_same]

theorem sendNext_tags {conn : Nat} {c : WebsocketSession AppBuffer} (c' : WebsocketSession AppBuffer)
    (member : w.conns[conn]? = some c) (same : c'.sessionID = c.sessionID) :
    (w.sendNext conn c').tags = Touched w.tags c.sessionID ∧ (w.sendNext conn c').connIDs = w.connIDs := by
  rw [← same]
  cases found : w.gSessions.sessions[c'.sessionID]? with
  | none =>
    simp only [sendNext,WebsockSessionManager.findById_absent found]
    exact ⟨lookup_absent found,setConn_ids _ member same⟩
  | some v =>
    rw [lookup_tags found]
    cases v with
    | none =>
      simp only [sendNext,WebsockSessionManager.findById_found found]
      exact ⟨rfl,setConn_ids _ member same⟩
    | some session =>
      simp only [sendNext,WebsockSessionManager.findById_found found]
      exact sendFrom_tags _ member same found

theorem tickSession_tags {g : Game} {m m' : SessionMap} {id : UInt32} (ran : g.tickSession A m id = .ok m') :
    Geoff.tags m' = Geoff.tags m := by
  cases found : m[id]? with
  | none => simp only [Game.tickSession,found] at ran; cases ran; rfl
  | some v =>
    simp only [Game.tickSession,found] at ran
    cases v with
    | none => cases ran
    | some sess =>
      cases player : sess.player with
      | none => simp only [player] at ran; cases ran; rfl
      | some address =>
        simp only [player] at ran
        obtain ⟨txBuff,_,result⟩ := Runs.bind_ok.mp ran
        cases result
        exact tags_update found rfl

theorem gameTick_tags {g g' : Game} {m m' : SessionMap} {tickCount : UInt32}
    (ran : g.tickEvent A m tickCount = .ok (g',m')) : Geoff.tags m' = Geoff.tags m := by
  obtain ⟨game,_,ran⟩ := Runs.bind_ok.mp ran
  obtain ⟨sessions,rounds,result⟩ := Runs.bind_ok.mp ran
  cases result
  exact Runs.run_relates (r := fun m m' => Geoff.tags m' = Geoff.tags m) (fun _ => rfl)
    (fun _ _ _ first second => second.trans first) (fun _ _ _ _ one => tickSession_tags one) rounds

theorem onTxReady_tags {session : Session} (ran : w.onTxReady session = .ok t) :
    t.tags = w.tags ∧ t.connIDs = w.connIDs ∧ t.game = w.game := by
  unfold onTxReady at ran
  split at ran
  · cases ran; exact ⟨rfl,rfl,rfl⟩
  · split at ran
    · cases ran
    · rename_i c found
      split at ran
      · cases ran
      · cases ran; exact ⟨rfl,setConn_ids _ found rfl,rfl⟩

theorem timerRound_tags {id : UInt32} (ran : w.timerRound A id = .ok t) :
    t.tags = w.tags ∧ t.connIDs = w.connIDs := by
  unfold timerRound at ran
  split at ran
  · rename_i session found
    obtain ⟨⟨session',game⟩,ticked,ran⟩ := Runs.bind_ok.mp ran
    obtain ⟨tags_same,conns_same,_⟩ := onTxReady_tags ran
    exact ⟨tags_same.trans (tags_update found (Session.tickEvent_identity ticked)),conns_same⟩
  · cases ran; exact ⟨rfl,rfl⟩

theorem tickEvent_tags (ran : w.tickEvent A = .ok t) : t.tags = w.tags ∧ t.connIDs = w.connIDs := by
  unfold tickEvent at ran
  split at ran
  · cases ran; exact ⟨rfl,rfl⟩
  · obtain ⟨⟨game,sessions⟩,ticked,ran⟩ := Runs.bind_ok.mp ran
    have rounds := Runs.run_relates (r := fun (w t : World) => t.tags = w.tags ∧ t.connIDs = w.connIDs)
      (fun _ => ⟨rfl,rfl⟩) (fun _ _ _ first second => ⟨second.1.trans first.1,second.2.trans first.2⟩)
      (fun _ _ _ _ one => timerRound_tags one) ran
    exact ⟨rounds.1.trans (gameTick_tags ticked),rounds.2⟩

def acceptedSession (w : World) : Session :=
  ⟨⟨w.gSessions.sessionId,true,[],some w.conns.length⟩,none⟩

theorem onAccept_ok (w : World) : w.onAccept = .ok {w with
    gSessions := (w.gSessions.addSession Session.make).2.update w.gSessions.sessionId w.acceptedSession,
    conns := w.conns ++ [.accepted w.gSessions.sessionId]} := by
  have found : (w.gSessions.addSession Session.make).2.sessions[w.gSessions.sessionId]? =
      some (some (Session.make w.gSessions.sessionId)) := by
    simp [WebsockSessionManager.addSession]
  have looked := WebsockSessionManager.findById_found found
  simp only [onAccept,WebsockSessionManager.addSession] at looked ⊢
  rw [looked]
  rfl

theorem onAccept_tags (ran : w.onAccept = .ok t) :
    t.tags = (w.storeOp .accept).apply w.tags ∧ t.connIDs = w.connIDs ++ [w.gSessions.sessionId] := by
  rw [onAccept_ok] at ran
  cases ran
  refine ⟨?_,by simp [connIDs,WebsocketSession.accepted]⟩
  simp only [tags,WebsockSessionManager.update,WebsockSessionManager.addSession,tags_insert,Function.update_idem]
  rfl

theorem callbackSession_found {conn : Nat} {id : UInt32} {session : Session}
    (found : w.callbackSession conn id = some session) : w.gSessions.sessions[id]? = some (some session) := by
  unfold callbackSession at found
  split at found
  · rename_i other held
    split at found
    · cases found; exact held
    · cases found
  · cases found

inductive Handled (A : Arith) (w : World) : Event → World → Prop where
  | accept {t : World} (ran : w.onAccept = .ok t) : Handled A w .accept t
  | closed {conn : Nat} {c : WebsocketSession AppBuffer} (member : w.conns[conn]? = some c) (reading : c.reading = true) :
      Handled A w (.onRead conn (.error .closed)) ((w.setConn conn {c with reading := false}).onClose c.sessionID)
  | failed {conn : Nat} {c : WebsocketSession AppBuffer} (member : w.conns[conn]? = some c) (reading : c.reading = true)
      (value : Int) : Handled A w (.onRead conn (.error (.other value))) (w.setConn conn {c with reading := false})
  | message {conn : Nat} {c : WebsocketSession AppBuffer} {bytes : List UInt8} {beyond : Nat → UInt8} {handled : World}
      (member : w.conns[conn]? = some c) (reading : c.reading = true)
      (ran : w.commsHandler A c.sessionID bytes beyond = .ok handled) :
      Handled A w (.onRead conn (.message bytes beyond)) (handled.sendNext conn c)
  | unwritten {conn : Nat} {c : WebsocketSession AppBuffer} (member : w.conns[conn]? = some c)
      (writing : c.writing = true) (ec : ErrorCode) :
      Handled A w (.onWrite conn (some ec)) (w.setConn conn {c with writing := false})
  | written {conn : Nat} {c : WebsocketSession AppBuffer} (member : w.conns[conn]? = some c) (writing : c.writing = true) :
      Handled A w (.onWrite conn none) (w.sendNext conn c.writeDone)
  | posted {conn : Nat} {c : WebsocketSession AppBuffer} {session : Session} (member : w.conns[conn]? = some c)
      (pending : c.posted ≠ 0) (alive : c.alive = true)
      (found : w.callbackSession conn c.sessionID = some session) :
      Handled A w (.posted conn) (w.sendFrom conn {c with posted := c.posted - 1} session)
  | tick {t : World} (ran : w.tickEvent A = .ok t) : Handled A w .tick t

theorem step_handled {event : Event} (ran : w.step A event = .ok t) : Handled A w event t := by
  cases event with
  | accept => exact .accept ran
  | tick => exact .tick ran
  | onRead conn result =>
    cases member : w.conns[conn]? with
    | none => simp only [step,member] at ran; cases ran
    | some c =>
      simp only [step,member] at ran
      split at ran
      · rename_i reading
        cases result with
        | error ec => cases ec <;> (cases ran; constructor <;> assumption)
        | message bytes beyond =>
          obtain ⟨handled,answered,result⟩ := Runs.bind_ok.mp ran
          cases result
          exact .message member reading answered
      · cases ran
  | onWrite conn ec =>
    cases member : w.conns[conn]? with
    | none => simp only [step,member] at ran; cases ran
    | some c =>
      simp only [step,member] at ran
      split at ran
      · rename_i writing
        cases ran
        cases ec with
        | some ec => exact .unwritten member writing ec
        | none => exact .written member writing
      · cases ran
  | posted conn =>
    cases member : w.conns[conn]? with
    | none => simp only [step,member] at ran; cases ran
    | some c =>
      simp only [step,member,onPosted] at ran
      split at ran
      · cases ran
      · rename_i pending
        split at ran
        · cases ran
        · rename_i alive
          cases found : w.callbackSession conn c.sessionID with
          | none => simp only [found] at ran; cases ran
          | some session =>
            simp only [found] at ran
            cases ran
            exact .posted member pending (by simpa using alive) found

theorem step_tags {event : Event} (ran : w.step A event = .ok t) :
    t.tags = (w.storeOp event).apply w.tags ∧ t.connIDs = w.connIDs ++ (w.storeOp event).opened := by
  cases step_handled ran with
  | accept accepted => exact onAccept_tags accepted
  | tick ticked =>
    obtain ⟨tags_same,conns_same⟩ := tickEvent_tags ticked
    exact ⟨tags_same,by simpa [storeOp,StoreOp.opened] using conns_same⟩
  | @closed conn c member _ =>
    simp only [storeOp,member,StoreOp.opened,List.append_nil]
    exact ⟨tags_erase _ _,setConn_ids {c with reading := false} member rfl⟩
  | @failed conn c member _ value =>
    simp only [storeOp,member,StoreOp.opened,List.append_nil]
    exact ⟨rfl,setConn_ids {c with reading := false} member rfl⟩
  | @message conn c bytes beyond handled member _ answered =>
    obtain ⟨tags_one,conns_same⟩ := commsHandler_tags answered
    obtain ⟨tags_two,ids_same⟩ := sendNext_tags c (by rw [conns_same]; exact member) rfl
    simp only [storeOp,member,StoreOp.opened,List.append_nil]
    refine ⟨?_,ids_same.trans (by rw [connIDs,conns_same]; rfl)⟩
    rw [tags_two,tags_one,touched_twice]
    rfl
  | @unwritten conn c member _ ec =>
    simp only [storeOp,member,StoreOp.opened,List.append_nil]
    exact ⟨rfl,setConn_ids {c with writing := false} member rfl⟩
  | @written conn c member _ =>
    simp only [storeOp,member,StoreOp.opened,List.append_nil]
    exact sendNext_tags c.writeDone member rfl
  | @posted conn c session member _ _ found =>
    simp only [storeOp,StoreOp.opened,List.append_nil]
    exact sendFrom_tags {c with posted := c.posted - 1} member rfl (callbackSession_found found)

theorem apply_session {op : StoreOp} {t : Tags} {id : UInt32} {tag : UInt32 × Option Nat}
    (held : op.apply t id = some (some tag)) :
    t id = some (some tag) ∨ ∃ conn, op = .add id conn ∧ tag = (id,some conn) := by
  cases op with
  | add other conn =>
    by_cases same : id = other
    · subst same
      simp only [StoreOp.apply,Function.update_self,Option.some.injEq] at held
      exact .inr ⟨conn,rfl,held.symm⟩
    · exact .inl (by simpa [StoreOp.apply,Function.update_of_ne same] using held)
  | delete other =>
    by_cases same : id = other
    · subst same; simp [StoreOp.apply] at held
    · exact .inl (by simpa [StoreOp.apply,Function.update_of_ne same] using held)
  | lookUp other =>
    by_cases absent : t other = none
    · by_cases same : id = other
      · subst same; simp [StoreOp.apply,Touched,absent] at held
      · exact .inl (by simpa [StoreOp.apply,Touched,absent,Function.update_of_ne same] using held)
    · exact .inl (by simpa [StoreOp.apply,Touched,absent] using held)
  | idle => exact .inl held

theorem storeOp_add {event : Event} {id : UInt32} {conn : Nat} (added : w.storeOp event = .add id conn) :
    conn = w.conns.length := by
  cases event with
  | accept => cases added; rfl
  | onRead other result =>
    cases member : w.conns[other]? with
    | none => simp [storeOp,member] at added
    | some c =>
      cases result with
      | message bytes beyond => simp [storeOp,member] at added
      | error ec => cases ec <;> simp [storeOp,member] at added
  | onWrite other ec =>
    cases member : w.conns[other]? with
    | none => simp [storeOp,member] at added
    | some c => cases ec <;> simp [storeOp,member] at added
  | posted other => cases added
  | tick => cases added

def Owned (w : World) : Prop := ∀ id tag, w.tags id = some (some tag) →
  tag.1 = id ∧ ∃ conn, tag.2 = some conn ∧ w.connIDs[conn]? = some id

theorem owned_make (A : Arith) (rand : Rand) : (World.make A rand).Owned := by
  intro id tag held
  simp [tags,Geoff.tags,World.make,WebsockSessionManager.make] at held

theorem owned_step {event : Event} (owned : w.Owned) (ran : w.step A event = .ok t) : t.Owned := by
  obtain ⟨tags_next,ids_next⟩ := step_tags ran
  intro id tag held
  rw [tags_next] at held
  rcases apply_session held with old | ⟨conn,added,rfl⟩
  · obtain ⟨own,conn,callback,kept⟩ := owned id tag old
    refine ⟨own,conn,callback,?_⟩
    rw [ids_next]
    exact List.getElem?_append_left (List.getElem?_eq_some_iff.mp kept).1 |>.trans kept
  · refine ⟨rfl,conn,rfl,?_⟩
    have next := storeOp_add added
    rw [ids_next,added,next,← List.length_map (f := WebsocketSession.sessionID)]
    simp [connIDs,StoreOp.opened]

theorem owned_run {rand : Rand} {events : List Event} (ran : Runs.run (step A) (World.make A rand) events = .ok t) :
    t.Owned :=
  Runs.run_invariant Owned (fun _ _ _ owned one => owned_step owned one) (owned_make A rand) ran

theorem onRead_error (conn : Nat) {c : WebsocketSession AppBuffer} (member : w.conns[conn]? = some c)
    (reading : c.reading = true) (ec : ErrorCode) : w.step A (.onRead conn (.error ec)) = .ok
      (if ec = .closed then (w.setConn conn {c with reading := false}).onClose c.sessionID
      else w.setConn conn {c with reading := false}) := by
  simp only [step,member,reading,if_true,onRead]
  split <;> rfl

theorem onWrite_done (conn : Nat) {c : WebsocketSession AppBuffer} (member : w.conns[conn]? = some c)
    (writing : c.writing = true) : w.step A (.onWrite conn none) = .ok (w.onWrite conn c none) := by
  simp only [step,member,writing,if_true]

theorem onRead_handled (conn : Nat) {c : WebsocketSession AppBuffer} {s s' : Session} {game : Game} {bytes : List UInt8}
    {beyond : Nat → UInt8} (member : w.conns[conn]? = some c) (reading : c.reading = true)
    (found : w.gSessions.sessions[c.sessionID]? = some (some s))
    (handled : (s.commsHandler A w.game bytes beyond).1 = .ok (s',game)) :
    w.step A (.onRead conn (.message bytes beyond)) = .ok
      (({w with gSessions := w.gSessions.update c.sessionID s', game := game} : World).sendFrom conn c s') := by
  have inserted : (w.gSessions.update c.sessionID s').sessions[c.sessionID]? = some (some s') := by
    simp [WebsockSessionManager.update]
  simp only [step,member,reading,if_true,onRead,commsHandler,WebsockSessionManager.findById_found found,handled,
    Runs.ok_bind,Runs.pure_ok,sendNext]
  rw [WebsockSessionManager.findById_found inserted]

-- The request of a little-endian browser with a window of 800 by 600, on a new
-- connection: the session gets its player and the write of the reply starts.
def registerRequest : List UInt8 := [0xAB,0x00,0,0,3,32,2,88]

def registeredSession (A : Arith) (w : World) (s : Session) : Session :=
  ({s.setLittleEndian true with player := some w.game.allocated} : Session).commit
    (AppBuffer.filled true (Messages.sessionRegistered A true w.game.gUniverse.stars s.sessionID) 0)

theorem register_handled (w : World) (s : Session) : (s.commsHandler A w.game registerRequest fun _ => 0).1 =
    .ok (registeredSession A w s,w.game.newPlayer A s.sessionID 800 600) :=
  Messages.register_built A true (s.setLittleEndian true) w.game 800 600

theorem registration_sent (A : Arith) (w : World) {s : Session} (empty : s.txQue = []) (id : UInt32) :
    ((WebsocketSession.accepted id).sendNext (registeredSession A w s).toWebsockSession).1.writing = true ∧
      ((WebsocketSession.accepted id).sendNext (registeredSession A w s).toWebsockSession).1.reading = true := by
  have queued : (registeredSession A w s).txQue =
      [AppBuffer.filled true (Messages.sessionRegistered A true w.game.gUniverse.stars s.sessionID) 0] := by
    simp [registeredSession,Session.commit,WebsockSession.commitTxBuffer,Session.setLittleEndian,empty]
  rw [WebsocketSession.sendNext_cons _ queued]
  exact ⟨rfl,rfl⟩

def joinEvents : List Event := [.accept,.onRead 0 (.message registerRequest fun _ => 0)]

theorem found_key {β : Type} {m : Std.TreeMap UInt32 β} {k : UInt32} {v : β} (found : m[k]? = some v) : k ∈ m.keys :=
  Std.TreeMap.mem_keys.mpr (Std.TreeMap.isSome_getElem?_iff_mem.mp (by rw [found]; rfl))

theorem toList_first {β : Type} (k : UInt32) (v : β) : ((∅ : Std.TreeMap UInt32 β).insert k v).toList = [(k,v)] := rfl

theorem toList_insert {β : Type} {m : Std.TreeMap UInt32 β} {k : UInt32} {v : β} (single : m.toList = [(k,v)]) (v' : β) :
    (m.insert k v').toList = [(k,v')] := by
  have nodup : (m.insert k v').toList.Nodup :=
    List.Nodup.of_map Prod.fst (by rw [Std.TreeMap.map_fst_toList_eq_keys]; exact Std.TreeMap.nodup_keys)
  refine List.perm_singleton.mp ((List.perm_ext_iff_of_nodup nodup (List.nodup_singleton _)).mpr fun pair => ?_)
  obtain ⟨key,value⟩ := pair
  rw [Std.TreeMap.mem_toList_iff_getElem?_eq_some,Std.TreeMap.getElem?_insert,List.mem_singleton,Prod.mk.injEq]
  by_cases same : k = key
  · simp [same,eq_comm]
  · have absent : m[key]? ≠ some value := by
      rw [ne_eq,← Std.TreeMap.mem_toList_iff_getElem?_eq_some,single]
      simp [Ne.symm same]
    simp [same,absent,Ne.symm same]

theorem getElem_single {β : Type} {m : Std.TreeMap UInt32 β} {k : UInt32} {v : β} (single : m.toList = [(k,v)]) :
    m[k]? = some v ∧ m.keys = [k] := by
  refine ⟨Std.TreeMap.mem_toList_iff_getElem?_eq_some.mp (by rw [single]; simp),?_⟩
  rw [← Std.TreeMap.map_fst_toList_eq_keys,single]
  rfl

theorem handled_single {c : WebsocketSession AppBuffer} {s : Session}
    (single : w.gSessions.sessions.toList = [(c.sessionID,some s)]) (s' : Session) (game : Game) (conn : Nat) :
    ∃ sent : Session, (({w with gSessions := w.gSessions.update c.sessionID s', game := game} : World).sendFrom conn c
      s').gSessions.sessions.toList = [(c.sessionID,some sent)] ∧ sent.player = s'.player ∧
        sent.txReadyCallback = s'.txReadyCallback :=
  ⟨_,toList_insert (toList_insert single _) _,rfl,(sendNext_identity c s'.toWebsockSession).2.2⟩

structure Joined (A : Arith) (rand : Rand) (w : World) : Prop where
  run : Runs.run (step A) (World.make A rand) joinEvents = .ok w
  conn : ∃ c, w.conns = [c] ∧ c.sessionID = 0 ∧ c.reading = true ∧ c.writing = true
  session : ∃ s : Session, w.gSessions.sessions.toList = [(0,some s)] ∧ s.player = some 0 ∧ s.txReadyCallback = some 0
  game : w.game = (Game.make A rand).newPlayer A 0 800 600

theorem joined (A : Arith) (rand : Rand) : ∃ w, Joined A rand w := by
  -- the game stays a variable: its star field is never to be evaluated
  obtain ⟨first,made,sessions,conns,game⟩ : ∃ first, World.make A rand = first ∧ first.gSessions = .make ∧
      first.conns = [] ∧ first.game = Game.make A rand := ⟨_,rfl,rfl,rfl,make_game A rand⟩
  obtain ⟨w,accepted,conns,single,kept⟩ : ∃ w, first.step A .accept = .ok w ∧ w.conns = [.accepted 0] ∧
      w.gSessions.sessions.toList = [(0,some first.acceptedSession)] ∧ w.game = first.game := by
    refine ⟨_,first.onAccept_ok,?_,?_,rfl⟩
    · rw [sessions,conns]; rfl
    · rw [sessions]; exact toList_insert (toList_first 0 _) _
  have own : first.acceptedSession.sessionID = 0 := by rw [acceptedSession,sessions]; rfl
  have callback : first.acceptedSession.txReadyCallback = some 0 := by rw [acceptedSession,‹first.conns = []›]; rfl
  have new : w.game.allocated = 0 := by rw [kept,game]; exact (Game.make_fresh A rand).allocated
  have registered := onRead_handled (A := A) (c := .accepted 0) 0 (by rw [conns]; rfl) rfl (getElem_single single).1
    (register_handled w first.acceptedSession)
  obtain ⟨same,_⟩ := sendNext_identity (.accepted 0) (registeredSession A w first.acceptedSession).toWebsockSession
  obtain ⟨writing,reading⟩ := registration_sent A w (s := first.acceptedSession) rfl 0
  have start := congrArg (fun first => Runs.run (step A) first joinEvents) made
  refine ⟨_,start.trans (Runs.bind_ok.mpr ⟨_,accepted,Runs.bind_ok.mpr ⟨_,registered,rfl⟩⟩),?_,?_,?_⟩
  · exact ⟨_,by rw [sendFrom,setConn]; simp only [conns]; rfl,same,reading,writing⟩
  · obtain ⟨s,only,player,kept⟩ := handled_single (c := .accepted 0) single _ _ 0
    exact ⟨s,only,player.trans (congrArg some new),kept.trans callback⟩
  · rw [← game,← kept,← own]
    rfl

end World
end Geoff
