import Geoff.Messages
import Geoff.ServerSteps

-- Which ids are keys of g_sessions over whole runs: what the look-ups through
-- operator[] do to the store, and what becomes of an ended connection.
namespace Geoff.SessionStore
open World

variable {A : Arith}

def NonNull (m : SessionMap) : Prop := ∀ id : UInt32, m[id]? ≠ some none

theorem nonNull_tags {m : SessionMap} : NonNull m ↔ ∀ id, tags m id ≠ some none := by
  unfold NonNull tags
  constructor
  · intro valid id
    cases found : m[id]? with
    | none => simp
    | some v =>
      cases v with
      | none => exact absurd found (valid id)
      | some s => simp
  · intro valid id found
    exact valid id (by simp [found])

theorem nonNull_present {m : SessionMap} (valid : NonNull m) : Messages.Present m.toList := by
  intro pair member null
  have found := Std.TreeMap.mem_toList_iff_getElem?_eq_some.mp member
  rw [null] at found
  exact valid pair.1 found

theorem destroyRock_avoids (field : RockField) (rand : Rand) (rockIt : Nat) :
    field.destroyRock A rand rockIt ≠ .error .nullSession := by
  unfold RockField.destroyRock
  split
  · simp
  · split
    · simp
    · split <;> simp

theorem scoreRock_avoids (id : UInt32) (address : Nat) (g : Game) (rockIt : Nat) :
    Collision.scoreRock A id address g rockIt ≠ .error .nullSession := by
  unfold Collision.scoreRock
  split
  · simp
  · exact Runs.bind_avoids (destroyRock_avoids _ _ _) (by simp)

theorem playerRound_avoids (g : Game) (pair : UInt32 × Option Nat) :
    Collision.playerRound A g pair ≠ .error .nullSession := by
  unfold Collision.playerRound
  split
  · split <;> simp
  · exact Runs.run_avoids (fun _ => True) (fun _ _ _ _ _ => trivial)
      (fun g rockIt _ => scoreRock_avoids _ _ g rockIt) trivial _

theorem collisionDetection_avoids (g : Game) : g.collisionDetection A ≠ .error .nullSession :=
  Runs.run_avoids (fun _ => True) (fun _ _ _ _ _ => trivial) (fun g pair _ => playerRound_avoids g pair)
    trivial _

theorem tickSession_avoids (g : Game) {m : SessionMap} (valid : NonNull m) (id : UInt32) :
    g.tickSession A m id ≠ .error .nullSession := by
  unfold Game.tickSession
  split
  · simp
  · rename_i null; exact absurd null (valid id)
  · split
    · simp
    · rw [Messages.universeTick_built g (nonNull_present valid)]; simp

theorem gameTick_avoids (g : Game) {m : SessionMap} (valid : NonNull m) (tickCount : UInt32) :
    g.tickEvent A m tickCount ≠ .error .nullSession := by
  refine Runs.bind_avoids (collisionDetection_avoids _) fun g _ => Runs.bind_avoids ?_ (by simp)
  refine Runs.run_avoids NonNull ?_ (fun m id valid => tickSession_avoids g valid id) valid _
  intro m id next valid ran
  rw [nonNull_tags] at valid ⊢
  rwa [tickSession_tags ran]

theorem sessionTick_avoids (s : Session) (g : Game) : s.tickEvent A g ≠ .error .nullSession := by
  cases player : s.player with
  | none => rw [Messages.sessionTick_unregistered player]; simp
  | some address => rw [Messages.sessionTick_built player]; simp

theorem onTxReady_avoids (w : World) (session : Session) : w.onTxReady session ≠ .error .nullSession := by
  unfold onTxReady
  split
  · simp
  · split
    · simp
    · split <;> simp

theorem timerRound_avoids (w : World) (id : UInt32) : w.timerRound A id ≠ .error .nullSession := by
  unfold timerRound
  split
  · exact Runs.bind_avoids (sessionTick_avoids _ _) fun _ _ => onTxReady_avoids _ _
  · simp

theorem tickEvent_avoids {w : World} (valid : NonNull w.gSessions.sessions) :
    w.tickEvent A ≠ .error .nullSession := by
  unfold tickEvent
  split
  · simp
  · refine Runs.bind_avoids (gameTick_avoids _ valid _) fun result _ => ?_
    exact Runs.run_avoids (fun _ => True) (fun _ _ _ _ _ => trivial) (fun w id _ => timerRound_avoids w id)
      trivial _

structure Ledger where
  world : World
  live : Finset UInt32

def recordOp (live : Finset UInt32) : StoreOp → Finset UInt32
  | .add id _ => insert id live
  | .delete id => live.erase id
  | .lookUp _ => live
  | .idle => live

def Ledger.step (A : Arith) (l : Ledger) (event : Event) : Except Fault Ledger := do
  let world ← l.world.step A event
  return ⟨world,recordOp l.live (l.world.storeOp event)⟩

def Ledger.make (A : Arith) (rand : Rand) : Ledger := ⟨World.make A rand,∅⟩

structure Holds (A : Arith) (l : Ledger) : Prop where
  keys : ∀ id, id ∈ l.world.gSessions.sessions ↔ id ∈ l.live
  nonNull : NonNull l.world.gSessions.sessions
  ticks : l.world.step A .tick ≠ .error .nullSession

def LooksUpKey (l : Ledger) (event : Event) : Prop :=
  ∀ id, l.world.storeOp event = .lookUp id → id ∈ l.world.gSessions.sessions

theorem mem_tags {m : SessionMap} {id : UInt32} : id ∈ m ↔ tags m id ≠ none := by
  rw [← Std.TreeMap.isSome_getElem?_iff_mem,tags,ne_eq,Option.map_eq_none_iff,← ne_eq,Option.ne_none_iff_isSome]

structure Exact (t : Tags) (live : Finset UInt32) : Prop where
  keys : ∀ id, t id ≠ none ↔ id ∈ live
  nonNull : ∀ id, t id ≠ some none

theorem holds_exact {l : Ledger} : Holds A l ↔ Exact l.world.tags l.live := by
  constructor
  · intro holds
    exact ⟨fun id => mem_tags.symm.trans (holds.keys id),nonNull_tags.mp holds.nonNull⟩
  · intro exact_
    have valid := nonNull_tags.mpr exact_.nonNull
    exact ⟨fun id => mem_tags.trans (exact_.keys id),valid,tickEvent_avoids valid⟩

theorem exact_apply {t : Tags} {live : Finset UInt32} (exact_ : Exact t live) (op : StoreOp) :
    Exact (op.apply t) (recordOp live op) ↔ ∀ id, op = .lookUp id → t id ≠ none := by
  cases op with
  | add id conn =>
    refine ⟨fun _ _ looked => (by cases looked),fun _ => ⟨fun other => ?_,fun other => ?_⟩⟩
    · by_cases same : other = id
      · subst same; simp [StoreOp.apply,recordOp]
      · simp [StoreOp.apply,recordOp,same,exact_.keys other]
    · by_cases same : other = id
      · subst same; simp [StoreOp.apply]
      · simpa [StoreOp.apply,Function.update_of_ne same] using exact_.nonNull other
  | delete id =>
    refine ⟨fun _ _ looked => (by cases looked),fun _ => ⟨fun other => ?_,fun other => ?_⟩⟩
    · by_cases same : other = id
      · subst same; simp [StoreOp.apply,recordOp]
      · simp [StoreOp.apply,recordOp,same,exact_.keys other]
    · by_cases same : other = id
      · subst same; simp [StoreOp.apply]
      · simpa [StoreOp.apply,Function.update_of_ne same] using exact_.nonNull other
  | lookUp id =>
    constructor
    · rintro after other ⟨⟩ absent
      exact after.nonNull id (by simp [StoreOp.apply,Touched,absent])
    · intro known
      rw [StoreOp.apply,touched_known (known id rfl)]
      exact exact_
  | idle => exact ⟨fun _ _ looked => (by cases looked),fun _ => exact_⟩

theorem store_holds_iff (A : Arith) (rand : Rand) (events : List Event) :
    Runs.Always (Ledger.step A) (Holds A) (Ledger.make A rand) events ↔
      Runs.Steps (Ledger.step A) LooksUpKey (Ledger.make A rand) events := by
  refine Runs.always_iff_steps (fun _ => True) (fun _ _ _ _ _ => trivial) ?_ trivial ?_ events
  · intro l event next _ holds ran
    obtain ⟨world,one,result⟩ := Runs.bind_ok.mp ran
    cases result
    rw [holds_exact] at holds ⊢
    rw [(step_tags one).1,exact_apply holds]
    exact forall₂_congr fun id looked => mem_tags.symm
  · rw [holds_exact]
    have empty : ∀ id, (World.make A rand).tags id = none := by
      intro id
      simp [World.tags,tags,World.make,WebsockSessionManager.make]
    exact ⟨fun id => by simp [Ledger.make,empty],fun id => by simp [Ledger.make,empty]⟩

theorem ledger_run {w t : World} {events : List Event} (ran : Runs.run (World.step A) w events = .ok t)
    (live : Finset UInt32) : ∃ live', Runs.run (Ledger.step A) ⟨w,live⟩ events = .ok ⟨t,live'⟩ := by
  induction events generalizing w live with
  | nil => cases ran; exact ⟨live,rfl⟩
  | cons event rest ih =>
    obtain ⟨middle,one,tail⟩ := Runs.bind_ok.mp ran
    obtain ⟨live',more⟩ := ih tail (recordOp live (w.storeOp event))
    exact ⟨live',Runs.bind_ok.mpr ⟨_,Runs.bind_ok.mpr ⟨middle,one,rfl⟩,more⟩⟩

-- The write of the reply to a registration is still outstanding when the browser
-- closes; its completion looks the deleted id up.
def closeWhileWriting : List Event := joinEvents ++ [.onRead 0 (.error .closed),.onWrite 0 none]

theorem close_while_writing_leaves_null :
    ¬ Runs.Always (Ledger.step .upright) (Holds .upright) (Ledger.make .upright .zeros) closeWhileWriting := by
  obtain ⟨w,join,⟨c,conns,id,reading,writing⟩,_,_⟩ := joined .upright .zeros
  have closed := onRead_error (A := .upright) 0 (by rw [conns]; rfl) reading .closed
  rw [if_pos rfl] at closed
  have written := onWrite_done (A := .upright) (c := {c with reading := false}) 0
    (w := (w.setConn 0 {c with reading := false}).onClose c.sessionID) (by simp [onClose,setConn,conns]) writing
  have ran : Runs.run (World.step .upright) (World.make .upright .zeros) closeWhileWriting = .ok _ :=
    (Runs.run_append _ join).trans (Runs.bind_ok.mpr ⟨_,closed,Runs.bind_ok.mpr ⟨_,written,rfl⟩⟩)
  have deleted := (step_tags closed).1
  have touched := (step_tags written).1
  obtain ⟨live,ran⟩ := ledger_run ran ∅
  intro always
  have holds := always.last ran
  have first : w.storeOp (.onRead 0 (.error .closed)) = .delete 0 := by simp [storeOp,conns,id]
  have second : ((w.setConn 0 {c with reading := false}).onClose c.sessionID).storeOp (.onWrite 0 none) = .lookUp 0 := by
    simp [storeOp,onClose,setConn,conns,id]
  rw [first] at deleted
  rw [second,deleted] at touched
  refine nonNull_tags.mp holds.nonNull 0 ((congrFun touched 0).trans ?_)
  simp [StoreOp.apply,Touched]

-- No session's callback is that of the connection: no tick of a session posts to
-- its executor, and none commits to its queue.
def NoCallback (conn : Nat) (w : World) : Prop :=
  ∀ (id : UInt32) (s : Session), w.gSessions.sessions[id]? = some (some s) → s.txReadyCallback ≠ some conn

def CleanedUp (A : Arith) (w : World) (conn : Nat) (c : WebsocketSession AppBuffer) (ec : ErrorCode) : Prop :=
  ∀ t, w.step A (.onRead conn (.error ec)) = .ok t → c.sessionID ∉ t.gSessions.sessions ∧
    ∀ events later, Runs.run (World.step A) t events = .ok later → NoCallback conn later

theorem noCallback_tags {conn : Nat} {w : World} :
    NoCallback conn w ↔ ∀ id tag, w.tags id = some (some tag) → tag.2 ≠ some conn := by
  constructor
  · intro gone id tag held
    obtain ⟨v,found,same⟩ := Option.map_eq_some_iff.mp held
    obtain ⟨s,rfl,rfl⟩ := Option.map_eq_some_iff.mp same
    exact gone id s found
  · intro gone id s found
    exact gone id s.identity (by rw [World.tags,tags_found found]; rfl)

theorem noCallback_step {conn : Nat} {w t : World} {event : Event} (gone : NoCallback conn w)
    (old : conn < w.conns.length) (ran : w.step A event = .ok t) : NoCallback conn t ∧ conn < t.conns.length := by
  obtain ⟨tags_next,ids_next⟩ := step_tags ran
  have grows := congrArg List.length ids_next
  simp only [connIDs,List.length_map,List.length_append] at grows
  refine ⟨noCallback_tags.mpr fun id tag held => ?_,by omega⟩
  rw [tags_next] at held
  rcases apply_session held with before | ⟨other,added,rfl⟩
  · exact noCallback_tags.mp gone id tag before
  · rw [storeOp_add added]
    exact fun same => absurd (Option.some.inj same) (by omega)

theorem noCallback_run {conn : Nat} {w t : World} {events : List Event} (gone : NoCallback conn w)
    (old : conn < w.conns.length) (ran : Runs.run (World.step A) w events = .ok t) : NoCallback conn t :=
  (Runs.run_invariant (fun w => NoCallback conn w ∧ conn < w.conns.length)
    (fun _ _ _ kept one => noCallback_step kept.1 kept.2 one) ⟨gone,old⟩ ran).1

theorem noCallback_absent {conn : Nat} {w : World} {c : WebsocketSession AppBuffer} (owned : w.Owned)
    (ids : w.connIDs[conn]? = some c.sessionID) (absent : c.sessionID ∉ w.gSessions.sessions) : NoCallback conn w := by
  refine noCallback_tags.mpr fun id tag held callback => ?_
  obtain ⟨_,other,same,here⟩ := owned id tag held
  rw [callback] at same
  cases same
  rw [ids] at here
  cases here
  exact absent (mem_tags.mpr (by rw [← World.tags,held]; simp))

theorem ended_connection_cleaned_iff (A : Arith) (rand : Rand) (events : List Event) (w : World) (conn : Nat)
    (c : WebsocketSession AppBuffer) (ec : ErrorCode)
    (ran : Runs.run (World.step A) (World.make A rand) events = .ok w) (member : w.conns[conn]? = some c)
    (reading : c.reading = true) :
    CleanedUp A w conn c ec ↔ ec = .closed ∨ c.sessionID ∉ w.gSessions.sessions := by
  have ended := onRead_error (A := A) conn member reading ec
  have inside := (List.getElem?_eq_some_iff.mp member).1
  have ids : (w.setConn conn {c with reading := false}).connIDs = w.connIDs := setConn_ids _ member rfl
  constructor
  · intro cleaned
    by_contra other
    obtain ⟨not_closed,key⟩ := not_or.mp other
    rw [if_neg not_closed] at ended
    exact key (cleaned _ ended).1
  · intro either t one
    have absent : c.sessionID ∉ t.gSessions.sessions := by
      rw [ended] at one
      cases one
      split
      · simp [onClose,WebsockSessionManager.deleteById]
      · exact either.resolve_left ‹_›
    have same : t.connIDs = w.connIDs := by
      rw [ended] at one
      cases one
      split
      · exact ids
      · exact ids
    have here : t.connIDs[conn]? = some c.sessionID := by rw [same]; simp [connIDs,member]
    have lengths := congrArg List.length same
    simp only [connIDs,List.length_map] at lengths
    have gone := noCallback_absent (owned_step (owned_run ran) one) here absent
    exact ⟨absent,fun later_events later more => noCallback_run gone (by omega) more⟩

theorem closed_connection_cleaned : ∃ w c, Runs.run (World.step .upright) (World.make .upright .zeros) joinEvents = .ok w ∧
    w.conns[0]? = some c ∧ CleanedUp .upright w 0 c .closed := by
  obtain ⟨w,join,⟨c,conns,_,reading,_⟩,_,_⟩ := joined .upright .zeros
  have member : w.conns[0]? = some c := by rw [conns]; rfl
  exact ⟨w,c,join,member,
    (ended_connection_cleaned_iff .upright .zeros joinEvents w 0 c .closed join member reading).mpr (.inl rfl)⟩

theorem reset_connection_stays : ∃ w c, Runs.run (World.step .upright) (World.make .upright .zeros) joinEvents = .ok w ∧
    w.conns[0]? = some c ∧ c.reading = true ∧ ¬ CleanedUp .upright w 0 c (.other 104) := by
  obtain ⟨w,join,⟨c,conns,id,reading,_⟩,⟨s,single,_⟩,_⟩ := joined .upright .zeros
  have member : w.conns[0]? = some c := by rw [conns]; rfl
  refine ⟨w,c,join,member,reading,fun cleaned => ?_⟩
  have ended := onRead_error (A := .upright) 0 member reading (.other 104)
  rw [if_neg (by simp)] at ended
  refine (cleaned _ ended).1 ?_
  rw [id]
  exact Std.TreeMap.isSome_getElem?_iff_mem.mp (by rw [setConn,(getElem_single single).1]; rfl)

end Geoff.SessionStore
