import Geoff.Fields
import Geoff.GameFace
import Geoff.Journal

-- The byte order a session is held in: where it comes from, and what a browser that
-- reads big-endian finds in the fields of the messages built with it.
namespace Geoff.ByteOrder
open World AppBuffer GameFace Consts

def Field.ReadAt (bytes : List UInt8) (offset : Nat) : Field → Prop
  | .byte _ => True
  | .word v => ByteCursor.getUint16 bytes offset = some v
  | .long v => ByteCursor.getUint32 bytes offset = some v

def ReadsBack (fields : List Field) (bytes : List UInt8) : Prop :=
  ∀ before field after, fields = before ++ field :: after → field.ReadAt bytes (before.map Field.width).sum

variable (A : Arith)

def bulletFields (b : Bullet) : List Field := [.word (A.toUint16 b.posX),.word (A.toUint16 b.posY)]

-- The two bytes of room behind the bullets are no field of their own.
def shipFields (s : Ship) : List Field :=
  [.word (A.toUint16 s.posX),.word (A.toUint16 s.posY),.word (A.toUint16 (A.fl (s.angle * fp412))),
    .byte s.flags,.byte (Messages.livesByte s),.word (UInt16.ofNat s.gun.bullets.length)] ++
    s.gun.bullets.flatMap (bulletFields A) ++ if s.gun.bullets = [] then [] else [.byte 0,.byte 0]

def playerFields (p : Player) (sessionID ticks : UInt32) : List Field :=
  [.byte 0xBB,.byte MessageType.playerTickMessage.toUInt8,.long sessionID,.long ticks,.word p.ctxW,.word p.ctxH,
    .word p.ctxOX,.word p.ctxOY,.long p.score,.word p.phase.toUInt16] ++ shipFields A p.ship

def rockFields (node : RockNode) : List Field :=
  [.word (A.toInt16 node.rock.posX).toUInt16,.word (A.toInt16 node.rock.posY).toUInt16,.word (A.toUint16 node.rock.radius)]

def otherShipFields (s : Ship) : List Field :=
  [.word (A.toUint16 s.posX),.word (A.toUint16 s.posY),.word (A.toUint16 (A.fl (s.angle * fp412)))]

def otherBulletFields (b : Bullet) : List Field :=
  [.word (A.toInt16 b.posX).toUInt16,.word (A.toInt16 b.posY).toUInt16]

def section_ {α : Type} (record : α → List Field) (records : List α) : List Field :=
  if records.isEmpty then [] else .word (UInt16.ofNat records.length) :: records.flatMap record

def universeFields (g : Game) (m : SessionMap) (sessionID : UInt32) : List Field :=
  [.byte 0xBB,.byte MessageType.universeTickMessage.toUInt8,.long sessionID,.long g.gUniverse.ticks,
    .word (A.toUint16 g.gUniverse.sizeW),.word (A.toUint16 g.gUniverse.sizeH),
    .word (UInt16.ofNat g.gUniverse.rockField.rocks.length)] ++ g.gUniverse.rockField.rocks.flatMap (rockFields A) ++
    section_ (otherShipFields A) (Messages.otherShips g sessionID m.toList) ++
    section_ (otherBulletFields A) (Messages.bulletsOf (Messages.otherShips g sessionID m.toList))

variable {A} {le : Bool}

theorem encode_records {α : Type} (record : α → List Field) (records : List α) :
    encode le (records.flatMap record) = records.flatMap fun r => encode le (record r) :=
  List.flatMap_assoc

theorem playerTick_fields (p : Player) (sessionID ticks : UInt32) :
    Messages.playerTick A le p sessionID ticks = encode le (playerFields A p sessionID ticks) := by
  have bullets : (fun b => encode le (bulletFields A b)) = Messages.bulletBytes A le := by
    funext b
    simp [encode,bulletFields,Field.bytes,Messages.bulletBytes]
  simp only [playerFields,shipFields,encode_append,encode_records,bullets]
  by_cases empty : p.ship.gun.bullets = []
  · simp [Messages.playerTick,Messages.playerHeader,Messages.shipBytes,Messages.shipState,Messages.gunBytes,Messages.slack,
      encode,Field.bytes,empty]
  · simp [Messages.playerTick,Messages.playerHeader,Messages.shipBytes,Messages.shipState,Messages.gunBytes,Messages.slack,
      encode,Field.bytes,empty]

theorem section_bytes {α : Type} (record : α → List Field) (records : List α) :
    encode le (section_ record records) = if records = [] then [] else
      bytes16 le (UInt16.ofNat records.length) ++ records.flatMap fun r => encode le (record r) := by
  rw [← encode_records]
  cases records with
  | nil => rfl
  | cons first rest => rfl

theorem universeTick_fields (g : Game) (m : SessionMap) (sessionID : UInt32) :
    Messages.universeTick A le g m sessionID = encode le (universeFields A g m sessionID) := by
  have rocks : (fun node => encode le (rockFields A node)) = Messages.rockBytes A le := by
    funext node
    simp [encode,rockFields,Field.bytes,Messages.rockBytes]
  have ships : (fun s => encode le (otherShipFields A s)) = Messages.otherShipBytes A le := by
    funext s
    simp [encode,otherShipFields,Field.bytes,Messages.otherShipBytes]
  have bullets : (fun b => encode le (otherBulletFields A b)) = Messages.otherBulletBytes A le := by
    funext b
    simp [encode,otherBulletFields,Field.bytes,Messages.otherBulletBytes]
  simp only [universeFields,encode_append,section_bytes,encode_records,rocks,ships,bullets]
  simp [Messages.universeTick,Messages.universeHeader,Messages.rocksBytes,Messages.otherShipsBytes,
    Messages.otherBulletsBytes,encode,Field.bytes]

theorem encode_reads (fields : List Field) : ReadsBack fields (encode true fields) := by
  intro before field after split
  have whole : encode true fields = encode true before ++ (field.bytes true ++ encode true after) := by
    rw [split,encode_append]
    rfl
  have width : (encode true before).length = (before.map Field.width).sum := encode_width before
  rw [whole,← width]
  cases field with
  | byte v => trivial
  | word v => simp [Field.ReadAt,Field.bytes,ByteCursor.getUint16,ByteCursor.be16,ByteCursor.word16_bytes]
  | long v => simp [Field.ReadAt,Field.bytes,ByteCursor.getUint32,ByteCursor.be32,ByteCursor.word32_bytes]

-- The width of the universe, 0x2000, is read as 0x0020.
theorem universe_misread {g : Game} (size : g.gUniverse.toSize = ⟨8192,8192⟩) (m : SessionMap) (sessionID : UInt32) :
    ¬ ReadsBack (universeFields A g m sessionID) (encode false (universeFields A g m sessionID)) := by
  intro reads
  have here := reads [.byte 0xBB,.byte MessageType.universeTickMessage.toUInt8,.long sessionID,.long g.gUniverse.ticks]
    (.word (A.toUint16 g.gUniverse.sizeW)) _ rfl
  have width : A.toUint16 g.gUniverse.sizeW = 8192 := by
    rw [size]
    exact A.toUint16_nat (n := 8192) (by omega)
  rw [width] at here
  simp [Field.ReadAt,universeFields,width,encode,Field.bytes,Field.width,ByteCursor.getUint16,bytes16,bytes32,ByteCursor.le16,
    ByteCursor.le32] at here
  exact absurd here (by decide)

structure Agrees (A : Arith) (u : Size) (s : Session) : Prop where
  universal : ∀ g m txBuff, g.gUniverse.toSize = u → g.perSessionTickEvent A m s = .ok txBuff →
    ReadsBack (universeFields A g m s.sessionID) txBuff.wire
  own : ∀ (p p' : Player) ticks txBuff, p.tickEvent A u s.sessionID ticks s.isLittleEndian = .ok (p',txBuff) →
    ReadsBack (playerFields A p' s.sessionID ticks) txBuff.wire

theorem agrees_flag {s : Session} : Agrees A ⟨8192,8192⟩ s ↔ s.isLittleEndian = true := by
  constructor
  · intro agrees
    by_contra other
    have flag : s.isLittleEndian = false := by simpa using other
    have size := (Game.make_fresh A .zeros).size
    have present : Messages.Present (∅ : SessionMap).toList := by
      intro pair member
      have found := Std.TreeMap.mem_toList_iff_getElem?_eq_some.mp member
      simp at found
    have built : (Game.make A .zeros).perSessionTickEvent A ∅ s = .ok _ := Messages.universeTick_built _ present
    have reads := agrees.universal (Game.make A .zeros) ∅ _ size built
    rw [wire_filled,flag,universeTick_fields] at reads
    exact universe_misread size _ _ reads
  · intro flag
    constructor
    · intro g m txBuff _ built
      rw [universeTick_buffer built,wire_filled,flag,universeTick_fields]
      exact encode_reads _
    · intro p p' ticks txBuff built
      rw [Messages.playerTick_built] at built
      cases built
      rw [wire_filled,flag,playerTick_fields]
      exact encode_reads _

structure SameMessages (A : Arith) (s s' : Session) : Prop where
  universal : ∀ (g : Game) m, (g.perSessionTickEvent A m s').map wire = (g.perSessionTickEvent A m s).map wire
  own : ∀ (p : Player) u ticks,
    (p.tickEvent A u s'.sessionID ticks s'.isLittleEndian).map (fun built => built.2.wire) =
      (p.tickEvent A u s.sessionID ticks s.isLittleEndian).map (fun built => built.2.wire)

structure Ignored (A : Arith) (s : Session) (g : Game) (bytes : List UInt8) (beyond : Nat → UInt8) : Prop where
  outcome : (s.commsHandler A g bytes beyond).1 = .ok (s,g)
  later : ∀ s' g', (s.commsHandler A g bytes beyond).1 = .ok (s',g') → SameMessages A s s'

theorem order_visible {s s' : Session} (differs : s'.isLittleEndian ≠ s.isLittleEndian) : ¬ SameMessages A s s' := by
  intro same
  have counts := same.own default default 1
  simp only [Messages.playerTick_built,Except.map,Except.ok.injEq,wire_filled] at counts
  have sixth := congrArg (·[6]?) counts
  cases left : s'.isLittleEndian <;> cases right : s.isLittleEndian
  · exact differs (left.trans right.symm)
  · simp [left,right,Messages.playerTick,Messages.playerHeader,bytes32,ByteCursor.le32,ByteCursor.be32] at sixth
    exact absurd sixth (by decide)
  · simp [left,right,Messages.playerTick,Messages.playerHeader,bytes32,ByteCursor.le32,ByteCursor.be32] at sixth
    exact absurd sixth (by decide)
  · exact differs (left.trans right.symm)

theorem unrecognised_noted (A : Arith) (s : Session) (g : Game) {bytes : List UInt8} {beyond : Nat → UInt8}
    (unrecognised : Session.asked bytes beyond = none) :
    (s.commsHandler A g bytes beyond).1 = .ok (s.noted bytes,g) := by
  unfold Session.asked at unrecognised
  unfold Session.commsHandler Session.noted
  split
  · rfl
  · rename_i long
    rw [if_neg long] at unrecognised
    rw [Session.dispatch_unknown A unrecognised]
    rfl

theorem noted_same {s : Session} {bytes : List UInt8} :
    s.noted bytes = s ↔ bytes.length < 2 ∨ Session.orderOf bytes = s.isLittleEndian := by
  unfold Session.noted
  split
  · rename_i short
    simp [short]
  · rename_i long
    constructor
    · intro same
      exact .inr (congrArg (fun s => s.isLittleEndian) same)
    · intro either
      rw [either.resolve_left long]
      rfl

-- A message of no known type is dropped behind the assignment of the byte order.
theorem unrecognised_ignored_iff (A : Arith) (s : Session) (g : Game) (bytes : List UInt8) (beyond : Nat → UInt8)
    (unrecognised : Session.asked bytes beyond = none) :
    Ignored A s g bytes beyond ↔ bytes.length < 2 ∨ Session.orderOf bytes = s.isLittleEndian := by
  have noted := unrecognised_noted A s g unrecognised
  rw [← noted_same]
  constructor
  · intro ignored
    exact congrArg Prod.fst (Except.ok.inj (noted.symm.trans ignored.outcome))
  · intro same
    rw [same] at noted
    refine ⟨noted,fun s' g' outcome => ?_⟩
    cases noted.symm.trans outcome
    exact ⟨fun _ _ => rfl,fun _ _ _ => rfl⟩

theorem unknown_type_ignored : Ignored .upright (Session.make 0) (Game.make .upright .zeros) [0xAB,0x01] (fun _ => 0) :=
  (unrecognised_ignored_iff .upright (Session.make 0) (Game.make .upright .zeros) [0xAB,0x01] (fun _ => 0) (by decide)).mpr
    (.inr (by decide))

theorem unknown_type_turns_order : Session.asked [0xAA,0x01] (fun _ => 0) = none ∧
    ¬ Ignored .upright (Session.make 0) (Game.make .upright .zeros) [0xAA,0x01] (fun _ => 0) := by
  have unrecognised : Session.asked [0xAA,0x01] (fun _ => 0) = none := by decide
  refine ⟨unrecognised,fun ignored => ?_⟩
  exact order_visible (by decide) (ignored.later _ _ (unrecognised_noted .upright _ _ unrecognised))

-- The order the messages of a session leave it in; a new session is little-endian.
def heldOrder (received : List (List UInt8)) : Bool :=
  received.foldl (fun le bytes => if bytes.length < 2 then le else Session.orderOf bytes) true

theorem heldOrder_next (received : List (List UInt8)) (bytes : List UInt8) :
    heldOrder (received ++ [bytes]) = if bytes.length < 2 then heldOrder received else Session.orderOf bytes :=
  List.foldl_concat ..

def InOrder (j : Journal) : Prop :=
  ∀ id s, j.world.sessionAt id = some s → s.isLittleEndian = heldOrder (j.records id).received

theorem inOrder_step {j next : Journal} {event : Event} (inOrder : InOrder j) (ran : j.step A event = .ok next) :
    InOrder next := by
  intro id s' held
  have origin := step_origin (Journal.step_ok.mp ran).1 held
  by_cases opened : id ∈ (j.world.storeOp event).opened
  · obtain ⟨accept,own⟩ := opened_accept opened
    subst accept
    rw [Journal.step_opened ran opened]
    cases origin with
    | accepted => rfl
    | waited _ _ _ old => exact absurd own (old rfl)
    | answered _ asked => cases asked
    | ticked _ now => cases now
  · rw [Journal.step_kept ran opened]
    cases origin with
    | accepted new own => subst new; exact absurd (by simp [storeOp,StoreOp.opened,own]) opened
    | waited found unasked =>
      rw [unasked]
      simpa using inOrder id _ (sessionAt_some.mpr found)
    | @answered s found bytes beyond asked =>
      rw [asked]
      refine (Session.answered_order A s j.world.game bytes beyond).trans ?_
      rw [inOrder id s (sessionAt_some.mpr found)]
      exact (heldOrder_next _ _).symm
    | @ticked s s' found now _ tick =>
      subst now
      have same : s'.isLittleEndian = s.isLittleEndian := by
        by_cases registered : s.player = none
        · rw [tick.unregistered registered]
        · obtain ⟨g,first,second,_,_,_,rfl⟩ := tick.registered registered
          rfl
      rw [same,inOrder id s (sessionAt_some.mpr found)]
      simp [messageFor]

theorem inOrder_run {rand : Rand} {events : List Event} {j : Journal}
    (ran : Runs.run (Journal.step A) (Journal.make A rand) events = .ok j) : InOrder j := by
  refine Runs.run_invariant InOrder (fun _ _ _ inOrder one => inOrder_step inOrder one) ?_ ran
  intro id s held
  simp [Journal.make,World.make,sessionAt,entry,WebsockSessionManager.make] at held

theorem heldOrder_requests (p : Platform) (requests : List Request) :
    heldOrder (requests.map (Request.bytes p)) = true ↔ p = .little ∨ requests.getLast?.map Request.isKey ≠ some true := by
  rcases List.eq_nil_or_concat' requests with rfl | ⟨before,last,rfl⟩
  · simp [heldOrder]
  · rw [List.map_append,List.map_singleton,heldOrder_next,if_neg (bytes_long p last),Session.orderOf,decide_eq_true_iff,
      bytes_order]
    simp

-- While the last request of a registered browser on a big-endian platform is a key
-- event, the messages for it are built in the wrong order.
theorem byte_order_agrees_iff (A : Arith) (rand : Rand) (events : List Event) (j : Journal)
    (ran : Runs.run (Journal.step A) (Journal.make A rand) events = .ok j) (id : UInt32) (s : Session)
    (held : j.world.sessionAt id = some s) (p : Platform) (requests : List Request)
    (received : (j.records id).received = requests.map (Request.bytes p)) :
    (s.player ≠ none → Agrees A j.world.game.gUniverse.toSize s) ↔
      p = .little ∨ requests.getLast?.map Request.isKey ≠ some true ∨ s.player = none := by
  rw [(timer_run (Journal.world_run ran)).2,agrees_flag,inOrder_run ran id s held,received,heldOrder_requests]
  tauto

structure Serving (received : List (List UInt8)) (s : Session) (j : Journal) : Prop where
  conn : ∃ c, j.world.conns[0]? = some c ∧ c.sessionID = 0 ∧ c.reading = true
  held : j.world.sessionAt 0 = some s
  received : (j.records 0).received = received

theorem serving_accept (A : Arith) (rand : Rand) :
    ∃ j s, (Journal.make A rand).step A .accept = .ok j ∧ Serving [] s j := by
  obtain ⟨w,made,sessions,conns⟩ : ∃ w, World.make A rand = w ∧ w.gSessions = .make ∧ w.conns = [] := ⟨_,rfl,rfl,rfl⟩
  have own : w.gSessions.sessionId = 0 := by rw [sessions]; rfl
  obtain ⟨t,accepted,last⟩ : ∃ t, w.onAccept = .ok t ∧ t.conns = w.conns ++ [.accepted w.gSessions.sessionId] :=
    ⟨_,w.onAccept_ok,rfl⟩
  have entry := accept_own accepted
  have first : Journal.make A rand = ⟨w,fun _ => .empty⟩ := by rw [Journal.make,made]
  have one : w.step A .accept = .ok t := accepted
  have ran := Journal.step_world one fun _ => .empty
  rw [own] at entry
  refine ⟨_,w.acceptedSession,first ▸ ran,⟨?_,sessionAt_some.mpr entry,?_⟩⟩
  · exact ⟨.accepted 0,by rw [last,own,conns]; rfl,rfl,rfl⟩
  · exact congrArg Record.received (Journal.step_opened ran (List.mem_singleton.mpr own.symm))

theorem serving_message {received : List (List UInt8)} {s : Session} {j : Journal} (serving : Serving received s j)
    (bytes : List UInt8) (beyond : Nat → UInt8) : ∃ next s', j.step A (.onRead 0 (.message bytes beyond)) = .ok next ∧
      Serving (received ++ [bytes]) s' next ∧
        (s'.player ≠ none ↔ s.player ≠ none ∨ Session.asked bytes beyond = some .registerSession) := by
  obtain ⟨c,member,id,reading⟩ := serving.conn
  have found : j.world.sessionAt c.sessionID = some s := by rw [id]; exact serving.held
  obtain ⟨t,c',queue,one,member',id',reading',held'⟩ := message_ok (A := A) member reading found bytes beyond
  have ran := Journal.step_world (A := A) one j.records
  rw [id] at id' held'
  refine ⟨_,_,ran,⟨⟨c',member',id',reading'⟩,held',?_⟩,Session.answered_player A s j.world.game bytes beyond⟩
  rw [Journal.step_kept ran (not_opened fun accept => (by cases accept)),serving.received]
  simp [messageFor,member,id]

def registerAndKey : List Request := [.registerClient 800 600,.processKeyEvent 32 true]

theorem key_served (A : Arith) (rand : Rand) (p : Platform) : ∃ events j s,
    Runs.run (Journal.step A) (Journal.make A rand) events = .ok j ∧ j.world.sessionAt 0 = some s ∧ s.player ≠ none ∧
      (j.records 0).received = registerAndKey.map (Request.bytes p) := by
  obtain ⟨j0,s0,accepted,serving⟩ := serving_accept A rand
  obtain ⟨j1,s1,first,serving,player⟩ := serving_message (A := A) serving ((Request.registerClient 800 600).bytes p) fun _ => 0
  obtain ⟨j2,s2,second,serving,kept⟩ := serving_message (A := A) serving ((Request.processKeyEvent 32 true).bytes p) fun _ => 0
  have ran : Runs.run (Journal.step A) (Journal.make A rand) [_,_,_] = .ok j2 :=
    Runs.bind_ok.mpr ⟨j0,accepted,Runs.bind_ok.mpr ⟨j1,first,Runs.bind_ok.mpr ⟨j2,second,rfl⟩⟩⟩
  refine ⟨_,j2,s2,ran,serving.held,kept.mpr (.inl (player.mpr (.inr ?_))),serving.received⟩
  cases p <;> rfl

theorem little_endian_agrees : ∃ (j : Journal) (s : Session), j.world.sessionAt 0 = some s ∧ s.player ≠ none ∧
    Agrees .upright j.world.game.gUniverse.toSize s := by
  obtain ⟨events,j,s,ran,held,player,received⟩ := key_served .upright .zeros .little
  exact ⟨j,s,held,player,
    (byte_order_agrees_iff .upright .zeros events j ran 0 s held .little registerAndKey received).mpr (.inl rfl) player⟩

theorem big_endian_key_misread : ∃ (events : List Event) (j : Journal) (s : Session),
    Runs.run (Journal.step .upright) (Journal.make .upright .zeros) events = .ok j ∧ j.world.sessionAt 0 = some s ∧
      (j.records 0).received = registerAndKey.map (Request.bytes .big) ∧ s.player ≠ none ∧
        ¬ Agrees .upright j.world.game.gUniverse.toSize s := by
  obtain ⟨events,j,s,ran,held,player,received⟩ := key_served .upright .zeros .big
  refine ⟨events,j,s,ran,held,received,player,fun agrees => ?_⟩
  rw [(timer_run (Journal.world_run ran)).2,agrees_flag,inOrder_run ran 0 s held,received] at agrees
  exact absurd agrees (by decide)

end Geoff.ByteOrder
