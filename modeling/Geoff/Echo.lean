import Geoff.RequestReads
import Geoff.Requests
import Geoff.SessionSteps

-- The handlers of lib/src/GameSession.cpp, for a game that overrides none of them: they
-- echo what the client sends. Their assertions end the server.
namespace Geoff.Echo
open ByteCursor
open RequestReads (requestType)

inductive Halt where
  | assertion
  | fault (fault : Fault)
deriving DecidableEq, Repr

abbrev GameSession := WebsockSession AppBuffer

def assert (holds : Bool) : Except Halt Unit := if holds then .ok () else .error .assertion

namespace GameSession

def sessionRegistered (sessionID : UInt32) (isLittleEndian : Bool) : Except Fault AppBuffer := do
  let txBuffer := AppBuffer.make 12 isLittleEndian
  let txBuffer ← txBuffer.setUint8 0xBB
  let txBuffer ← txBuffer.setUint8 MessageType.sessionRegistered.toUInt8
  let txBuffer ← txBuffer.setUint32 sessionID
  txBuffer.setUint16 gameAppVersion

def keyMessage (sessionID : UInt32) (isDown : Bool) (keyCode : UInt8) (isLittleEndian : Bool) : Except Fault AppBuffer := do
  let txBuffer := AppBuffer.make 8 isLittleEndian
  let txBuffer ← txBuffer.setUint8 0xBB
  let txBuffer ← txBuffer.setUint8 MessageType.keyMessage.toUInt8
  let txBuffer ← txBuffer.setUint32 sessionID
  let txBuffer ← txBuffer.setUint8 (if isDown then 1 else 0)
  txBuffer.setUint8 keyCode

def clickMessage (sessionID : UInt32) (clickX clickY : UInt16) (isLittleEndian : Bool) : Except Fault AppBuffer := do
  let txBuffer := AppBuffer.make 12 isLittleEndian
  let txBuffer ← txBuffer.setUint8 0xBB
  let txBuffer ← txBuffer.setUint8 MessageType.clickMessage.toUInt8
  let txBuffer ← txBuffer.setUint32 sessionID
  let txBuffer ← txBuffer.setUint16 clickX
  txBuffer.setUint16 clickY

def commitBuilt (s : GameSession) (built : Except Fault AppBuffer) : Except Halt GameSession := do
  let txBuffer ← built.mapError .fault
  return s.commitTxBuffer txBuffer

def handleNewSession (s : GameSession) (rx : Rx) : Except Halt GameSession :=
  commitBuilt s (sessionRegistered s.sessionID rx.buffer.isLittleEndian)

def handleKeyEvent (s : GameSession) (rx : Rx) : Except Halt GameSession := do
  assert (rx.buffer.size ≥ 3)
  let isDown := rx.uint8 1 ≠ 0
  let keyCode := rx.uint8 2
  commitBuilt s (keyMessage s.sessionID isDown keyCode rx.buffer.isLittleEndian)

def handleClickEvent (s : GameSession) (rx : Rx) : Except Halt GameSession := do
  assert (rx.buffer.size ≥ 11)
  let rxSessionID := rx.buffer.getUint32At rx.beyond 1
  let clickX := rx.uint16 5
  let clickY := rx.uint16 7
  assert (rxSessionID = s.sessionID)
  commitBuilt s (clickMessage s.sessionID clickX clickY rx.buffer.isLittleEndian)

def handleResizeEvent (s : GameSession) (_rx : Rx) : Except Halt GameSession := .ok s

def dispatch (s : GameSession) (rx : Rx) : Except Halt GameSession :=
  match RequestType.ofUInt8 (rx.uint8 0) with
  | some .registerSession => s.handleNewSession rx
  | some .clickEvent => s.handleClickEvent rx
  | some .keyEvent => s.handleKeyEvent rx
  | some .resizeEvent => s.handleResizeEvent rx
  | none => .ok s

def commsHandler (s : GameSession) (message : List UInt8 × (Nat → UInt8)) : Except Halt GameSession :=
  if message.1.length < 2 then .ok s else
  let rx := Session.rxBuffer message.1 message.2
  GameSession.dispatch {s with isLittleEndian := rx.buffer.isLittleEndian} rx

end GameSession

def echo (sessionID : UInt32) (bytes : List UInt8) : Option (List UInt8) :=
  if bytes.length < 2 then none else
  match requestType bytes with
  | some .registerSession =>
    some ([0xBB,0x01] ++ AppBuffer.bytes32 (Session.orderOf bytes) sessionID ++
      AppBuffer.bytes16 (Session.orderOf bytes) gameAppVersion)
  | some .clickEvent => some ([0xBB,0x03] ++ (bytes.drop 2).take 8)
  | some .keyEvent =>
    some ([0xBB,0x05] ++ AppBuffer.bytes32 (Session.orderOf bytes) sessionID ++
      [if bytes.getD 2 0 ≠ 0 then 1 else 0,bytes.getD 3 0])
  | some .resizeEvent => none
  | none => none

def Acceptable (sessionID : UInt32) (bytes : List UInt8) : Prop :=
  bytes.length < 2 ∨ match requestType bytes with
    | some .clickEvent => 12 ≤ bytes.length ∧ (bytes.drop 2).take 4 = AppBuffer.bytes32 (Session.orderOf bytes) sessionID
    | some .keyEvent => 4 ≤ bytes.length
    | _ => True

theorem bytes16_read (le : Bool) (b0 b1 : UInt8) :
    AppBuffer.bytes16 le (if le then word16 b0 b1 else word16 b1 b0) = [b0,b1] := by
  cases le with
  | false => exact le16_word b1 b0
  | true =>
    have reversed := congrArg List.reverse (le16_word b0 b1)
    exact reversed

theorem bytes32_read (le : Bool) (b0 b1 b2 b3 : UInt8) :
    AppBuffer.bytes32 le (if le then word32 b0 b1 b2 b3 else word32 b3 b2 b1 b0) = [b0,b1,b2,b3] := by
  cases le with
  | false => exact le32_word b3 b2 b1 b0
  | true =>
    have reversed := congrArg List.reverse (le32_word b0 b1 b2 b3)
    exact reversed

theorem bytes32_inj (le : Bool) {v w : UInt32} (same : AppBuffer.bytes32 le v = AppBuffer.bytes32 le w) : v = w := by
  cases le with
  | false =>
    simp only [AppBuffer.bytes32,Bool.false_eq_true,if_false,le32,List.cons.injEq,and_true] at same
    obtain ⟨b0,b1,b2,b3⟩ := same
    rw [← word32_bytes v,← word32_bytes w,b0,b1,b2,b3]
  | true =>
    simp only [AppBuffer.bytes32,if_true,be32,List.cons.injEq,and_true] at same
    obtain ⟨b3,b2,b1,b0⟩ := same
    rw [← word32_bytes v,← word32_bytes w,b0,b1,b2,b3]

open AppBuffer

theorem sessionRegistered_built (id : UInt32) (le : Bool) : GameSession.sessionRegistered id le =
    .ok (filled le ([0xBB,0x01] ++ bytes32 le id ++ bytes16 le gameAppVersion) 4) := by
  simp (disch := omega) only [GameSession.sessionRegistered,make_filled,setUint8_filled,setUint16_filled,setUint32_filled,
    Runs.ok_bind]
  rfl

theorem keyMessage_built (id : UInt32) (isDown : Bool) (keyCode : UInt8) (le : Bool) : GameSession.keyMessage id isDown keyCode le =
    .ok (filled le ([0xBB,0x05] ++ bytes32 le id ++ [if isDown then 1 else 0,keyCode]) 0) := by
  simp (disch := omega) only [GameSession.keyMessage,make_filled,setUint8_filled,setUint32_filled,Runs.ok_bind,
    List.append_assoc]
  rfl

theorem clickMessage_built (id : UInt32) (clickX clickY : UInt16) (le : Bool) : GameSession.clickMessage id clickX clickY le =
    .ok (filled le ([0xBB,0x03] ++ bytes32 le id ++ bytes16 le clickX ++ bytes16 le clickY) 2) := by
  simp (disch := omega) only [GameSession.clickMessage,make_filled,setUint8_filled,setUint16_filled,setUint32_filled,
    Runs.ok_bind]
  rfl

structure Answered (s t : GameSession) (answer : Option (List UInt8)) : Prop where
  sessionID : t.sessionID = s.sessionID
  queue : t.txQue.map wire = s.txQue.map wire ++ answer.toList

theorem commit_answered (s : GameSession) {built : Except Fault AppBuffer} {le : Bool} {bytes : List UInt8} {room : Nat}
    (ok : built = .ok (filled le bytes room)) : ∃ t, s.commitBuilt built = .ok t ∧ Answered s t (some bytes) := by
  subst ok
  refine ⟨_,rfl,rfl,?_⟩
  rw [WebsockSession.commitTxBuffer,List.map_append,List.map_singleton,wire_filled]
  rfl

section Handlers
variable (s : GameSession) (kind : UInt8) (rest : List UInt8) (le : Bool) (beyond : Nat → UInt8)

theorem key_answered (long : 2 ≤ rest.length) : ∃ t, s.handleKeyEvent ⟨.ofBytes (kind :: rest) le,beyond⟩ = .ok t ∧
    Answered s t (some ([0xBB,0x05] ++ bytes32 le s.sessionID ++ [if rest.getD 0 0 ≠ 0 then 1 else 0,rest.getD 1 0])) := by
  match rest,long with
  | down :: key :: rest,_ =>
    have room : assert (decide ((⟨.ofBytes (kind :: down :: key :: rest) le,beyond⟩ : Rx).buffer.size ≥ 3)) = .ok () :=
      if_pos (decide_eq_true (Nat.le_add_left 3 rest.length))
    obtain ⟨t,committed,answered⟩ := commit_answered s (keyMessage_built s.sessionID (decide (down ≠ 0)) key le)
    rw [GameSession.handleKeyEvent,room]
    refine ⟨t,committed,?_⟩
    simpa using answered

theorem key_refused (short : rest.length < 2) :
    s.handleKeyEvent ⟨.ofBytes (kind :: rest) le,beyond⟩ = .error .assertion := by
  have none_left : assert (decide ((⟨.ofBytes (kind :: rest) le,beyond⟩ : Rx).buffer.size ≥ 3)) = .error .assertion := by
    refine if_neg fun holds => ?_
    have room : rest.length + 1 ≥ 3 := of_decide_eq_true holds
    omega
  rw [GameSession.handleKeyEvent,none_left]
  rfl

theorem click_answered (long : 10 ≤ rest.length) (own : rest.take 4 = bytes32 le s.sessionID) :
    ∃ t, s.handleClickEvent ⟨.ofBytes (kind :: rest) le,beyond⟩ = .ok t ∧ Answered s t (some ([0xBB,0x03] ++ rest.take 8)) := by
  match rest,long with
  | i0 :: i1 :: i2 :: i3 :: x0 :: x1 :: y0 :: y1 :: p :: q :: rest,_ =>
    have room : assert (decide ((⟨.ofBytes (kind :: i0 :: i1 :: i2 :: i3 :: x0 :: x1 :: y0 :: y1 :: p :: q :: rest) le,
        beyond⟩ : Rx).buffer.size ≥ 11)) = .ok () := if_pos (decide_eq_true (Nat.le_add_left 11 rest.length))
    have same : (if le then word32 i0 i1 i2 i3 else word32 i3 i2 i1 i0) = s.sessionID :=
      bytes32_inj le ((bytes32_read le i0 i1 i2 i3).trans own)
    have named : assert (decide ((if le then word32 i0 i1 i2 i3 else word32 i3 i2 i1 i0) = s.sessionID)) = .ok () :=
      if_pos (decide_eq_true same)
    obtain ⟨t,committed,answered⟩ := commit_answered s (clickMessage_built s.sessionID (if le then word16 x0 x1 else word16 x1 x0)
      (if le then word16 y0 y1 else word16 y1 y0) le)
    rw [bytes16_read,bytes16_read,← own] at answered
    rw [GameSession.handleClickEvent,room]
    exact ⟨t,(congrArg (· >>= fun _ => _) named).trans committed,answered⟩

theorem click_refused (refused : ¬ (10 ≤ rest.length ∧ rest.take 4 = bytes32 le s.sessionID)) :
    s.handleClickEvent ⟨.ofBytes (kind :: rest) le,beyond⟩ = .error .assertion := by
  by_cases long : 10 ≤ rest.length
  · match rest,long with
    | i0 :: i1 :: i2 :: i3 :: x0 :: x1 :: y0 :: y1 :: p :: q :: rest,_ =>
      have other : (if le then word32 i0 i1 i2 i3 else word32 i3 i2 i1 i0) ≠ s.sessionID := by
        intro same
        refine refused ⟨Nat.le_add_left 10 rest.length,?_⟩
        rw [← same,bytes32_read]
        rfl
      have room : assert (decide ((⟨.ofBytes (kind :: i0 :: i1 :: i2 :: i3 :: x0 :: x1 :: y0 :: y1 :: p :: q :: rest) le,
          beyond⟩ : Rx).buffer.size ≥ 11)) = .ok () := if_pos (decide_eq_true (Nat.le_add_left 11 rest.length))
      have named : assert (decide ((if le then word32 i0 i1 i2 i3 else word32 i3 i2 i1 i0) = s.sessionID)) =
          .error .assertion := if_neg fun holds => other (of_decide_eq_true holds)
      rw [GameSession.handleClickEvent,room]
      exact congrArg (· >>= fun _ => _) named
  · have none_left : assert (decide ((⟨.ofBytes (kind :: rest) le,beyond⟩ : Rx).buffer.size ≥ 11)) = .error .assertion := by
      refine if_neg fun holds => long ?_
      have room : rest.length + 1 ≥ 11 := of_decide_eq_true holds
      omega
    rw [GameSession.handleClickEvent,none_left]
    rfl

end Handlers

theorem handler_echoes (s : GameSession) (message : List UInt8 × (Nat → UInt8)) :
    (Acceptable s.sessionID message.1 → ∃ t, s.commsHandler message = .ok t ∧ Answered s t (echo s.sessionID message.1)) ∧
      (¬ Acceptable s.sessionID message.1 → s.commsHandler message = .error .assertion) := by
  obtain ⟨bytes,beyond⟩ := message
  match bytes with
  | [] => exact ⟨fun _ => ⟨s,rfl,rfl,(List.append_nil _).symm⟩,fun refused => absurd (.inl Nat.zero_lt_two) refused⟩
  | [_] => exact ⟨fun _ => ⟨s,rfl,rfl,(List.append_nil _).symm⟩,fun refused => absurd (.inl Nat.one_lt_two) refused⟩
  | first :: kind :: rest =>
    have long : ¬ (first :: kind :: rest).length < 2 := by simp
    have type : requestType (first :: kind :: rest) = RequestType.ofUInt8 kind := rfl
    have handled : s.commsHandler (first :: kind :: rest,beyond) =
      GameSession.dispatch {s with isLittleEndian := Session.orderOf (first :: kind :: rest)}
        ⟨.ofBytes (kind :: rest) (Session.orderOf (first :: kind :: rest)),beyond⟩ := if_neg long
    have read : (⟨.ofBytes (kind :: rest) (Session.orderOf (first :: kind :: rest)),beyond⟩ : Rx).uint8 0 = kind := rfl
    have below : ∀ {n}, (first :: kind :: rest).length < n + 2 → rest.length < n := fun short => by simpa using short
    have above : ∀ {n}, n + 2 ≤ (first :: kind :: rest).length → n ≤ rest.length := fun room => by simpa using room
    unfold GameSession.dispatch at handled
    rw [read] at handled
    rw [handled,echo,if_neg long,Acceptable,or_iff_right long,type]
    cases RequestType.ofUInt8 kind with
    | none => exact ⟨fun _ => ⟨_,rfl,rfl,(List.append_nil _).symm⟩,fun refused => absurd trivial refused⟩
    | some request =>
      cases request with
      | resizeEvent => exact ⟨fun _ => ⟨_,rfl,rfl,(List.append_nil _).symm⟩,fun refused => absurd trivial refused⟩
      | registerSession =>
        refine ⟨fun _ => ?_,fun refused => absurd trivial refused⟩
        obtain ⟨t,committed,id,queue⟩ := commit_answered {s with isLittleEndian := Session.orderOf (first :: kind :: rest)}
          (sessionRegistered_built s.sessionID (Session.orderOf (first :: kind :: rest)))
        exact ⟨t,committed,id,queue⟩
      | keyEvent =>
        constructor
        · intro room
          obtain ⟨t,committed,id,queue⟩ := key_answered {s with isLittleEndian := Session.orderOf (first :: kind :: rest)}
            kind rest (Session.orderOf (first :: kind :: rest)) beyond (above room)
          exact ⟨t,committed,id,queue⟩
        · intro short
          exact key_refused _ kind rest _ beyond (below (not_le.mp short))
      | clickEvent =>
        constructor
        · rintro ⟨room,own⟩
          obtain ⟨t,committed,id,queue⟩ := click_answered {s with isLittleEndian := Session.orderOf (first :: kind :: rest)}
            kind rest (Session.orderOf (first :: kind :: rest)) beyond (above room) own
          exact ⟨t,committed,id,queue⟩
        · intro other
          refine click_refused _ kind rest _ beyond fun ⟨room,own⟩ => other ⟨?_,own⟩
          show 12 ≤ rest.length + 2
          omega

theorem run_echoes {s t : GameSession} {messages : List (List UInt8 × (Nat → UInt8))}
    (ran : Runs.run GameSession.commsHandler s messages = .ok t) :
    (∀ message ∈ messages, Acceptable s.sessionID message.1) ∧
      t.txQue.map wire = s.txQue.map wire ++ messages.filterMap fun message => echo s.sessionID message.1 := by
  induction messages generalizing s with
  | nil =>
    cases ran
    exact ⟨fun _ member => absurd member List.not_mem_nil,(List.append_nil _).symm⟩
  | cons message rest ih =>
    obtain ⟨next,one,tail⟩ := Runs.bind_ok.mp ran
    obtain ⟨taken,refused⟩ := handler_echoes s message
    have here : Acceptable s.sessionID message.1 := by
      by_contra against
      rw [refused against] at one
      cases one
    obtain ⟨next',same,id,queue⟩ := taken here
    cases same.symm.trans one
    obtain ⟨later,queued⟩ := ih tail
    rw [id] at later queued
    refine ⟨List.forall_mem_cons.mpr ⟨here,later⟩,?_⟩
    rw [queued,queue,List.filterMap_cons,List.append_assoc]
    cases echo s.sessionID message.1 <;> rfl

theorem acceptable_run {s : GameSession} {messages : List (List UInt8 × (Nat → UInt8))}
    (acceptable : ∀ message ∈ messages, Acceptable s.sessionID message.1) :
    ∃ t, Runs.run GameSession.commsHandler s messages = .ok t := by
  have one : ∀ v message, message ∈ messages → v.sessionID = s.sessionID →
      ∃ t, GameSession.commsHandler v message = .ok t ∧ t.sessionID = s.sessionID := by
    intro v message member own
    have here := acceptable message member
    rw [← own] at here
    obtain ⟨t,handled,id,_⟩ := (handler_echoes v message).1 here
    exact ⟨t,handled,id.trans own⟩
  obtain ⟨t,ran,_⟩ := Runs.run_succeeds (fun v : GameSession => v.sessionID = s.sessionID) one rfl
  exact ⟨t,ran⟩

-- A run of messages gets to its end just if no assertion is against any of them, and then
-- the queue has the echoes in their order.
theorem echoes_iff (s : GameSession) (messages : List (List UInt8 × (Nat → UInt8))) :
    ((∃ t, Runs.run GameSession.commsHandler s messages = .ok t) ↔ ∀ message ∈ messages, Acceptable s.sessionID message.1) ∧
      ∀ t, Runs.run GameSession.commsHandler s messages = .ok t →
        t.txQue.map wire = s.txQue.map wire ++ messages.filterMap fun message => echo s.sessionID message.1 :=
  ⟨⟨fun ⟨_,ran⟩ => (run_echoes ran).1,acceptable_run⟩,fun _ ran => (run_echoes ran).2⟩

section Pages
open GameFace Requests

def readKey : Cursor (UInt32 × UInt8 × UInt8) := do
  seek 2
  let sessionID ← u32
  let isDown ← u8
  let key ← u8
  return (sessionID,isDown,key)

def keyOf (data : List UInt8) : Option (UInt32 × UInt8 × UInt8) :=
  if data[0]? = some 0xBB ∧ data[1]? = some MessageType.keyMessage.toUInt8 then (readKey data 0).map Prod.fst else none

def reversed (v : UInt32) : UInt32 := word32 v.toUInt8 (v >>> 8).toUInt8 (v >>> 16).toUInt8 (v >>> 24).toUInt8

def sentKey (p : Platform) (id : UInt32) : Call → Option (UInt32 × UInt8 × UInt8)
  | .processKeyEvent keyCode isDown => some (if isLittle p then id else reversed id,if isDown then 1 else 0,toUint8 keyCode)
  | _ => none

def Names (id : UInt32) : Call → Prop
  | .onClick sessionID _ _ => toUint32 sessionID = id
  | _ => True

theorem call_acceptable (p : Platform) {id : UInt32} {call : Call} (names : Names id call) : Acceptable id (call.bytes p) := by
  refine .inr ?_
  cases call with
  | registerClient width height => trivial
  | onResize sessionID width height => trivial
  | processKeyEvent keyCode isDown => exact le_refl 4
  | onClick sessionID clientX clientY =>
    have order : Session.orderOf (Call.bytes p (.onClick sessionID clientX clientY)) = true := by
      simp [Session.orderOf,Call.bytes,Call.request,Request.bytes]
    show 12 ≤ 12 ∧ _
    rw [order]
    refine ⟨le_refl 12,?_⟩
    rw [← names]
    rfl

theorem key_read (b3 b2 b1 b0 down key : UInt8) :
    keyOf [0xBB,0x05,b3,b2,b1,b0,down,key] = some (word32 b3 b2 b1 b0,down,key) := rfl

theorem key_echoed (p : Platform) (id : UInt32) (call : Call) : (echo id (call.bytes p)).bind keyOf = sentKey p id call := by
  cases call with
  | registerClient width height => rfl
  | onResize sessionID width height => rfl
  | onClick sessionID clientX clientY => rfl
  | processKeyEvent keyCode isDown =>
    have flag : (if (if isDown then (1 : UInt8) else 0) ≠ 0 then (1 : UInt8) else 0) = if isDown then 1 else 0 := by
      cases isDown <;> rfl
    cases p with
    | little =>
      have answer : echo id (Call.bytes .little (.processKeyEvent keyCode isDown)) = some ([0xBB,0x05] ++ be32 id ++
          [if (if isDown then (1 : UInt8) else 0) ≠ 0 then 1 else 0,toUint8 keyCode]) := rfl
      rw [answer,flag,Option.bind_some]
      refine (key_read ..).trans ?_
      rw [word32_bytes]
      rfl
    | big =>
      have answer : echo id (Call.bytes .big (.processKeyEvent keyCode isDown)) = some ([0xBB,0x05] ++ le32 id ++
          [if (if isDown then (1 : UInt8) else 0) ≠ 0 then 1 else 0,toUint8 keyCode]) := rfl
      rw [answer,flag,Option.bind_some]
      exact key_read ..

-- A page whose clicks name its session never has an assertion fail, and among the answers
-- it finds the keys of its own calls, in their order. One on a big-endian platform gets its
-- session id with them reversed.
theorem keys_come_back (p : Platform) (s : GameSession) (empty : s.txQue = []) (calls : List (Call × (Nat → UInt8)))
    (names : ∀ call ∈ calls, Names s.sessionID call.1) :
    ∃ t, Runs.run GameSession.commsHandler s (calls.map fun call => (call.1.bytes p,call.2)) = .ok t ∧
      (t.txQue.map wire).filterMap keyOf = calls.filterMap fun call => sentKey p s.sessionID call.1 := by
  have acceptable : ∀ message ∈ calls.map (fun call => (call.1.bytes p,call.2)), Acceptable s.sessionID message.1 := by
    intro message member
    obtain ⟨call,sent,rfl⟩ := List.mem_map.mp member
    exact call_acceptable p (names call sent)
  obtain ⟨t,ran⟩ := acceptable_run acceptable
  refine ⟨t,ran,?_⟩
  rw [(run_echoes ran).2,empty,List.map_nil,List.nil_append,List.filterMap_map,List.filterMap_filterMap]
  exact List.filterMap_congr fun call _ => key_echoed p s.sessionID call.1

theorem thrust_comes_back : ∃ t, Runs.run GameSession.commsHandler (.make 7)
      [(Call.bytes .little (.processKeyEvent 38 true),fun _ => 0),(Call.bytes .little (.onClick (some 7) 10 20),fun _ => 0)] = .ok t ∧
    (t.txQue.map wire).filterMap keyOf = [(7,1,38)] := by
  obtain ⟨t,ran,keys⟩ := keys_come_back .little (.make 7) rfl
    [(.processKeyEvent 38 true,fun _ => 0),(.onClick (some 7) 10 20,fun _ => 0)] (by
      intro call member
      rcases List.mem_cons.mp member with rfl | later
      · trivial
      · rw [List.mem_singleton.mp later]
        show toUint32 (some 7) = 7
        decide +kernel)
  refine ⟨t,ran,keys.trans ?_⟩
  decide +kernel

end Pages

end Geoff.Echo
