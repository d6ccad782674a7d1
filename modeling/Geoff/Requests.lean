import Geoff.GameFace

-- What the browser's requests mean to the server: every handler first decodes its
-- request by positional reads, and acts on the values it has then.
namespace Geoff.Requests
open GameFace Session ByteCursor

-- A call of an encoder of GameFace.js, with the numbers as the browser has them.
-- `sessionID` is undefined until the server has sent one.
inductive Call where
  | registerClient (width height : ℚ)
  | onResize (sessionID : Option ℚ) (width height : ℚ)
  | processKeyEvent (keyCode : ℚ) (isDown : Bool)
  | onClick (sessionID : Option ℚ) (clientX clientY : ℚ)

-- ToUint8, ToUint16 and ToUint32 of a number; undefined becomes 0.
def toUint8 (x : ℚ) : UInt8 := UInt8.ofInt (trunc x)
def toUint16 (x : ℚ) : UInt16 := UInt16.ofInt (trunc x)
def toUint32 (x : Option ℚ) : UInt32 := (x.map fun x => UInt32.ofInt (trunc x)).getD 0

def Call.request : Call → Request
  | .registerClient width height => .registerClient (toUint16 width) (toUint16 height)
  | .onResize sessionID width height => .onResize (toUint32 sessionID) (toUint16 width) (toUint16 height)
  | .processKeyEvent keyCode isDown => .processKeyEvent (toUint8 keyCode) isDown
  | .onClick sessionID clientX clientY => .onClick (toUint32 sessionID) (toUint16 clientX) (toUint16 clientY)

def Call.bytes (p : Platform) (call : Call) : List UInt8 := call.request.bytes p

def Call.requestType : Call → RequestType
  | .registerClient _ _ => .registerSession
  | .onResize _ _ _ => .resizeEvent
  | .processKeyEvent _ _ => .keyEvent
  | .onClick _ _ _ => .clickEvent

inductive Extracted where
  | registerSession (w h : UInt16)
  | clickEvent (clickX clickY : UInt16)
  | keyEvent (key : UInt8) (isDown : Bool)
  | resizeEvent (width height : UInt16)

section Decoding
variable (beyond : Nat → UInt8)

def getUint8 (byteOffset : Nat) : StateM AppBuffer UInt8 := fun ab => (ab.getUint8At beyond byteOffset,ab)
def getUint16 (byteOffset : Nat) : StateM AppBuffer UInt16 := fun ab => (ab.getUint16At beyond byteOffset,ab)

def decode : RequestType → StateM AppBuffer Extracted
  | .registerSession => do
    let w ← getUint16 beyond 3
    let h ← getUint16 beyond 5
    return .registerSession w h
  | .keyEvent => do
    let key ← getUint8 beyond 2
    let isDown ← getUint8 beyond 1
    return .keyEvent key (decide (isDown ≠ 0))
  | .clickEvent => do
    let clickX ← getUint16 beyond 5
    let clickY ← getUint16 beyond 7
    return .clickEvent clickX clickY
  | .resizeEvent => do
    let width ← getUint16 beyond 5
    let height ← getUint16 beyond 7
    return .resizeEvent width height

end Decoding

variable (A : Arith)

def act (s : Session) (g : Game) (le : Bool) : Extracted → Except Fault (Session × Game)
  | .registerSession w h => s.register A g w h le
  | .clickEvent clickX clickY =>
    match s.player with
    | none => .ok (s,g)
    | some address => .ok (s,g.launchRock A ((g.memory address).clickPoint clickX clickY))
  | .keyEvent key isDown =>
    match s.player with
    | none => .ok (s,g)
    | some address => .ok (s,g.setPlayer address ((g.memory address).keyEvent A key.toNat isDown))
  | .resizeEvent width height =>
    match s.player with
    | none => .ok (s,g)
    | some address => .ok (s,g.setPlayer address ((g.memory address).resizeEvent A g.gUniverse.toSize width height))

theorem handle_decoded (s : Session) (g : Game) (kind : RequestType) (rx : Rx) :
    (s.handle A g kind rx).1 = act A s g rx.buffer.isLittleEndian (decode rx.beyond kind rx.buffer).1 := by
  cases kind with
  | registerSession => rfl
  | clickEvent => rfl
  | keyEvent => rfl
  | resizeEvent => rfl

theorem decode_buffer (beyond : Nat → UInt8) (kind : RequestType) (ab : AppBuffer) : (decode beyond kind ab).2 = ab := by
  cases kind with
  | registerSession => rfl
  | clickEvent => rfl
  | keyEvent => rfl
  | resizeEvent => rfl

theorem commsHandler_decoded (s : Session) (g : Game) {bytes : List UInt8} {beyond : Nat → UInt8} {kind : RequestType}
    (known : asked bytes beyond = some kind) : (s.commsHandler A g bytes beyond).1 =
      act A (s.setLittleEndian (rxBuffer bytes beyond).buffer.isLittleEndian) g (rxBuffer bytes beyond).buffer.isLittleEndian
        (decode beyond kind (rxBuffer bytes beyond).buffer).1 := by
  unfold asked at known
  split at known
  · cases known
  · rename_i long
    rw [commsHandler,if_neg long,dispatch_known A known]
    exact handle_decoded A _ g kind _

def Meant : Call → Extracted → Prop
  | .registerClient width height,.registerSession w h =>
    (w.toNat : ℤ) = trunc width % 65536 ∧ (h.toNat : ℤ) = trunc height % 65536
  | .onResize _ width height,.resizeEvent w h =>
    (w.toNat : ℤ) = trunc width % 65536 ∧ (h.toNat : ℤ) = trunc height % 65536
  | .processKeyEvent keyCode isDown,.keyEvent key down => (key.toNat : ℤ) = trunc keyCode % 256 ∧ down = isDown
  | .onClick _ clientX clientY,.clickEvent x y =>
    (x.toNat : ℤ) = trunc clientX % 65536 ∧ (y.toNat : ℤ) = trunc clientY % 65536
  | _,_ => False

theorem toUint16_mod (x : ℚ) : ((toUint16 x).toNat : ℤ) = trunc x % 65536 := by
  simp [toUint16,UInt16.ofInt]
  omega

theorem toUint8_mod (x : ℚ) : ((toUint8 x).toNat : ℤ) = trunc x % 256 := by
  simp [toUint8,UInt8.ofInt]
  omega

def Call.found : Call → Extracted
  | .registerClient width height => .registerSession (toUint16 width) (toUint16 height)
  | .onResize _ width height => .resizeEvent (toUint16 width) (toUint16 height)
  | .processKeyEvent keyCode isDown => .keyEvent (toUint8 keyCode) isDown
  | .onClick _ clientX clientY => .clickEvent (toUint16 clientX) (toUint16 clientY)

theorem found_meant (call : Call) : Meant call call.found := by
  cases call with
  | registerClient width height => exact ⟨toUint16_mod width,toUint16_mod height⟩
  | onResize sessionID width height => exact ⟨toUint16_mod width,toUint16_mod height⟩
  | processKeyEvent keyCode isDown => exact ⟨toUint8_mod keyCode,rfl⟩
  | onClick sessionID clientX clientY => exact ⟨toUint16_mod clientX,toUint16_mod clientY⟩

-- All words go out big-endian under a header byte that has them read so. A key event
-- has no word, so its header byte may say either.
theorem call_found (p : Platform) (call : Call) (beyond : Nat → UInt8) :
    (decode beyond call.requestType (rxBuffer (call.bytes p) beyond).buffer).1 = call.found := by
  have word : ∀ (before after : List UInt8) (v : UInt16),
      (AppBuffer.ofBytes (before ++ (be16 v ++ after)) true).getUint16At beyond before.length = v := by
    intro before after v
    simp [AppBuffer.getUint16At,AppBuffer.ofBytes,AppBuffer.byteAt,be16,word16_bytes]
  have order : call.request.isKey = false → (rxBuffer (call.bytes p) beyond).buffer =
      .ofBytes ((call.bytes p).drop 1) true := by
    intro wide
    have first := (bytes_order p call.request).mpr (.inr wide)
    rw [rxBuffer,Call.bytes,first]
    rfl
  cases call with
  | registerClient width height =>
    rw [order rfl]
    have first := word ([0] ++ be16 appVersion) (be16 (toUint16 height)) (toUint16 width)
    have second := word ([0] ++ be16 appVersion ++ be16 (toUint16 width)) [] (toUint16 height)
    exact congrArg₂ Extracted.registerSession first second
  | onResize sessionID width height =>
    rw [order rfl]
    have first := word ([6] ++ be32 (toUint32 sessionID)) (be16 (toUint16 height) ++ [0,0]) (toUint16 width)
    have second := word ([6] ++ be32 (toUint32 sessionID) ++ be16 (toUint16 width)) [0,0] (toUint16 height)
    exact congrArg₂ Extracted.resizeEvent first second
  | onClick sessionID clientX clientY =>
    rw [order rfl]
    have first := word ([2] ++ be32 (toUint32 sessionID)) (be16 (toUint16 clientY) ++ [0,0]) (toUint16 clientX)
    have second := word ([2] ++ be32 (toUint32 sessionID) ++ be16 (toUint16 clientX)) [0,0] (toUint16 clientY)
    exact congrArg₂ Extracted.clickEvent first second
  | processKeyEvent keyCode isDown =>
    cases isDown with
    | true => rfl
    | false => rfl

theorem call_asked (p : Platform) (call : Call) (beyond : Nat → UInt8) :
    asked (call.bytes p) beyond = some call.requestType := by
  have long : ¬ (call.bytes p).length < 2 := bytes_long p call.request
  rw [asked,if_neg long]
  cases call with
  | registerClient width height => rfl
  | onResize sessionID width height => rfl
  | processKeyEvent keyCode isDown => rfl
  | onClick sessionID clientX clientY => rfl

-- Every call reaches the handler meant for it. That decodes the values sent, leaves
-- its buffer as it was, and acts on them.
theorem requests_reach_handlers (A : Arith) (s : Session) (g : Game) (p : Platform) (call : Call) (beyond : Nat → UInt8) :
    asked (call.bytes p) beyond = some call.requestType ∧
      ∃ sent, decode beyond call.requestType (rxBuffer (call.bytes p) beyond).buffer =
          (sent,(rxBuffer (call.bytes p) beyond).buffer) ∧ Meant call sent ∧
        (s.commsHandler A g (call.bytes p) beyond).1 =
          act A (s.setLittleEndian (rxBuffer (call.bytes p) beyond).buffer.isLittleEndian) g
            (rxBuffer (call.bytes p) beyond).buffer.isLittleEndian sent := by
  have known := call_asked p call beyond
  have handled := commsHandler_decoded A s g known
  rw [call_found] at handled
  exact ⟨known,call.found,Prod.ext (call_found p call beyond) (decode_buffer beyond _ _),found_meant call,handled⟩

end Geoff.Requests
