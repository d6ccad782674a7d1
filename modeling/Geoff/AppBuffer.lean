import Geoff.Runs
import Geoff.ByteCursor

namespace Geoff
open ByteCursor

-- What the source leaves undefined, and events that cannot happen in a state.
inductive Fault where
  | bufferOverrun
  | nullSession
  | nullPlayer
  | erasedRock
  | endedConnection
  | erasedSession
  | notPending
deriving DecidableEq, Repr

-- lib/src/AppBuffer.cpp. `m_length` is the length of the allocation.
structure AppBuffer where
  buff : List UInt8
  isLittleEndian : Bool
  readOffset : Nat
  writeOffset : Nat
deriving DecidableEq, Repr

namespace AppBuffer

def make (bufferLength : Nat) (isLittleEndian : Bool) : AppBuffer :=
  ⟨List.replicate bufferLength 0,isLittleEndian,0,0⟩

def ofBytes (buffer : List UInt8) (isLittleEndian : Bool) : AppBuffer := ⟨buffer,isLittleEndian,0,0⟩

def size (ab : AppBuffer) : Nat := ab.buff.length
def bytesWritten (ab : AppBuffer) : Nat := ab.writeOffset
def bytesRead (ab : AppBuffer) : Nat := ab.readOffset
def bytesRemaining (ab : AppBuffer) : Nat := ab.size - ab.readOffset

-- What async_write is handed: data() and bytesWritten().
def wire (ab : AppBuffer) : List UInt8 := ab.buff.take ab.bytesWritten

-- memcpy(data() + offset, bytes, length) and every store of the setters; a store
-- outside the allocation is undefined.
def store (ab : AppBuffer) (offset : Nat) (bytes : List UInt8) : Except Fault AppBuffer :=
  if offset + bytes.length ≤ ab.size then
    .ok {ab with buff := ab.buff.take offset ++ bytes ++ ab.buff.drop (offset + bytes.length)}
  else .error .bufferOverrun

def load (ab : AppBuffer) (offset length : Nat) : Except Fault (List UInt8) :=
  if offset + length ≤ ab.size then .ok ((ab.buff.drop offset).take length) else .error .bufferOverrun

def grow (ab : AppBuffer) (moreRoom : Nat) (isLittleEndian : Bool) : Except Fault AppBuffer := do
  let bytes ← ab.load 0 ab.bytesWritten
  let copy ← (make (ab.bytesWritten + moreRoom) isLittleEndian).store 0 bytes
  return {copy with writeOffset := ab.bytesWritten}

def concat (ab1 ab2 : AppBuffer) (isLittleEndian : Bool) : Except Fault AppBuffer := do
  let bytes1 ← ab1.load 0 ab1.bytesWritten
  let first ← (make (ab1.bytesWritten + ab2.bytesWritten) isLittleEndian).store 0 bytes1
  let bytes2 ← ab2.load 0 ab2.bytesWritten
  let both ← first.store ab1.bytesWritten bytes2
  return {both with writeOffset := ab1.bytesWritten + ab2.bytesWritten}

def allocate (ab : AppBuffer) (bytes : Nat) : Nat × AppBuffer :=
  (ab.writeOffset,{ab with writeOffset := ab.writeOffset + bytes})

def setUint8At (ab : AppBuffer) (byteOffset : Nat) (v : UInt8) : Except Fault AppBuffer :=
  ab.store byteOffset [v]

-- The host is little-endian: a store of a word writes its low byte first.
def setUint16At (ab : AppBuffer) (byteOffset : Nat) (v : UInt16) : Except Fault AppBuffer :=
  let v := if ab.isLittleEndian then word16 v.toUInt8 (v >>> 8).toUInt8 else v
  ab.store byteOffset (le16 v)

def setUint32At (ab : AppBuffer) (byteOffset : Nat) (v : UInt32) : Except Fault AppBuffer :=
  let v := if ab.isLittleEndian then
      word32 v.toUInt8 (v >>> 8).toUInt8 (v >>> 16).toUInt8 (v >>> 24).toUInt8
    else v
  ab.store byteOffset (le32 v)

def setUint8 (ab : AppBuffer) (v : UInt8) : Except Fault AppBuffer := do
  let ab ← ab.setUint8At ab.writeOffset v
  return {ab with writeOffset := ab.writeOffset + 1}

def setUint16 (ab : AppBuffer) (v : UInt16) : Except Fault AppBuffer := do
  let ab ← ab.setUint16At ab.writeOffset v
  return {ab with writeOffset := ab.writeOffset + 2}

def setUint32 (ab : AppBuffer) (v : UInt32) : Except Fault AppBuffer := do
  let ab ← ab.setUint32At ab.writeOffset v
  return {ab with writeOffset := ab.writeOffset + 4}

def byteAt (ab : AppBuffer) (beyond : Nat → UInt8) (index : Nat) : UInt8 := ab.buff.getD index (beyond index)

def getUint8At (ab : AppBuffer) (beyond : Nat → UInt8) (byteOffset : Nat) : UInt8 := ab.byteAt beyond byteOffset

def getUint16At (ab : AppBuffer) (beyond : Nat → UInt8) (byteOffset : Nat) : UInt16 :=
  let b0 := ab.byteAt beyond byteOffset
  let b1 := ab.byteAt beyond (byteOffset + 1)
  if ab.isLittleEndian then word16 b0 b1 else word16 b1 b0

def getUint32At (ab : AppBuffer) (beyond : Nat → UInt8) (byteOffset : Nat) : UInt32 :=
  let b0 := ab.byteAt beyond byteOffset
  let b1 := ab.byteAt beyond (byteOffset + 1)
  let b2 := ab.byteAt beyond (byteOffset + 2)
  let b3 := ab.byteAt beyond (byteOffset + 3)
  if ab.isLittleEndian then word32 b0 b1 b2 b3 else word32 b3 b2 b1 b0

def getUint8 (ab : AppBuffer) (beyond : Nat → UInt8) : UInt8 × AppBuffer :=
  (ab.getUint8At beyond ab.readOffset,{ab with readOffset := ab.readOffset + 1})

def getUint16 (ab : AppBuffer) (beyond : Nat → UInt8) : UInt16 × AppBuffer :=
  (ab.getUint16At beyond ab.readOffset,{ab with readOffset := ab.readOffset + 2})

def getUint32 (ab : AppBuffer) (beyond : Nat → UInt8) : UInt32 × AppBuffer :=
  (ab.getUint32At beyond ab.readOffset,{ab with readOffset := ab.readOffset + 4})

-- A buffer whose cursor stands behind `bytes` with `room` zero bytes left. Every
-- builder keeps its buffers in this form.
def filled (le : Bool) (bytes : List UInt8) (room : Nat) : AppBuffer :=
  ⟨bytes ++ List.replicate room 0,le,0,bytes.length⟩

def bytes16 (le : Bool) (v : UInt16) : List UInt8 := if le then be16 v else le16 v
def bytes32 (le : Bool) (v : UInt32) : List UInt8 := if le then be32 v else le32 v

@[simp] theorem bytes16_length (le : Bool) (v : UInt16) : (bytes16 le v).length = 2 := by cases le <;> rfl
@[simp] theorem bytes32_length (le : Bool) (v : UInt32) : (bytes32 le v).length = 4 := by cases le <;> rfl
@[simp] theorem bytes16_true (v : UInt16) : bytes16 true v = be16 v := rfl
@[simp] theorem bytes32_true (v : UInt32) : bytes32 true v = be32 v := rfl

theorem make_filled (room : Nat) (le : Bool) : make room le = filled le [] room := rfl

@[simp] theorem wire_filled (le : Bool) (bytes : List UInt8) (room : Nat) : (filled le bytes room).wire = bytes := by
  simp [wire,filled,bytesWritten]

@[simp] theorem written_filled (le : Bool) (bytes : List UInt8) (room : Nat) :
    (filled le bytes room).bytesWritten = bytes.length := rfl

@[simp] theorem size_filled (le : Bool) (bytes : List UInt8) (room : Nat) :
    (filled le bytes room).size = bytes.length + room := by simp [size,filled]

theorem store_over (le : Bool) (before old after more : List UInt8) (same : old.length = more.length)
    (read write : Nat) : store ⟨before ++ old ++ after,le,read,write⟩ before.length more =
      .ok ⟨before ++ more ++ after,le,read,write⟩ := by
  have inside : before.length + more.length ≤ (⟨before ++ old ++ after,le,read,write⟩ : AppBuffer).size := by
    simp only [size,List.length_append,same]; omega
  rw [store,if_pos inside]
  simp [← same]

theorem setUint16At_over (le : Bool) (before old after : List UInt8) (pair : old.length = 2) (read write : Nat)
    (v : UInt16) : setUint16At ⟨before ++ old ++ after,le,read,write⟩ before.length v =
      .ok ⟨before ++ bytes16 le v ++ after,le,read,write⟩ := by
  have stored := store_over le before old after (bytes16 le v) (by simp [pair]) read write
  rw [← stored]
  cases le <;> simp [setUint16At,bytes16,le16_word,be16]

theorem setUint32At_over (le : Bool) (before old after : List UInt8) (four : old.length = 4) (read write : Nat)
    (v : UInt32) : setUint32At ⟨before ++ old ++ after,le,read,write⟩ before.length v =
      .ok ⟨before ++ bytes32 le v ++ after,le,read,write⟩ := by
  have stored := store_over le before old after (bytes32 le v) (by simp [four]) read write
  rw [← stored]
  cases le <;> simp [setUint32At,bytes32,le32_word,be32]

theorem filled_split (le : Bool) (bytes : List UInt8) {room width : Nat} (fits : width ≤ room) :
    filled le bytes room =
      ⟨bytes ++ List.replicate width 0 ++ List.replicate (room - width) 0,le,0,bytes.length⟩ := by
  rw [List.append_assoc,List.replicate_append_replicate,Nat.add_sub_cancel' fits]
  rfl

theorem setUint8_filled (le : Bool) (bytes : List UInt8) {room : Nat} (fits : 1 ≤ room) (v : UInt8) :
    (filled le bytes room).setUint8 v = .ok (filled le (bytes ++ [v]) (room - 1)) := by
  have stored := store_over le bytes (List.replicate 1 0) (List.replicate (room - 1) 0) [v] rfl 0 bytes.length
  rw [filled_split le bytes fits,setUint8,setUint8At,stored]
  simp [filled]

theorem setUint16_filled (le : Bool) (bytes : List UInt8) {room : Nat} (fits : 2 ≤ room) (v : UInt16) :
    (filled le bytes room).setUint16 v = .ok (filled le (bytes ++ bytes16 le v) (room - 2)) := by
  have stored := setUint16At_over le bytes (List.replicate 2 0) (List.replicate (room - 2) 0) rfl 0 bytes.length v
  rw [filled_split le bytes fits,setUint16,stored]
  simp [filled]

theorem setUint32_filled (le : Bool) (bytes : List UInt8) {room : Nat} (fits : 4 ≤ room) (v : UInt32) :
    (filled le bytes room).setUint32 v = .ok (filled le (bytes ++ bytes32 le v) (room - 4)) := by
  have stored := setUint32At_over le bytes (List.replicate 4 0) (List.replicate (room - 4) 0) rfl 0 bytes.length v
  rw [filled_split le bytes fits,setUint32,stored]
  simp [filled]

theorem load_filled (le : Bool) (bytes : List UInt8) (room : Nat) :
    (filled le bytes room).load 0 bytes.length = .ok bytes := by
  simp [load,filled,size]

theorem store_filled (le : Bool) (bytes more : List UInt8) {room : Nat} (fits : more.length ≤ room) :
    (filled le bytes room).store bytes.length more =
      .ok {filled le (bytes ++ more) (room - more.length) with writeOffset := bytes.length} := by
  have stored := store_over le bytes (List.replicate more.length 0) (List.replicate (room - more.length) 0) more
    (by simp) 0 bytes.length
  rw [filled_split le bytes fits,stored]
  rfl

theorem grow_filled (le le' : Bool) (bytes : List UInt8) (room more : Nat) :
    (filled le bytes room).grow more le' = .ok (filled le' bytes more) := by
  have stored := @store_filled le' [] bytes (bytes.length + more) (by omega)
  rw [List.length_nil,List.nil_append,Nat.add_sub_cancel_left] at stored
  rw [grow,written_filled,load_filled,Runs.ok_bind,make_filled,stored]
  rfl

theorem concat_filled (le1 le2 le' : Bool) (bytes1 bytes2 : List UInt8) (room1 room2 : Nat) :
    (filled le1 bytes1 room1).concat (filled le2 bytes2 room2) le' = .ok (filled le' (bytes1 ++ bytes2) 0) := by
  have first := @store_filled le' [] bytes1 (bytes1.length + bytes2.length) (by omega)
  rw [List.length_nil,List.nil_append,Nat.add_sub_cancel_left] at first
  have second := store_over le' bytes1 (List.replicate bytes2.length 0) [] bytes2 (by simp) 0 0
  rw [List.append_nil,List.append_nil] at second
  rw [concat,written_filled,written_filled,load_filled,load_filled,Runs.ok_bind,make_filled,first,Runs.ok_bind,
    Runs.ok_bind]
  simp only [filled] at second ⊢
  rw [second]
  simp

theorem foldlM_filled {α : Type} {le : Bool} {width : Nat} {step : AppBuffer → α → Except Fault AppBuffer}
    {encode : α → List UInt8}
    (each : ∀ x bytes room, width ≤ room →
      step (filled le bytes room) x = .ok (filled le (bytes ++ encode x) (room - width)))
    (xs : List α) (bytes : List UInt8) {room : Nat} (fits : width * xs.length ≤ room) :
    xs.foldlM step (filled le bytes room) =
      .ok (filled le (bytes ++ xs.flatMap encode) (room - width * xs.length)) := by
  induction xs generalizing bytes room with
  | nil => simp
  | cons x xs ih =>
    have split : width * (x :: xs).length = width + width * xs.length := by
      simp only [List.length_cons,Nat.mul_add]; omega
    rw [split] at fits ⊢
    rw [List.foldlM_cons,each x bytes room (by omega),Runs.ok_bind,ih _ (by omega),List.flatMap_cons,
      List.append_assoc,Nat.sub_sub]

theorem getUint16At_filled (le : Bool) (v : UInt16) (rest : List UInt8) (room : Nat) (beyond : Nat → UInt8) :
    (filled le (bytes16 le v ++ rest) room).getUint16At beyond 0 = v := by
  cases le <;> simp [getUint16At,filled,byteAt,bytes16,le16,be16,word16_bytes]

end AppBuffer
end Geoff
