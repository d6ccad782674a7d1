import Geoff.Session

-- www/js/GameFace.js: the requests the browser sends, on a platform of either byte
-- order. A DataView writes words big-endian unless told otherwise; the typed arrays
-- have the platform's own order.
namespace Geoff.GameFace
open ByteCursor

inductive Platform where
  | little
  | big
deriving DecidableEq, Repr

def Platform.int16Array (p : Platform) (buffer : List UInt8) : Option UInt16 :=
  match p,buffer with
  | .little,lo :: hi :: _ => some (word16 hi lo)
  | .big,hi :: lo :: _ => some (word16 hi lo)
  | _,_ => none

-- The test of the constant `littleEndian`: setInt16(0, 256, true) writes 256 with its
-- low byte first.
def isLittle (p : Platform) : Bool := p.int16Array (le16 256) == some 256

def littleEndian (p : Platform) : UInt8 := if isLittle p = false then 0xAA else 0xAB

def header (p : Platform) : UInt8 := if littleEndian p = 0 then 0xAA else 0xAB

def appVersion : UInt16 := 3

inductive Request where
  | registerClient (width height : UInt16)
  | onResize (sessionID : UInt32) (width height : UInt16)
  | processKeyEvent (keyCode : UInt8) (isDown : Bool)
  | onClick (sessionID : UInt32) (clientX clientY : UInt16)

def Request.bytes (p : Platform) : Request → List UInt8
  | .registerClient width height => [header p,0] ++ be16 appVersion ++ be16 width ++ be16 height
  | .onResize sessionID width height => [header p,6] ++ be32 sessionID ++ be16 width ++ be16 height ++ [0,0]
  | .processKeyEvent keyCode isDown => [littleEndian p,4,if isDown then 1 else 0,keyCode]
  | .onClick sessionID clientX clientY => [header p,2] ++ be32 sessionID ++ be16 clientX ++ be16 clientY ++ [0,0]

def Request.isKey : Request → Bool
  | .processKeyEvent _ _ => true
  | _ => false

-- The second way of writing the header byte tests a number that is never 0.
@[simp] theorem header_always (p : Platform) : header p = 0xAB := by cases p <;> rfl

theorem littleEndian_little : littleEndian .little = 0xAB := rfl
theorem littleEndian_big : littleEndian .big = 0xAA := rfl

theorem bytes_long (p : Platform) (r : Request) : ¬ (r.bytes p).length < 2 := by
  cases r <;> simp [Request.bytes]

theorem bytes_order (p : Platform) (r : Request) :
    (r.bytes p).head? = some 0xAB ↔ p = .little ∨ r.isKey = false := by
  cases r with
  | processKeyEvent keyCode isDown => cases p <;> simp [Request.bytes,Request.isKey,littleEndian_little,littleEndian_big]
  | registerClient width height => simp [Request.bytes,Request.isKey]
  | onResize sessionID width height => simp [Request.bytes,Request.isKey]
  | onClick sessionID clientX clientY => simp [Request.bytes,Request.isKey]

end Geoff.GameFace
