import Geoff.Session

namespace Geoff.RequestReads
open Session

def requestType (bytes : List UInt8) : Option RequestType := RequestType.ofUInt8 (bytes.getD 1 0)

-- The length of the shortest message, header byte included, that holds every field
-- the handler of its type reads.
def fieldsEnd : RequestType → Nat
  | .registerSession => 8
  | .clickEvent => 10
  | .keyEvent => 4
  | .resizeEvent => 10

def HoldsFields (bytes : List UInt8) : Prop :=
  bytes.length < 2 ∨ ∀ kind, requestType bytes = some kind → fieldsEnd kind ≤ bytes.length

def ReadsInside (A : Arith) (s : Session) (g : Game) (bytes : List UInt8) (beyond : Nat → UInt8) : Prop :=
  ∀ index ∈ (s.commsHandler A g bytes beyond).2, index < (rxBuffer bytes beyond).buffer.size

theorem rxBuffer_size (bytes : List UInt8) (beyond : Nat → UInt8) :
    (rxBuffer bytes beyond).buffer.size = bytes.length - 1 := by
  simp [rxBuffer,AppBuffer.ofBytes,AppBuffer.size]

theorem rxBuffer_type {bytes : List UInt8} (long : ¬ bytes.length < 2) (beyond : Nat → UInt8) :
    (rxBuffer bytes beyond).uint8 0 = bytes.getD 1 0 := by
  match bytes,long with
  | [],long => simp at long
  | [_],long => simp at long
  | _ :: _ :: _,_ => rfl

theorem handle_reads (A : Arith) (s : Session) (g : Game) (kind : RequestType) (rx : Rx) :
    (s.handle A g kind rx).2 = match kind with
      | .registerSession => [3,4,5,6]
      | .clickEvent => [5,6,7,8]
      | .keyEvent => [2,1]
      | .resizeEvent => [5,6,7,8] := by
  cases kind <;> rfl

theorem reads_inside_iff (A : Arith) (s : Session) (g : Game) (bytes : List UInt8) (beyond : Nat → UInt8) :
    ReadsInside A s g bytes beyond ↔ HoldsFields bytes := by
  unfold ReadsInside HoldsFields
  rw [rxBuffer_size]
  by_cases short : bytes.length < 2
  · simp [commsHandler,short]
  · rw [commsHandler,if_neg short]
    have type := rxBuffer_type short beyond
    cases known : requestType bytes with
    | none =>
      rw [requestType,← type] at known
      rw [dispatch_unknown A known]
      simp [short]
      omega
    | some kind =>
      rw [requestType,← type] at known
      rw [dispatch_known A known,handle_reads]
      cases kind
      all_goals
        simp [fieldsEnd,short]
        omega

-- A key event cut off behind its type byte, as any client may send it.
theorem truncated_key_event_reads_outside :
    ¬ ReadsInside .upright (Session.make 0) (Game.make .upright .zeros) [0xAB,0x04] (fun _ => 0) := by
  intro inside
  have touched : 2 < 1 := inside 2 (by decide)
  omega

end Geoff.RequestReads
