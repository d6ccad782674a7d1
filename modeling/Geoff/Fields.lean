import Geoff.AppBuffer

-- Lists of fields, as the setters of AppBuffer write them one behind the other.
namespace Geoff.ByteOrder
open AppBuffer

inductive Field where
  | byte (v : UInt8)
  | word (v : UInt16)
  | long (v : UInt32)

namespace Field

def bytes (le : Bool) : Field → List UInt8
  | .byte v => [v]
  | .word v => bytes16 le v
  | .long v => bytes32 le v

def width : Field → Nat
  | .byte _ => 1
  | .word _ => 2
  | .long _ => 4

theorem bytes_length (le : Bool) (field : Field) : (field.bytes le).length = field.width := by
  cases field with
  | byte v => rfl
  | word v => exact bytes16_length le v
  | long v => exact bytes32_length le v

end Field

def encode (le : Bool) (fields : List Field) : List UInt8 := fields.flatMap (Field.bytes le)

variable {le : Bool}

theorem encode_append (first rest : List Field) : encode le (first ++ rest) = encode le first ++ encode le rest :=
  List.flatMap_append

theorem encode_width (fields : List Field) : (encode le fields).length = (fields.map Field.width).sum := by
  induction fields with
  | nil => rfl
  | cons field fields ih =>
    rw [encode,List.flatMap_cons,List.length_append,field.bytes_length,List.map_cons,List.sum_cons,← ih]
    rfl

end Geoff.ByteOrder

-- Fields written through the cursor, carried over by the copying constructors, and
-- read back through the cursor of a buffer over the bytes written.
namespace Geoff.Fields
open AppBuffer ByteOrder

-- Both cursors are ints: the `+=` that would take one to 2^31 overflows, and so does
-- the cast of a constructor. What the buffer holds from there on is not followed.
inductive Lost where
  | fault (fault : Fault)
  | cursor

def cursorEnd : Nat := 2 ^ 31

def keep (result : Except Fault AppBuffer) : Except Lost AppBuffer :=
  match result with
  | .error fault => .error (.fault fault)
  | .ok ab => if ab.writeOffset < cursorEnd then .ok ab else .error .cursor

def set (ab : AppBuffer) : Field → Except Lost AppBuffer
  | .byte v => keep (ab.setUint8 v)
  | .word v => keep (ab.setUint16 v)
  | .long v => keep (ab.setUint32 v)

inductive Kind where
  | byte
  | word
  | long

def kind : Field → Kind
  | .byte _ => .byte
  | .word _ => .word
  | .long _ => .long

section Reading
variable (beyond : Nat → UInt8)

def getAt (ab : AppBuffer) (byteOffset : Nat) : Kind → Field
  | .byte => .byte (ab.getUint8At beyond byteOffset)
  | .word => .word (ab.getUint16At beyond byteOffset)
  | .long => .long (ab.getUint32At beyond byteOffset)

def moved (field : Field) (ab : AppBuffer) : Except Lost (Field × AppBuffer) :=
  if ab.readOffset < cursorEnd then .ok (field,ab) else .error .cursor

def get (ab : AppBuffer) : Kind → Except Lost (Field × AppBuffer)
  | .byte => let (v,ab) := ab.getUint8 beyond; moved (.byte v) ab
  | .word => let (v,ab) := ab.getUint16 beyond; moved (.word v) ab
  | .long => let (v,ab) := ab.getUint32 beyond; moved (.long v) ab

def getAll : List Kind → AppBuffer → Except Lost (List Field × AppBuffer)
  | [],ab => .ok ([],ab)
  | kind :: kinds,ab => do
    let (field,ab) ← get beyond ab kind
    let (fields,ab) ← getAll kinds ab
    return (field :: fields,ab)

end Reading

inductive Plan where
  | fresh (capacity : Nat) (fields : List Field)
  | grown (before : Plan) (moreRoom : Nat) (fields : List Field)
  | joined (first second : Plan)

def Plan.fields : Plan → List Field
  | .fresh _ fields => fields
  | .grown before _ fields => before.fields ++ fields
  | .joined first second => first.fields ++ second.fields

def totalWidth (fields : List Field) : Nat := (fields.map Field.width).sum

def Plan.Roomy : Plan → Prop
  | .fresh capacity fields => totalWidth fields ≤ capacity
  | .grown before moreRoom fields => before.Roomy ∧ totalWidth fields ≤ moreRoom
  | .joined first second => first.Roomy ∧ second.Roomy

instance Plan.decidableRoomy : (plan : Plan) → Decidable plan.Roomy
  | .fresh capacity fields => inferInstanceAs (Decidable (totalWidth fields ≤ capacity))
  | .grown before moreRoom fields =>
    have := decidableRoomy before
    inferInstanceAs (Decidable (before.Roomy ∧ totalWidth fields ≤ moreRoom))
  | .joined first second =>
    have := decidableRoomy first
    have := decidableRoomy second
    inferInstanceAs (Decidable (first.Roomy ∧ second.Roomy))

def Plan.build (le : Bool) : Plan → Except Lost AppBuffer
  | .fresh capacity fields => fields.foldlM set (.make capacity le)
  | .grown before moreRoom fields => do
    let ab ← before.build le
    let ab ← keep (ab.grow moreRoom le)
    fields.foldlM set ab
  | .joined first second => do
    let ab1 ← first.build le
    let ab2 ← second.build le
    keep (ab1.concat ab2 le)

def bigEndian : Field → List UInt8
  | .byte v => [v]
  | .word v => ByteCursor.be16 v
  | .long v => ByteCursor.be32 v

structure RoundTrip (le : Bool) (fields : List Field) (ab : AppBuffer) : Prop where
  written : ab.bytesWritten = totalWidth fields
  behind : ab.buff.drop ab.bytesWritten = List.replicate (ab.size - ab.bytesWritten) 0
  order : le = true → ab.wire = fields.flatMap bigEndian
  read : ∀ beyond, ∃ rx, getAll beyond (fields.map kind) (.ofBytes ab.wire le) = .ok (fields,rx) ∧
    rx.bytesRead = totalWidth fields
  positional : ∀ beyond before field after, fields = before ++ field :: after →
    getAt beyond (.ofBytes ab.wire le) (totalWidth before) (kind field) = field

variable {le : Bool}

@[simp] theorem totalWidth_nil : totalWidth [] = 0 := rfl

@[simp] theorem totalWidth_cons (field : Field) (fields : List Field) :
    totalWidth (field :: fields) = field.width + totalWidth fields := rfl

@[simp] theorem totalWidth_append (first rest : List Field) :
    totalWidth (first ++ rest) = totalWidth first + totalWidth rest := by
  simp [totalWidth]

theorem keep_filled (bytes : List UInt8) (room : Nat) : keep (.ok (filled le bytes room)) =
    if bytes.length < cursorEnd then .ok (filled le bytes room) else .error .cursor := rfl

theorem set_filled (bytes : List UInt8) {room : Nat} (field : Field) (fits : field.width ≤ room) :
    set (filled le bytes room) field =
      if bytes.length + field.width < cursorEnd then .ok (filled le (bytes ++ field.bytes le) (room - field.width))
      else .error .cursor := by
  rw [← field.bytes_length le,← List.length_append,← keep_filled]
  cases field with
  | byte v => rw [set,setUint8_filled le bytes fits v]; rfl
  | word v => rw [set,setUint16_filled le bytes fits v,Field.bytes_length]; rfl
  | long v => rw [set,setUint32_filled le bytes fits v,Field.bytes_length]; rfl

theorem setAll_filled (le : Bool) (fields : List Field) (bytes : List UInt8) {room : Nat} (fits : totalWidth fields ≤ room)
    (small : bytes.length + totalWidth fields < cursorEnd) : fields.foldlM set (filled le bytes room) =
      .ok (filled le (bytes ++ encode le fields) (room - totalWidth fields)) := by
  induction fields generalizing bytes room with
  | nil => simp [encode]
  | cons field fields ih =>
    rw [totalWidth_cons] at fits small ⊢
    rw [List.foldlM_cons,set_filled bytes field (by omega),if_pos (by omega),Runs.ok_bind,
      ih _ (by omega) (by rw [List.length_append,field.bytes_length]; omega),List.append_assoc,Nat.sub_sub]
    rfl

theorem setAll_small {fields : List Field} (bytes : List UInt8) {room : Nat} {ab : AppBuffer}
    (fits : totalWidth fields ≤ room) (inside : bytes.length < cursorEnd)
    (ran : fields.foldlM set (filled le bytes room) = .ok ab) : bytes.length + totalWidth fields < cursorEnd := by
  induction fields generalizing bytes room with
  | nil => simpa using inside
  | cons field fields ih =>
    rw [totalWidth_cons] at fits ⊢
    rw [List.foldlM_cons,set_filled bytes field (by omega)] at ran
    split at ran
    · rename_i here
      have rest := ih _ (by omega) (by rw [List.length_append,field.bytes_length]; exact here) ran
      rw [List.length_append,field.bytes_length] at rest
      omega
    · cases ran

theorem build_filled (le : Bool) {plan : Plan} (roomy : plan.Roomy) (small : totalWidth plan.fields < cursorEnd) :
    ∃ room, plan.build le = .ok (filled le (encode le plan.fields) room) := by
  have width : ∀ fields, (encode le fields).length = totalWidth fields := encode_width
  induction plan with
  | fresh capacity fields =>
    exact ⟨_,setAll_filled le fields [] roomy (by simpa [Plan.fields] using small)⟩
  | grown before moreRoom fields ih =>
    rw [Plan.fields,totalWidth_append] at small
    obtain ⟨room,built⟩ := ih roomy.1 (by omega)
    have grew := setAll_filled le fields (encode le before.fields) roomy.2 (by rw [width]; exact small)
    rw [Plan.build,built,Runs.ok_bind,grow_filled,keep_filled,if_pos (by rw [width]; omega),Runs.ok_bind,grew]
    exact ⟨_,by rw [Plan.fields,encode_append]⟩
  | joined first second ihFirst ihSecond =>
    rw [Plan.fields,totalWidth_append] at small
    obtain ⟨room1,built1⟩ := ihFirst roomy.1 (by omega)
    obtain ⟨room2,built2⟩ := ihSecond roomy.2 (by omega)
    rw [Plan.build,built1,Runs.ok_bind,built2,Runs.ok_bind,concat_filled,keep_filled,← encode_append,
      if_pos (by rw [width,totalWidth_append]; exact small)]
    exact ⟨0,rfl⟩

theorem getAt_field (beyond : Nat → UInt8) (before after : List UInt8) (field : Field) (read write : Nat) :
    getAt beyond ⟨before ++ (field.bytes le ++ after),le,read,write⟩ before.length (kind field) = field := by
  cases field with
  | byte v => simp [getAt,kind,getUint8At,byteAt,Field.bytes]
  | word v => cases le <;> simp [getAt,kind,getUint16At,byteAt,Field.bytes,bytes16,ByteCursor.le16,ByteCursor.be16,
      ByteCursor.word16_bytes]
  | long v => cases le <;> simp [getAt,kind,getUint32At,byteAt,Field.bytes,bytes32,ByteCursor.le32,ByteCursor.be32,
      ByteCursor.word32_bytes]

theorem get_getAt (beyond : Nat → UInt8) (ab : AppBuffer) (field : Field) : get beyond ab (kind field) =
    moved (getAt beyond ab ab.readOffset (kind field)) {ab with readOffset := ab.readOffset + field.width} := by
  cases field with
  | byte v => rfl
  | word v => rfl
  | long v => rfl

theorem get_field (le : Bool) (beyond : Nat → UInt8) (before after : List UInt8) (field : Field) (write : Nat)
    (small : before.length + field.width < cursorEnd) :
    get beyond ⟨before ++ (field.bytes le ++ after),le,before.length,write⟩ (kind field) =
      .ok (field,⟨before ++ (field.bytes le ++ after),le,before.length + field.width,write⟩) := by
  rw [get_getAt,getAt_field,moved,if_pos small]

theorem getAll_fields (le : Bool) (beyond : Nat → UInt8) (fields : List Field) (before : List UInt8) (write : Nat)
    (small : before.length + totalWidth fields < cursorEnd) :
    getAll beyond (fields.map kind) ⟨before ++ encode le fields,le,before.length,write⟩ =
      .ok (fields,⟨before ++ encode le fields,le,before.length + totalWidth fields,write⟩) := by
  induction fields generalizing before with
  | nil => rfl
  | cons field fields ih =>
    rw [totalWidth_cons] at small ⊢
    have first := get_field le beyond before (encode le fields) field write (by omega)
    have rest := ih (before ++ field.bytes le) (by rw [List.length_append,field.bytes_length]; omega)
    rw [List.length_append,field.bytes_length,List.append_assoc] at rest
    rw [encode,List.flatMap_cons,← encode,List.map_cons]
    simp only [getAll,first,Runs.ok_bind,rest,Runs.pure_ok,Nat.add_assoc]

theorem filled_roundTrip {fields : List Field} (small : totalWidth fields < cursorEnd) (room : Nat) :
    RoundTrip le fields (filled le (encode le fields) room) where
  written := encode_width fields
  behind := by simp [filled,bytesWritten,size]
  order := by
    rintro rfl
    rw [wire_filled,encode]
    congr 1
  read := by
    intro beyond
    have all := getAll_fields le beyond fields [] 0 (by simpa using small)
    rw [wire_filled]
    exact ⟨_,all,by simp [bytesRead]⟩
  positional := by
    rintro beyond before field after rfl
    have width : (encode le before).length = totalWidth before := encode_width before
    rw [wire_filled,encode_append,← width]
    exact getAt_field beyond (encode le before) (encode le after) field 0 0

theorem plan_round_trip (le : Bool) (plan : Plan) (roomy : plan.Roomy) (small : totalWidth plan.fields < cursorEnd) :
    ∃ ab, plan.build le = .ok ab ∧ RoundTrip le plan.fields ab := by
  obtain ⟨room,built⟩ := build_filled le roomy small
  exact ⟨_,built,filled_roundTrip small room⟩

def samplePlan : Plan :=
  .joined (.grown (.fresh 5 [.byte 1,.word 0x0203]) 4 [.long 0x04050607]) (.fresh 1 [.byte 8])

theorem sample_round_trip : ∃ ab, samplePlan.build true = .ok ab ∧ RoundTrip true samplePlan.fields ab :=
  plan_round_trip true samplePlan (by decide) (by decide)

theorem totalWidth_replicate (n : Nat) (field : Field) : totalWidth (List.replicate n field) = n * field.width := by
  induction n with
  | zero => simp
  | succ n ih => rw [List.replicate_succ,totalWidth_cons,ih,Nat.succ_mul,Nat.add_comm]

-- 2^29 fields of four bytes take the write cursor out of an int, in a buffer that
-- has room for all of them.
def longPlan : Plan := .fresh (2 ^ 31) (List.replicate (2 ^ 29) (.long 0))

theorem long_plan_lost : longPlan.Roomy ∧ ∀ le, ¬ ∃ ab, longPlan.build le = .ok ab ∧ RoundTrip le longPlan.fields ab := by
  have width : totalWidth (List.replicate (2 ^ 29) (.long 0)) = 2 ^ 31 := totalWidth_replicate (2 ^ 29) (.long 0)
  refine ⟨le_of_eq width,fun le => ?_⟩
  rintro ⟨ab,built,_⟩
  have small := setAll_small [] (le_of_eq width) (by decide) built
  rw [width] at small
  simp [cursorEnd] at small

end Geoff.Fields
