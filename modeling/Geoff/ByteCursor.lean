import Mathlib.Data.List.Basic
import Mathlib.Data.Nat.Bitwise
import Mathlib.Tactic.Basic

-- Words as bytes, and readers that walk a byte list by offset. The laws are
-- stated for any bytes before and after the ones a reader consumes, so readers
-- compose by their consumed bytes alone.
namespace ByteCursor

def word16 (hi lo : UInt8) : UInt16 := (lo.toUInt16 <<< 0) ||| (hi.toUInt16 <<< 8)

def word32 (b3 b2 b1 b0 : UInt8) : UInt32 :=
  (b0.toUInt32 <<< 0) ||| (b1.toUInt32 <<< 8) ||| (b2.toUInt32 <<< 16) ||| (b3.toUInt32 <<< 24)

def le16 (v : UInt16) : List UInt8 := [v.toUInt8,(v >>> 8).toUInt8]
def be16 (v : UInt16) : List UInt8 := [(v >>> 8).toUInt8,v.toUInt8]
def le32 (v : UInt32) : List UInt8 := [v.toUInt8,(v >>> 8).toUInt8,(v >>> 16).toUInt8,(v >>> 24).toUInt8]
def be32 (v : UInt32) : List UInt8 := [(v >>> 24).toUInt8,(v >>> 16).toUInt8,(v >>> 8).toUInt8,v.toUInt8]

@[simp] theorem le16_length (v : UInt16) : (le16 v).length = 2 := rfl
@[simp] theorem be16_length (v : UInt16) : (be16 v).length = 2 := rfl
@[simp] theorem le32_length (v : UInt32) : (le32 v).length = 4 := rfl
@[simp] theorem be32_length (v : UInt32) : (be32 v).length = 4 := rfl

theorem or_shiftLeft (low high : Nat) {i : Nat} (small : low < 2 ^ i) :
    low ||| high <<< i = high * 2 ^ i + low := by
  rw [Nat.or_comm,← Nat.shiftLeft_add_eq_or_of_lt small,Nat.shiftLeft_eq]

theorem word16_toNat (hi lo : UInt8) : (word16 hi lo).toNat = hi.toNat * 256 + lo.toNat := by
  have top := hi.toNat_lt
  have high : hi.toNat <<< 8 % 65536 = hi.toNat <<< 8 := by rw [Nat.shiftLeft_eq]; omega
  have words : (word16 hi lo).toNat = lo.toNat ||| hi.toNat <<< 8 % 65536 := by simp [word16]
  rw [words,high]
  exact or_shiftLeft _ _ lo.toNat_lt

theorem word32_toNat (b3 b2 b1 b0 : UInt8) : (word32 b3 b2 b1 b0).toNat =
    b3.toNat * 16777216 + b2.toNat * 65536 + b1.toNat * 256 + b0.toNat := by
  have h0 := b0.toNat_lt
  have h1 := b1.toNat_lt
  have h2 := b2.toNat_lt
  have h3 := b3.toNat_lt
  have s1 : b1.toNat <<< 8 % 4294967296 = b1.toNat <<< 8 := by rw [Nat.shiftLeft_eq]; omega
  have s2 : b2.toNat <<< 16 % 4294967296 = b2.toNat <<< 16 := by rw [Nat.shiftLeft_eq]; omega
  have s3 : b3.toNat <<< 24 % 4294967296 = b3.toNat <<< 24 := by rw [Nat.shiftLeft_eq]; omega
  have low := or_shiftLeft b0.toNat b1.toNat (i := 8) (by omega)
  have mid := or_shiftLeft (b1.toNat * 2 ^ 8 + b0.toNat) b2.toNat (i := 16) (by omega)
  have all := or_shiftLeft (b2.toNat * 2 ^ 16 + (b1.toNat * 2 ^ 8 + b0.toNat)) b3.toNat (i := 24) (by omega)
  have words : (word32 b3 b2 b1 b0).toNat = b0.toNat ||| b1.toNat <<< 8 % 4294967296 |||
      b2.toNat <<< 16 % 4294967296 ||| b3.toNat <<< 24 % 4294967296 := by simp [word32]
  rw [words,s1,s2,s3,low,mid,all]
  omega

theorem word16_bytes (v : UInt16) : word16 (v >>> 8).toUInt8 v.toUInt8 = v := by
  apply UInt16.toNat_inj.mp
  have bound := v.toNat_lt
  simp [word16_toNat,Nat.shiftRight_eq_div_pow]
  omega

theorem word32_bytes (v : UInt32) :
    word32 (v >>> 24).toUInt8 (v >>> 16).toUInt8 (v >>> 8).toUInt8 v.toUInt8 = v := by
  apply UInt32.toNat_inj.mp
  have bound := v.toNat_lt
  simp [word32_toNat,Nat.shiftRight_eq_div_pow]
  omega

theorem le16_word (hi lo : UInt8) : le16 (word16 hi lo) = [lo,hi] := by
  have top := hi.toNat_lt
  have bottom := lo.toNat_lt
  have low : (word16 hi lo).toUInt8 = lo := by
    apply UInt8.toNat_inj.mp; simp [word16_toNat]
  have high : (word16 hi lo >>> 8).toUInt8 = hi := by
    apply UInt8.toNat_inj.mp; simp [word16_toNat,Nat.shiftRight_eq_div_pow]; omega
  simp [le16,low,high]

theorem le32_word (b3 b2 b1 b0 : UInt8) : le32 (word32 b3 b2 b1 b0) = [b0,b1,b2,b3] := by
  have h0 := b0.toNat_lt
  have h1 := b1.toNat_lt
  have h2 := b2.toNat_lt
  have h3 := b3.toNat_lt
  simp only [le32,List.cons.injEq,and_true]
  refine ⟨?_,?_,?_,?_⟩
  · apply UInt8.toNat_inj.mp; simp [word32_toNat]; omega
  · apply UInt8.toNat_inj.mp; simp [word32_toNat,Nat.shiftRight_eq_div_pow]; omega
  · apply UInt8.toNat_inj.mp; simp [word32_toNat,Nat.shiftRight_eq_div_pow]; omega
  · apply UInt8.toNat_inj.mp; simp [word32_toNat,Nat.shiftRight_eq_div_pow]; omega

def getUint8 (data : List UInt8) (offset : Nat) : Option UInt8 := data[offset]?

def getUint16 (data : List UInt8) (offset : Nat) : Option UInt16 :=
  match data.drop offset with
  | hi :: lo :: _ => some (word16 hi lo)
  | _ => none

def getUint32 (data : List UInt8) (offset : Nat) : Option UInt32 :=
  match data.drop offset with
  | b3 :: b2 :: b1 :: b0 :: _ => some (word32 b3 b2 b1 b0)
  | _ => none

abbrev Cursor (α : Type) := ReaderT (List UInt8) (StateT Nat Option) α

def u8 : Cursor UInt8 := fun data offset => (getUint8 data offset).map (·,offset+1)
def u16 : Cursor UInt16 := fun data offset => (getUint16 data offset).map (·,offset+2)
def u32 : Cursor UInt32 := fun data offset => (getUint32 data offset).map (·,offset+4)
def peek16 : Cursor UInt16 := fun data offset => (getUint16 data offset).map (·,offset)
def seek (offset : Nat) : Cursor Unit := fun _ _ => some ((),offset)
def atEnd : Cursor Bool := fun data offset => some (decide (offset = data.length),offset)
def byteLength : Cursor Nat := fun data offset => some (data.length,offset)

def many {α : Type} : Nat → Cursor α → Cursor (List α)
  | 0,_ => pure []
  | n+1,p => do
    let first ← p
    let rest ← many n p
    return first :: rest

variable {α β γ : Type} {p : Cursor α} {f : α → Cursor β} {bytes more : List UInt8} {v : α} {w : β}

theorem bind_run (p : Cursor α) (f : α → Cursor β) (data : List UInt8) (offset : Nat) :
    (p >>= f) data offset = (p data offset).bind (fun r => f r.1 data r.2) := rfl

def Reads (p : Cursor α) (bytes : List UInt8) (v : α) : Prop :=
  ∀ before after, p (before ++ bytes ++ after) before.length = some (v,(before ++ bytes).length)

-- `p` takes `bytes` when nothing follows them, so it ends with the message.
def Finishes (p : Cursor α) (bytes : List UInt8) (v : α) : Prop :=
  ∀ before, p (before ++ bytes) before.length = some (v,(before ++ bytes).length)

theorem Reads.finishes (reads : Reads p bytes v) : Finishes p bytes v := by
  intro before
  simpa using reads before []

theorem reads_pure (v : α) : Reads (pure v) [] v := by
  intro before after
  simp only [List.append_nil]
  rfl

theorem finishes_pure (v : α) : Finishes (pure v) [] v := (reads_pure v).finishes

theorem Reads.bind (first : Reads p bytes v) (next : Reads (f v) more w) :
    Reads (p >>= f) (bytes ++ more) w := by
  intro before after
  have one := first before (more ++ after)
  have two := next (before ++ bytes) after
  simp only [List.append_assoc] at one two ⊢
  simp only [bind_run,one,Option.bind_some,two]

theorem Reads.bind_finishes (first : Reads p bytes v) (next : Finishes (f v) more w) :
    Finishes (p >>= f) (bytes ++ more) w := by
  intro before
  have one := first before more
  have two := next (before ++ bytes)
  simp only [List.append_assoc] at one two ⊢
  simp only [bind_run,one,Option.bind_some,two]

theorem Finishes.atEnd {f : Bool → Cursor α} (next : Finishes (f bytes.isEmpty) bytes v) :
    Finishes (atEnd >>= f) bytes v := by
  intro before
  have same : decide (before.length = (before ++ bytes).length) = bytes.isEmpty := by
    cases bytes <;> simp
  have two := next before
  rw [← same] at two
  exact two

theorem Reads.notAtEnd {f : Bool → Cursor α} (next : Reads (f false) bytes v) (left : bytes ≠ []) :
    Reads (atEnd >>= f) bytes v := by
  intro before after
  have positive := List.length_pos_iff.mpr left
  have short : decide (before.length = (before ++ bytes ++ after).length) = false := by
    simp only [List.length_append,decide_eq_false_iff_not]; omega
  have two := next before after
  rw [← short] at two
  exact two

theorem Reads.seek {f : Unit → Cursor α} (next : Reads (f ()) bytes v) (skipped after : List UInt8) (offset : Nat) :
    (ByteCursor.seek skipped.length >>= f) (skipped ++ bytes ++ after) offset = some (v,(skipped ++ bytes).length) :=
  next skipped after

theorem Finishes.seek {f : Unit → Cursor α} (next : Finishes (f ()) bytes v) (skipped : List UInt8) (offset : Nat) :
    (ByteCursor.seek skipped.length >>= f) (skipped ++ bytes) offset = some (v,(skipped ++ bytes).length) :=
  next skipped

theorem reads_u8 (b : UInt8) : Reads u8 [b] b := by
  intro before after
  simp [u8,getUint8]

theorem reads_u16 (x : UInt16) : Reads u16 (be16 x) x := by
  intro before after
  simp [u16,getUint16,be16,word16_bytes]

theorem peek16_word (x : UInt16) (before after : List UInt8) :
    peek16 (before ++ (be16 x ++ after)) before.length = some (x,before.length) := by
  simp [peek16,getUint16,be16,word16_bytes]

theorem reads_u32 (x : UInt32) : Reads u32 (be32 x) x := by
  intro before after
  simp [u32,getUint32,be32,word32_bytes]

theorem reads_many {item : γ → α} {encode : γ → List UInt8} {xs : List γ}
    (each : ∀ x ∈ xs, Reads p (encode x) (item x)) : Reads (many xs.length p) (xs.flatMap encode) (xs.map item) := by
  induction xs with
  | nil => exact reads_pure []
  | cons x xs ih =>
    have rest := ih fun other member => each other (List.mem_cons_of_mem _ member)
    have tail := rest.bind (f := fun rest => pure (item x :: rest)) (reads_pure (item x :: xs.map item))
    have all := (each x (by simp)).bind (f := fun first => many xs.length p >>= fun rest => pure (first :: rest)) tail
    simpa only [List.append_nil,List.flatMap_cons,List.map_cons,List.length_cons,many] using all

def Yields (p : Cursor α) (good : α → Prop) : Prop :=
  ∀ data offset v after, p data offset = some (v,after) → good v

theorem Yields.imp {good better : α → Prop} (yields : Yields p good) (weaker : ∀ v, good v → better v) : Yields p better :=
  fun data offset v after ran => weaker v (yields data offset v after ran)

theorem yields_any (p : Cursor α) : Yields p fun _ => True := fun _ _ _ _ _ => trivial

theorem yields_pure {good : α → Prop} (holds : good v) : Yields (pure v) good := by
  intro data offset w after ran
  cases ran
  exact holds

theorem Yields.bind {middle : α → Prop} {good : β → Prop} (first : Yields p middle)
    (next : ∀ v, middle v → Yields (f v) good) : Yields (p >>= f) good := by
  intro data offset w after ran
  obtain ⟨⟨v,offset'⟩,one,ran⟩ := Option.bind_eq_some_iff.mp ran
  exact next v (first data offset v offset' one) data offset' w after ran

def Takes (p : Cursor α) (n : Nat) : Prop := ∀ bytes : List UInt8, bytes.length = n → ∃ v, Reads p bytes v

theorem takes_pure (v : α) : Takes (pure v) 0 := by
  intro bytes empty
  obtain rfl := List.length_eq_zero_iff.mp empty
  exact ⟨v,reads_pure v⟩

theorem Takes.bind {n m : Nat} (first : Takes p n) (next : ∀ v, Takes (f v) m) : Takes (p >>= f) (n+m) := by
  intro bytes length
  obtain ⟨v,head⟩ := first (bytes.take n) (by rw [List.length_take]; omega)
  obtain ⟨w,tail⟩ := next v (bytes.drop n) (by rw [List.length_drop]; omega)
  have both := head.bind tail
  rw [List.take_append_drop] at both
  exact ⟨w,both⟩

theorem takes_u16 : Takes u16 2 := by
  intro bytes length
  obtain ⟨hi,lo,rfl⟩ := List.length_eq_two.mp length
  refine ⟨word16 hi lo,fun before after => ?_⟩
  simp [u16,getUint16]

theorem takes_u32 : Takes u32 4 := by
  intro bytes length
  match bytes,length with
  | [b3,b2,b1,b0],_ =>
    refine ⟨word32 b3 b2 b1 b0,fun before after => ?_⟩
    simp [u32,getUint32]

end ByteCursor
