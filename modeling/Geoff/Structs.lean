import Mathlib.Data.Rat.Floor
import Mathlib.Data.UInt
import Mathlib.Tactic.Linarith

namespace Geoff

-- apps/asteroids/inc/Structs.h. Every finite double is a rational.
structure Context where
  ctxW : UInt16
  ctxH : UInt16
  ctxOX : UInt16
  ctxOY : UInt16
deriving DecidableEq, Inhabited

structure Size where
  sizeW : ℚ
  sizeH : ℚ
deriving DecidableEq, Inhabited

structure Position where
  posX : ℚ
  posY : ℚ
deriving DecidableEq, Inhabited

structure Velocity where
  deltaX : ℚ
  deltaY : ℚ
deriving DecidableEq, Inhabited

structure Orientation where
  angle : ℚ
deriving DecidableEq, Inhabited

structure Radius where
  radius : ℚ
deriving DecidableEq, Inhabited

def trunc (x : ℚ) : ℤ := if 0 ≤ x then ⌊x⌋ else ⌈x⌉

theorem trunc_bounds {x : ℚ} (lo hi : ℤ) (below : lo ≤ 0) (above : 0 < hi) (low : (lo : ℚ) - 1 < x)
    (high : x < hi) : lo ≤ trunc x ∧ trunc x < hi := by
  unfold trunc
  split
  · rename_i nonneg
    exact ⟨below.trans (Int.floor_nonneg.mpr nonneg),Int.floor_lt.mpr high⟩
  · rename_i negative
    have upper : ⌈x⌉ ≤ 0 := Int.ceil_le.mpr (by push_cast; linarith)
    have lower : lo - 1 < ⌈x⌉ := Int.lt_ceil.mpr (by push_cast; exact low)
    constructor <;> omega

-- The host's double arithmetic. One operation of the source is the exact
-- operation followed by `fl`: rounding to nearest is one instance, exact
-- arithmetic (`fl` the identity) another. A conversion whose result does not fit
-- its type is undefined in the source, so nothing is known about it here.
structure Arith where
  fl : ℚ → ℚ
  cos : ℚ → ℚ
  sin : ℚ → ℚ
  -- DistanceBetweenPoints(p1, p2) < limit
  nearer : Position → Position → ℚ → Bool
  toUint16 : ℚ → UInt16
  toInt16 : ℚ → Int16
  toUint16_fits : ∀ x, -1 < x → x < 65536 → ((toUint16 x).toNat : ℤ) = trunc x
  toInt16_fits : ∀ x, -32769 < x → x < 32768 → (toInt16 x).toInt = trunc x
  -- scaling a double (a value rounding keeps) by a power of two is exact
  fl_scale : ∀ x, 0 ≤ x → x < 16 → fl x = x → fl (x * 4096) = x * 4096

theorem Arith.toUint16_nat (A : Arith) {n : Nat} (small : n < 65536) : A.toUint16 n = UInt16.ofNat n := by
  have fits := A.toUint16_fits n (by linarith [n.cast_nonneg (α := ℚ)]) (by exact_mod_cast small)
  have same : trunc (n : ℚ) = n := by rw [trunc,if_pos n.cast_nonneg]; simp
  rw [same] at fits
  apply UInt16.toNat_inj.mp
  rw [UInt16.toNat_ofNat_of_lt' small]
  exact_mod_cast fits

def Arith.exact (cos sin : ℚ → ℚ) : Arith where
  fl x := x
  cos := cos
  sin := sin
  nearer p q limit := decide (0 < limit ∧ (q.posX - p.posX) ^ 2 + (q.posY - p.posY) ^ 2 < limit ^ 2)
  toUint16 x := UInt16.ofInt (trunc x)
  toInt16 x := Int16.ofInt (trunc x)
  toUint16_fits := by
    intro x low high
    obtain ⟨bottom,top⟩ := trunc_bounds 0 65536 (by decide) (by decide) (by simpa using low) high
    have small : (trunc x % 2 ^ 16).toNat < 2 ^ 16 := by omega
    rw [UInt16.ofInt,UInt16.toNat_ofNat_of_lt' small]
    omega
  toInt16_fits := by
    intro x low high
    have wide : ((-32768 : ℤ) : ℚ) - 1 < x := by push_cast; linarith
    obtain ⟨bottom,top⟩ := trunc_bounds (-32768) 32768 (by decide) (by decide) wide high
    exact Int16.toInt_ofInt_of_le bottom top
  fl_scale _ _ _ _ := rfl

def Arith.upright : Arith := .exact (fun _ => 0) (fun _ => 1)

structure Rand where
  max : Nat
  draws : Nat → Nat
  bounded : ∀ n, draws n ≤ max

def Rand.rand (r : Rand) : Nat × Rand :=
  (r.draws 0,{r with draws := fun n => r.draws (n + 1), bounded := fun n => r.bounded (n + 1)})

def Rand.zeros : Rand := ⟨32767,fun _ => 0,fun _ => Nat.zero_le _⟩

def Rand.random (A : Arith) (r : Rand) : ℚ × Rand :=
  let (v,r) := r.rand
  (A.fl (v / r.max),r)

-- apps/asteroids/inc/Consts.h; a float constant has the value of that float.
namespace Consts
def fps : ℚ := 60
def friction : ℚ := 11744051 / 16777216
def shipBlinkDur : ℚ := 13421773 / 67108864
def shipExplodeDur : ℚ := 1 / 2
def shipInvDur : ℚ := 3
def shipSize : Nat := 20
def shipThrust : ℚ := 10
def shipTurnSpeed : Nat := 360
def shipMaxDeltaV : ℚ := 20
def gunMagSize : Nat := 6
def muzzleVelocity : ℚ := 500
def rockRadius : ℚ := 32
def rockSpeed : ℚ := 50
def mPi : ℚ := 884279719003555 / 281474976710656
def shipRadsPerTick (A : Arith) : ℚ := A.fl (A.fl ((shipTurnSpeed / 180 : Nat) * A.fl (3.1415)) / fps)
def fp412 : ℚ := 4096
def degreesToRads (A : Arith) : ℚ := A.fl (mPi / 180)
def viewportMargin : ℚ := 200
def numStars : Nat := 1600
def numLives : Int := 5
end Consts

end Geoff
