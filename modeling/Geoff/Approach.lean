import Mathlib.Algebra.Order.Floor.Semiring
import Mathlib.Algebra.Order.Field.Basic
import Mathlib.Logic.Function.Iterate
import Mathlib.Tactic.Linarith
import Mathlib.Tactic.Ring

-- A coordinate on its way to a destination: in each step it snaps to the destination from
-- closer by than `speed`, and goes on by `speed` from elsewhere.
namespace Approach
universe u
variable {α : Type u} [Field α] [LinearOrder α]

def snap (speed dest x : α) : α := if |x - dest| < speed then dest else x

def heading (speed dest x : α) : α :=
  let adjust := if x < dest then speed else 0
  if x > dest then -speed else adjust

def toward (speed dest x : α) : α := snap speed dest x + heading speed dest (snap speed dest x)

-- One step does not lead away from the destination or past it.
structure Nears (dest x x' : α) : Prop where
  gap : |x' - dest| ≤ |x - dest|
  below : x ≤ dest → x' ≤ dest
  above : dest ≤ x → dest ≤ x'

theorem heading_there (speed dest : α) : heading speed dest dest = 0 := by
  simp [heading]

variable {speed dest x : α}

theorem toward_near (near : |x - dest| < speed) : toward speed dest x = dest := by
  rw [toward,snap,if_pos near,heading_there,add_zero]

variable [IsStrictOrderedRing α]

theorem heading_zero (positive : 0 < speed) : heading speed dest x = 0 ↔ x = dest := by
  constructor
  · intro still
    by_contra away
    rcases lt_or_gt_of_ne away with below | above
    · rw [heading,if_neg below.asymm,if_pos below] at still
      exact positive.ne' still
    · rw [heading,if_pos above] at still
      exact (neg_lt_zero.mpr positive).ne still
  · rintro rfl
    exact heading_there speed x

theorem heading_snap (positive : 0 < speed) : heading speed dest (snap speed dest x) ≠ 0 ↔ speed ≤ |x - dest| := by
  rw [Ne,heading_zero positive,snap]
  rcases lt_or_ge (|x - dest|) speed with near | far
  · rw [if_pos near]
    exact iff_of_false (not_not.mpr rfl) (not_le.mpr near)
  · rw [if_neg (not_lt.mpr far)]
    refine iff_of_true (fun there => ?_) far
    rw [there,sub_self,abs_zero] at far
    exact absurd positive (not_lt.mpr far)

theorem toward_below (positive : 0 < speed) (below : x + speed ≤ dest) : toward speed dest x = x + speed := by
  have far : ¬ |x - dest| < speed := by
    rw [abs_of_nonpos (by linarith)]
    linarith
  have left : x < dest := by linarith
  rw [toward,snap,if_neg far,heading,if_neg left.asymm,if_pos left]

theorem toward_above (positive : 0 < speed) (above : dest + speed ≤ x) : toward speed dest x = x - speed := by
  have far : ¬ |x - dest| < speed := by
    rw [abs_of_nonneg (by linarith)]
    linarith
  have right : dest < x := by linarith
  rw [toward,snap,if_neg far,heading,if_pos right]
  ring

theorem distance_cases (speed dest x : α) : |x - dest| < speed ∨ x + speed ≤ dest ∨ dest + speed ≤ x := by
  rcases lt_or_ge (|x - dest|) speed with near | far
  · exact .inl near
  · rcases le_abs.mp far with above | below
    · exact .inr (.inr (by linarith))
    · exact .inr (.inl (by linarith))

theorem toward_gap (positive : 0 < speed) : |toward speed dest x - dest| = max 0 (|x - dest| - speed) := by
  rcases distance_cases speed dest x with near | below | above
  · rw [toward_near near,sub_self,abs_zero,max_eq_left (by linarith)]
  · rw [toward_below positive below,abs_of_nonpos (by linarith),abs_of_nonpos (by linarith),max_eq_right (by linarith)]
    ring
  · rw [toward_above positive above,abs_of_nonneg (by linarith),abs_of_nonneg (by linarith),max_eq_right (by linarith)]
    ring

theorem toward_nears (positive : 0 < speed) : Nears dest x (toward speed dest x) := by
  constructor
  · rw [toward_gap positive]
    exact max_le (abs_nonneg _) (by linarith)
  · intro low
    rcases distance_cases speed dest x with near | below | above
    · rw [toward_near near]
    · rw [toward_below positive below]
      exact below
    · linarith
  · intro high
    rcases distance_cases speed dest x with near | below | above
    · rw [toward_near near]
    · linarith
    · rw [toward_above positive above]
      linarith

theorem toward_step (positive : 0 < speed) : |toward speed dest x - x| ≤ speed := by
  rcases distance_cases speed dest x with near | below | above
  · rw [toward_near near,abs_sub_comm]
    exact near.le
  · rw [toward_below positive below,add_sub_cancel_left,abs_of_pos positive]
  · rw [toward_above positive above,sub_sub_cancel_left,abs_neg,abs_of_pos positive]

theorem Nears.within {low high x' : α} (nears : Nears dest x x') (here : low ≤ x ∧ x ≤ high) (there : low ≤ dest ∧ dest ≤ high) :
    low ≤ x' ∧ x' ≤ high := by
  have gap := nears.gap
  rcases le_total x dest with left | right
  · have short := nears.below left
    rw [abs_of_nonpos (by linarith),abs_of_nonpos (by linarith)] at gap
    exact ⟨by linarith,by linarith⟩
  · have short := nears.above right
    rw [abs_of_nonneg (by linarith),abs_of_nonneg (by linarith)] at gap
    exact ⟨by linarith,by linarith⟩

theorem iterate_gap (positive : 0 < speed) (n : ℕ) :
    |(toward speed dest)^[n] x - dest| = max 0 (|x - dest| - n * speed) := by
  induction n with
  | zero =>
    rw [Function.iterate_zero,id,Nat.cast_zero,zero_mul,sub_zero,max_eq_right (abs_nonneg _)]
  | succ n ih =>
    rw [Function.iterate_succ_apply',toward_gap positive,ih]
    push_cast
    rcases le_total (|x - dest|) (n * speed) with reached | away
    · have there : max 0 (|x - dest| - n * speed) = 0 := max_eq_left (by linarith)
      rw [there,max_eq_left (by linarith),max_eq_left (by linarith)]
    · have left : max 0 (|x - dest| - n * speed) = |x - dest| - n * speed := max_eq_right (by linarith)
      rw [left]
      congr 1
      ring

-- After as many steps as the distance has of them the coordinate is at its destination.
theorem iterate_arrives [FloorSemiring α] (positive : 0 < speed) {n : ℕ} (enough : ⌈|x - dest| / speed⌉₊ ≤ n) :
    (toward speed dest)^[n] x = dest := by
  have quotient : |x - dest| / speed ≤ n := Nat.ceil_le.mp enough
  have covered : |x - dest| ≤ n * speed := (div_le_iff₀ positive).mp quotient
  have gap : |(toward speed dest)^[n] x - dest| = max 0 (|x - dest| - n * speed) := iterate_gap positive n
  rw [max_eq_left (by linarith)] at gap
  exact sub_eq_zero.mp (abs_eq_zero.mp gap)

end Approach
