import Mathlib.Algebra.BigOperators.Group.List.Basic
import Mathlib.Algebra.Ring.Nat

-- Stocks of items of which one after another is taken out and replaced by its shards.
namespace Stock
universe u
variable {α : Type u} {shards : α → List α} {items left rest : List α} {n m : ℕ}

inductive Breaks (shards : α → List α) : ℕ → List α → List α → Prop where
  | none (items : List α) : Breaks shards 0 items items
  | one {n : ℕ} {rest : List α} (before : List α) (item : α) (after : List α) :
    Breaks shards n (before ++ after ++ shards item) rest → Breaks shards (n + 1) (before ++ item :: after) rest

theorem Breaks.single (before : List α) (item : α) (after : List α) :
    Breaks shards 1 (before ++ item :: after) (before ++ after ++ shards item) :=
  .one before item after (.none _)

theorem Breaks.trans (first : Breaks shards n items left) (second : Breaks shards m left rest) :
    Breaks shards (n + m) items rest := by
  induction first with
  | none items =>
    rw [Nat.zero_add]
    exact second
  | one before item after _ ih =>
    rw [Nat.succ_add]
    exact .one before item after (ih second)

def load (v : α → ℕ) (items : List α) : ℕ := (items.map v).sum

variable {v : α → ℕ}

@[simp] theorem load_nil : load v [] = 0 := rfl

@[simp] theorem load_cons (item : α) (items : List α) : load v (item :: items) = v item + load v items := rfl

@[simp] theorem load_append (items more : List α) : load v (items ++ more) = load v items + load v more := by
  simp [load]

-- What a break costs, if it is the same for every item.
theorem breaks_cost {cost : ℕ} (even : ∀ item, v item = cost + load v (shards item)) (breaks : Breaks shards n items rest) :
    n * cost + load v rest = load v items := by
  induction breaks with
  | none items => rw [Nat.zero_mul,Nat.zero_add]
  | one before item after _ ih =>
    have worth := even item
    rw [load_append,load_append] at ih
    rw [load_append,load_cons,Nat.succ_mul]
    omega

theorem breaks_less (less : ∀ item, load v (shards item) ≤ v item) (breaks : Breaks shards n items rest) :
    load v rest ≤ load v items := by
  induction breaks with
  | none items => exact Nat.le_refl _
  | one before item after _ ih =>
    have worth := less item
    rw [load_append,load_append] at ih
    rw [load_append,load_cons]
    omega

theorem length_load (some_worth : ∀ item, 0 < v item) (items : List α) : items.length ≤ load v items := by
  induction items with
  | nil => exact Nat.le_refl 0
  | cons item items ih =>
    have worth := some_worth item
    rw [List.length_cons,load_cons]
    omega

end Stock
