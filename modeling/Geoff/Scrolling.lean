import Mathlib.Algebra.Order.Field.Basic
import Mathlib.Tactic.Linarith

-- One axis of a window that follows a point over a map: it scrolls as far as the point is
-- past a border inside of the window, and stops at the ends of the map.
namespace Scrolling
universe u
variable {α : Type u} [Field α] [LinearOrder α]

def lag (extent border behind : α) : α :=
  let offset := if behind < border then behind - border else 0
  if behind > extent - border then behind - (extent - border) else offset

def stop (limit x : α) : α :=
  let x := if x < 0 then 0 else x
  if x > limit then limit else x

structure Held (size extent border offset point : α) : Prop where
  low : 0 ≤ offset
  high : offset + extent ≤ size
  left : offset = 0 ∨ offset + border ≤ point
  right : offset + extent = size ∨ point + border ≤ offset + extent

variable [IsStrictOrderedRing α] {size extent border offset point : α}

theorem lag_zero :
    lag extent border (point - offset) = 0 ↔ offset + border ≤ point ∧ point + border ≤ offset + extent := by
  unfold lag
  dsimp only
  split
  · rename_i right
    exact ⟨fun none => by linarith,fun inside => by linarith [inside.2]⟩
  · rename_i right
    split
    · rename_i left
      exact ⟨fun none => by linarith,fun inside => by linarith [inside.1]⟩
    · rename_i left
      exact iff_of_true rfl ⟨by linarith,by linarith⟩

variable (offset point) in
theorem lag_catches (room : 2 * border ≤ extent) :
    offset + lag extent border (point - offset) + border ≤ point ∧
      point + border ≤ offset + lag extent border (point - offset) + extent := by
  unfold lag
  dsimp only
  split
  · exact ⟨by linarith,by linarith⟩
  · split
    · exact ⟨by linarith,by linarith⟩
    · exact ⟨by linarith,by linarith⟩

theorem stop_within (fits : extent ≤ size) (x : α) :
    0 ≤ stop (size - extent) x ∧ stop (size - extent) x + extent ≤ size := by
  unfold stop
  dsimp only
  split
  · rw [if_neg (by linarith)]
    exact ⟨le_refl _,by linarith⟩
  · split
    · exact ⟨by linarith,by linarith⟩
    · exact ⟨by linarith,by linarith⟩

theorem stop_held (fits : extent ≤ size) {x : α} (left : x + border ≤ point) (right : point + border ≤ x + extent) :
    Held size extent border (stop (size - extent) x) point := by
  unfold stop
  dsimp only
  split
  · rename_i below
    rw [if_neg (by linarith)]
    exact ⟨le_refl _,by linarith,.inl rfl,.inr (by linarith)⟩
  · rename_i inside
    split
    · rename_i past
      exact ⟨by linarith,by linarith,.inr (by linarith),.inl (by linarith)⟩
    · rename_i short
      exact ⟨by linarith,by linarith,.inr left,.inr right⟩

theorem Held.seen {slack : α} (held : Held size extent border offset point) (thin : 0 ≤ border) (wide : 0 ≤ slack)
    (low : 0 ≤ point) (high : point ≤ size + slack) : offset ≤ point ∧ point ≤ offset + extent + slack := by
  constructor
  · rcases held.left with start | inside
    · rw [start]
      exact low
    · linarith
  · rcases held.right with last | inside
    · rw [last]
      exact high
    · linarith

end Scrolling
