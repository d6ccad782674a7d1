import Geoff.Approach
import Geoff.GameScript

-- A being on its way: each axis of its position approaches the one of its destination.
namespace Geoff.GameScript.Arrivals
open Approach

structure Trip where
  movement : LocationMovement
  isMoving : Bool
  movementSpeed : ℚ

def trip (b : Being) : Trip := ⟨b.toLocationMovement,b.isMoving,b.movementSpeed⟩

theorem animate_trip (b : Being) (xAdj : ℚ) : trip (b.animate xAdj) = trip b := by
  simp only [Being.animate]
  split <;> split <;> split <;> first | rfl | (split <;> rfl)

def adjustment (m : LocationMovement) (speed : ℚ) : ℚ × ℚ :=
  (heading speed m.destination.xPos m.position.xPos,heading speed m.destination.yPos m.position.yPos)

theorem movement_adjusted (m : LocationMovement) (speed : ℚ) : m.updateMovement speed =
    (⟨(adjustment m speed).1,(adjustment m speed).2,decide ((adjustment m speed).1 ≠ 0 ∨ (adjustment m speed).2 ≠ 0)⟩,
      {m with position := m.position.moveBy (adjustment m speed).1 (adjustment m speed).2}) := by
  have applied : m.updateMovement speed =
      (((⟨(adjustment m speed).1,(adjustment m speed).2,false⟩ : MovementInstance).applyMovement m.position).1,
        {m with position :=
          ((⟨(adjustment m speed).1,(adjustment m speed).2,false⟩ : MovementInstance).applyMovement m.position).2}) := rfl
  rw [applied]
  generalize adjustment m speed = a
  simp only [MovementInstance.applyMovement]
  split
  · rename_i moves
    rw [decide_eq_true moves]
  · rename_i stays
    obtain ⟨x,y⟩ := not_or.mp stays
    rw [decide_eq_false stays,Location.moveBy,not_not.mp x,not_not.mp y,add_zero,add_zero]

def ahead (b : Being) : Location :=
  ⟨toward b.movementSpeed b.destination.xPos b.position.xPos,toward b.movementSpeed b.destination.yPos b.position.yPos⟩

def snapped (b : Being) : LocationMovement :=
  {b.toLocationMovement with position :=
    b.position.snapToPosition b.destination.xPos b.destination.yPos b.movementSpeed}

theorem updateMovement_trip (b : Being) : trip b.updateMovement =
    ⟨⟨ahead b,b.destination⟩,decide ((adjustment (snapped b) b.movementSpeed).1 ≠ 0 ∨
      (adjustment (snapped b) b.movementSpeed).2 ≠ 0),b.movementSpeed⟩ := by
  have moved := movement_adjusted (snapped b) b.movementSpeed
  unfold snapped at moved
  simp only [Being.updateMovement]
  rw [moved]
  split
  · rw [animate_trip]
    rfl
  · rfl

theorem update_position (b : Being) : b.updateMovement.position = ahead b :=
  congrArg (fun t : Trip => t.movement.position) (updateMovement_trip b)

theorem update_destination (b : Being) : b.updateMovement.destination = b.destination :=
  congrArg (fun t : Trip => t.movement.destination) (updateMovement_trip b)

theorem update_speed (b : Being) : b.updateMovement.movementSpeed = b.movementSpeed :=
  congrArg Trip.movementSpeed (updateMovement_trip b)

def Close (b : Being) : Prop :=
  |b.position.xPos - b.destination.xPos| < b.movementSpeed ∧ |b.position.yPos - b.destination.yPos| < b.movementSpeed

theorem update_moving {b : Being} (positive : 0 < b.movementSpeed) : b.updateMovement.isMoving = false ↔ Close b := by
  have moving : b.updateMovement.isMoving = _ := congrArg Trip.isMoving (updateMovement_trip b)
  have across : (adjustment (snapped b) b.movementSpeed).1 ≠ 0 ↔ b.movementSpeed ≤ |b.position.xPos - b.destination.xPos| :=
    heading_snap positive
  have down : (adjustment (snapped b) b.movementSpeed).2 ≠ 0 ↔ b.movementSpeed ≤ |b.position.yPos - b.destination.yPos| :=
    heading_snap positive
  rw [moving]
  dsimp only
  rw [decide_eq_false_iff_not,not_or]
  apply and_congr
  · rw [← not_le]
    exact not_congr across
  · rw [← not_le]
    exact not_congr down

theorem close_arrives {b : Being} (close : Close b) : b.updateMovement.position = b.destination := by
  rw [update_position,ahead,toward_near close.1,toward_near close.2]

theorem there_close {b : Being} (positive : 0 < b.movementSpeed) (there : b.position = b.destination) : Close b := by
  unfold Close
  rw [there,sub_self,sub_self,abs_zero]
  exact ⟨positive,positive⟩

def after (b : Being) (n : ℕ) : Being := Being.updateMovement^[n] b

theorem after_succ (b : Being) (n : ℕ) : after b (n + 1) = (after b n).updateMovement := Function.iterate_succ_apply' _ n b

theorem after_kept (b : Being) (n : ℕ) :
    (after b n).destination = b.destination ∧ (after b n).movementSpeed = b.movementSpeed := by
  induction n with
  | zero => exact ⟨rfl,rfl⟩
  | succ n ih =>
    rw [after_succ,update_destination,update_speed]
    exact ih

theorem after_position (b : Being) (n : ℕ) : (after b n).position =
    ⟨(toward b.movementSpeed b.destination.xPos)^[n] b.position.xPos,
      (toward b.movementSpeed b.destination.yPos)^[n] b.position.yPos⟩ := by
  induction n with
  | zero => rfl
  | succ n ih =>
    obtain ⟨destination,speed⟩ := after_kept b n
    rw [after_succ,update_position,ahead,destination,speed,ih,Function.iterate_succ_apply',Function.iterate_succ_apply']

def calls (b : Being) : ℕ :=
  max ⌈|b.position.xPos - b.destination.xPos| / b.movementSpeed⌉₊ ⌈|b.position.yPos - b.destination.yPos| / b.movementSpeed⌉₊

theorem after_calls {b : Being} (positive : 0 < b.movementSpeed) : (after b (calls b)).position = b.destination := by
  have across : (toward b.movementSpeed b.destination.xPos)^[calls b] b.position.xPos = b.destination.xPos := by
    apply iterate_arrives positive
    exact le_max_left ..
  have down : (toward b.movementSpeed b.destination.yPos)^[calls b] b.position.yPos = b.destination.yPos := by
    apply iterate_arrives positive
    exact le_max_right ..
  rw [after_position,across,down]

theorem after_nears {b : Being} (positive : 0 < b.movementSpeed) (n : ℕ) :
    Nears b.destination.xPos (after b n).position.xPos (after b (n + 1)).position.xPos ∧
      Nears b.destination.yPos (after b n).position.yPos (after b (n + 1)).position.yPos := by
  obtain ⟨destination,speed⟩ := after_kept b n
  rw [after_succ,update_position,ahead,destination,speed]
  exact ⟨toward_nears positive,toward_nears positive⟩

theorem rests_next {b : Being} (positive : 0 < b.movementSpeed) {n : ℕ} (there : (after b n).position = b.destination) :
    (after b (n + 1)).position = b.destination ∧ (after b (n + 1)).isMoving = false := by
  obtain ⟨destination,speed⟩ := after_kept b n
  have goes : 0 < (after b n).movementSpeed := by
    rw [speed]
    exact positive
  have close := there_close goes (there.trans destination.symm)
  rw [after_succ]
  exact ⟨(close_arrives close).trans destination,(update_moving goes).mpr close⟩

theorem after_rests {b : Being} (positive : 0 < b.movementSpeed) {n : ℕ} (there : (after b n).position = b.destination)
    {m : ℕ} (later : n < m) : (after b m).position = b.destination ∧ (after b m).isMoving = false := by
  induction m, later using Nat.le_induction with
  | base => exact rests_next positive there
  | succ m _ ih => exact rests_next positive ih.1

-- A being gets to a destination that does not change, without passing it on an axis, and
-- stays there.
theorem being_arrives {b : Being} (positive : 0 < b.movementSpeed) :
    (∀ n, (after b n).destination = b.destination ∧
      Nears b.destination.xPos (after b n).position.xPos (after b (n + 1)).position.xPos ∧
        Nears b.destination.yPos (after b n).position.yPos (after b (n + 1)).position.yPos) ∧
      (after b (calls b)).position = b.destination ∧
        ∀ n, (after b n).position = b.destination → ∀ m > n,
          (after b m).position = b.destination ∧ (after b m).isMoving = false :=
  ⟨fun n => ⟨(after_kept b n).1,after_nears positive n⟩,after_calls positive,
    fun _ there _ later => after_rests positive there later⟩

def traveller : Being := (Being.make 0 0 3).setDestination 50 (-7)

theorem traveller_arrives : calls traveller = 17 ∧ (after traveller 17).position = ⟨50,-7⟩ := by
  have seventeen : calls traveller = 17 := by decide +kernel
  have there := (being_arrives (b := traveller) (by decide +kernel)).2.1
  rw [seventeen] at there
  exact ⟨seventeen,there⟩

end Geoff.GameScript.Arrivals
