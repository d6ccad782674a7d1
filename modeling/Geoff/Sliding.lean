import Geoff.OnScreen

-- The sliding block of MoveShip executed again with the ship where it was, in exact
-- arithmetic: for windows narrower than the two margins the two branches of an axis undo
-- each other.
namespace Geoff.Sliding
open Consts Collision ShipBounds Viewport OnScreen

-- One axis of a window: it holds both margins, or the ship is so near to a wall that one
-- of the branches does nothing.
def Settles (pos : ℚ) (window : UInt16) : Prop := 400 ≤ window.toNat ∨ pos ≤ 200 ∨ 7992 ≤ pos

variable (cos sin : ℚ → ℚ)

section Axis
variable {pos : ℚ} {offset window : UInt16}

theorem left_twice (near : pos < offset.toNat + 200) (inner : 200 < pos) (high : pos < 65536) :
    slid cos sin pos (slid cos sin pos offset window) window = slid cos sin pos offset window ↔ Settles pos window := by
  obtain ⟨below,above⟩ := toUint16_floor cos sin (x := pos - 200) (by linarith) (by linarith)
  rw [slid_left cos sin near inner]
  generalize (Arith.exact cos sin).toUint16 (pos - 200) = start at below above
  by_cases right : start.toNat + window.toNat - 200 < pos ∧ pos < 7992
  · obtain ⟨past,free⟩ := right
    have low : (0 : ℚ) ≤ start.toNat := Nat.cast_nonneg _
    rw [slid_right cos sin (by linarith) past free]
    obtain ⟨under,beyond⟩ := toUint16_floor cos sin (x := pos - window.toNat + 200) (by linarith) (by linarith)
    generalize (Arith.exact cos sin).toUint16 (pos - window.toNat + 200) = back at under beyond
    constructor
    · intro same
      rw [same] at beyond
      have wide : (399 : ℚ) < window.toNat := by linarith
      exact .inl (by exact_mod_cast wide)
    · rintro (wide | near | far)
      · have wide : (400 : ℚ) ≤ window.toNat := by exact_mod_cast wide
        have most : (back.toNat : ℚ) < start.toNat + 1 := by linarith
        have least : (start.toNat : ℚ) < back.toNat + 1 := by linarith
        have most : back.toNat < start.toNat + 1 := by exact_mod_cast most
        have least : start.toNat < back.toNat + 1 := by exact_mod_cast least
        exact UInt16.toNat_inj.mp (by omega)
      · linarith
      · linarith
  · have still : slid cos sin pos start window = start := by
      apply slid_still
      · intro nearer
        linarith
      · intro _ past
        exact not_lt.mp fun free => right ⟨past,free⟩
    simp only [still,true_iff]
    rcases lt_or_ge pos 7992 with free | far
    · have reach : pos ≤ start.toNat + window.toNat - 200 := not_lt.mp fun past => right ⟨past,free⟩
      have wide : (400 : ℚ) ≤ window.toNat := by linarith
      exact .inl (by exact_mod_cast wide)
    · exact .inr (.inr far)

theorem right_twice (apart : offset.toNat + 200 ≤ pos) (past : offset.toNat + window.toNat - 200 < pos) (inner : pos < 7992) :
    slid cos sin pos (slid cos sin pos offset window) window = slid cos sin pos offset window ↔ Settles pos window := by
  have low : (0 : ℚ) ≤ offset.toNat := Nat.cast_nonneg _
  have first : (0 : ℚ) ≤ window.toNat := Nat.cast_nonneg _
  obtain ⟨below,above⟩ := toUint16_floor cos sin (x := pos - window.toNat + 200) (by linarith) (by linarith)
  rw [slid_right cos sin apart past inner]
  generalize same : (Arith.exact cos sin).toUint16 (pos - window.toNat + 200) = start at below above
  by_cases near : pos < start.toNat + 200
  · rcases le_or_gt pos 200 with wall | free
    · rw [slid_still cos sin (fun _ => wall) (by intros; linarith)]
      exact iff_of_true rfl (.inr (.inl wall))
    · rw [slid_left cos sin near free]
      obtain ⟨under,_⟩ := toUint16_floor cos sin (x := pos - 200) (by linarith) (by linarith)
      have narrow : (window.toNat : ℚ) < 400 := by linarith
      have short : ¬ 400 ≤ window.toNat := not_le.mpr (by exact_mod_cast narrow)
      have narrow : (window.toNat : ℚ) ≤ 399 := by exact_mod_cast Nat.lt_succ_iff.mp (not_le.mp short)
      constructor
      · intro back
        rw [back] at under
        linarith
      · rintro (wide | wall | far)
        · exact absurd wide short
        · linarith
        · linarith
  · have apart : start.toNat + 200 ≤ pos := not_lt.mp near
    have wide : (399 : ℚ) < window.toNat := by linarith
    have wide : 400 ≤ window.toNat := by exact_mod_cast wide
    refine iff_of_true ?_ (.inl wide)
    by_cases past : start.toNat + window.toNat - 200 < pos
    · exact (slid_right cos sin apart past inner).trans same
    · exact slid_still cos sin (fun nearer => absurd nearer near) fun _ further => absurd further past

theorem slid_twice (offset window : UInt16) (high : pos < 65536) :
    slid cos sin pos (slid cos sin pos offset window) window = slid cos sin pos offset window ↔ Settles pos window := by
  rcases slide_cases pos offset window with ⟨near,inner⟩ | ⟨apart,past,inner⟩ | ⟨left,right⟩
  · exact left_twice cos sin near inner high
  · exact right_twice cos sin apart past inner
  · have still : slid cos sin pos offset window = offset := slid_still cos sin left right
    rw [still,still]
    apply iff_of_true rfl
    rcases lt_or_ge pos (offset.toNat + 200) with near | apart
    · exact .inr (.inl (left near))
    · rcases lt_or_ge (offset.toNat + window.toNat - 200 : ℚ) pos with past | reach
      · exact .inr (.inr (right apart past))
      · have wide : (400 : ℚ) ≤ window.toNat := by linarith
        exact .inl (by exact_mod_cast wide)

end Axis

-- The view of a ship at rest stays where it is exactly when both axes settle.
theorem slide_settles_iff {s : Ship} (slides : s.slideViewport = true) (margin : s.viewportMargin = Consts.viewportMargin)
    (inside : Inside s.toPosition) :
    ((s.slide (.exact cos sin) field).slide (.exact cos sin) field).toContext = (s.slide (.exact cos sin) field).toContext ↔
      Settles s.posX s.ctxW ∧ Settles s.posY s.ctxH := by
  obtain ⟨⟨_,right⟩,_,bottom⟩ := inside
  have across := slid_twice cos sin s.ctxOX s.ctxW (show s.posX < 65536 by linarith)
  have down := slid_twice cos sin s.ctxOY s.ctxH (show s.posY < 65536 by linarith)
  have again := slide_slid cos sin (s := {s with
    ctxOX := slid cos sin s.posX s.ctxOX s.ctxW, ctxOY := slid cos sin s.posY s.ctxOY s.ctxH}) slides margin
  rw [slide_slid cos sin slides margin,again,← across,← down]
  simp only [Context.mk.injEq,true_and]

def middling (w h : UInt16) : Ship := Ship.make .upright field w h 4096 4096 0

theorem middling_inside (w h : UInt16) : Inside (middling w h).toPosition := by
  unfold Inside middling Ship.make
  norm_num

theorem wide_view_settles :
    ((middling 800 600).slide .upright field).toContext = ⟨800,600,3696,3796⟩ ∧
      (((middling 800 600).slide .upright field).slide .upright field).toContext =
        ((middling 800 600).slide .upright field).toContext :=
  ⟨by decide +kernel,
    (slide_settles_iff (fun _ => 0) (fun _ => 1) rfl rfl (middling_inside 800 600)).mpr
      ⟨.inl (by decide),.inl (by decide)⟩⟩

-- In a window of 300 by 300 the view goes to and fro.
theorem narrow_view_flickers :
    Framed (middling 300 300).toContext ∧ Inside (middling 300 300).toPosition ∧
      ((middling 300 300).slide .upright field).toContext = ⟨300,300,3896,3896⟩ ∧
        (((middling 300 300).slide .upright field).slide .upright field).toContext ≠
          ((middling 300 300).slide .upright field).toContext :=
  ⟨⟨by decide +kernel,by decide +kernel⟩,middling_inside 300 300,by decide +kernel,by decide +kernel⟩

end Geoff.Sliding
