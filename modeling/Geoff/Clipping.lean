import Mathlib.Algebra.BigOperators.Group.List.Basic
import Mathlib.Algebra.Group.ModEq
import Mathlib.Algebra.Order.Group.Basic

-- Walks around a circle of circumference `M` that is cut at one point. A step that would
-- pass the cut is stopped behind it.
namespace Clipping
universe u
variable {α : Type u} [AddCommGroup α] [LinearOrder α]

open AddCommGroup

def clip (M x : α) : α := if M ≤ x then 0 else if x < 0 then M else x

def Passes (M x : α) : Prop := M < x ∨ x < 0

def walk (M : α) (steps : List α) (x : α) : α := steps.foldl (fun x step => clip M (x + step)) x

def Stays (M : α) : List α → α → Prop
  | [],_ => True
  | step :: rest,x => ¬ Passes M (x + step) ∧ Stays M rest (clip M (x + step))

variable {M x step : α} {first rest steps : List α}

theorem walk_append (first rest : List α) (x : α) : walk M (first ++ rest) x = walk M rest (walk M first x) :=
  List.foldl_append

theorem clip_modEq (stays : ¬ Passes M x) : clip M x ≡ x [PMOD M] := by
  obtain ⟨under,above⟩ := not_or.mp stays
  rcases lt_or_ge x M with before | reached
  · rw [clip,if_neg (not_le.mpr before),if_neg above]
  · have same : x = M := le_antisymm (not_lt.mp under) reached
    rw [clip,if_pos reached,same]
    exact self_modEq_zero.symm

theorem clip_passes (passes : Passes M x) : clip M x ≡ 0 [PMOD M] := by
  rcases lt_or_ge x M with before | reached
  · rcases passes with past | back
    · exact absurd before past.asymm
    · rw [clip,if_neg (not_le.mpr before),if_pos back]
      exact self_modEq_zero
  · rw [clip,if_pos reached]

theorem not_modEq_zero [IsOrderedAddMonoid α] (z : ℤ) (positive : 0 < M) (past : z • M < x) (before : x < (z + 1) • M) :
    ¬ x ≡ 0 [PMOD M] := by
  intro cut
  obtain ⟨n,same⟩ := modEq_zero_iff_eq_zsmul.mp cut
  rw [same] at past before
  have low := (zsmul_lt_zsmul_iff_left positive).mp past
  have high := (zsmul_lt_zsmul_iff_left positive).mp before
  omega

-- Less than one turn away from the circle a position keeps its class only if it does not
-- pass the cut.
theorem clip_modEq_iff [IsOrderedAddMonoid α] (positive : 0 < M) (low : -M < x) (high : x < M + M) :
    clip M x ≡ x [PMOD M] ↔ ¬ Passes M x := by
  refine ⟨fun same passes => ?_,clip_modEq⟩
  have cut : x ≡ 0 [PMOD M] := same.symm.trans (clip_passes passes)
  rcases passes with past | back
  · apply not_modEq_zero 1 positive _ _ cut
    · rwa [one_zsmul]
    · rwa [add_zsmul,one_zsmul]
  · apply not_modEq_zero (-1) positive _ _ cut
    · rwa [neg_zsmul,one_zsmul]
    · rwa [neg_add_cancel,zero_zsmul]

theorem walk_modEq (stays : Stays M steps x) : walk M steps x ≡ x + steps.sum [PMOD M] := by
  induction steps generalizing x with
  | nil =>
    rw [List.sum_nil,add_zero]
    exact modEq_refl x
  | cons step rest ih =>
    obtain ⟨here,later⟩ := stays
    rw [List.sum_cons,← add_assoc]
    exact (ih later).trans ((clip_modEq here).add_right rest.sum)

theorem walk_restarts (passes : Passes M (walk M first x + step)) (stays : Stays M rest (walk M (first ++ [step]) x)) :
    walk M (first ++ step :: rest) x ≡ rest.sum [PMOD M] := by
  have split : first ++ step :: rest = (first ++ [step]) ++ rest := by simp
  have restart : walk M (first ++ [step]) x ≡ 0 [PMOD M] := by
    rw [walk_append]
    exact clip_passes passes
  have same := (walk_modEq stays).trans (restart.add_right rest.sum)
  rw [zero_add] at same
  rw [split,walk_append]
  exact same

end Clipping
