import Geoff.ShipRuns

-- The two count-downs of a ship that cannot be hit: its shield and its blinking.
namespace Geoff.Blinking
open Consts Collision PlayerEvents ShipBounds Viewport ShipRuns

-- How a ship looks `n` ticks after it got its shield: of the 14 blinks of 13 ticks each
-- every other one leaves it dark, the first one to begin with.
def Bright (n : ℕ) : Prop := n = 0 ∨ (14 - (n - 1) / 13) % 2 = 1

instance : DecidablePred Bright := fun n => inferInstanceAs (Decidable (n = 0 ∨ (14 - (n - 1) / 13) % 2 = 1))

structure Shielded (n : ℕ) (s : Ship) : Prop where
  shields : s.invulnerable = true
  left : s.invDuration = 3 - n / 60
  blinkTime : s.blinkTime = shipBlinkDur * fps - (n % 13 : ℕ)
  blinkNum : s.blinkNum = (14 - n / 13 : ℕ)
  visible : s.visible = decide (Bright n)

inductive Lit (s : Ship) : Prop where
  | shielded (n : ℕ) : n ≤ 180 → Shielded n s → Lit s
  | exposed : s.invulnerable = false → s.visible = true → Lit s

structure Glow where
  invulnerable : Bool
  invDuration : ℚ
  blinkTime : ℚ
  blinkNum : Int
  visible : Bool

def glow (s : Ship) : Glow := ⟨s.invulnerable,s.invDuration,s.blinkTime,s.blinkNum,s.visible⟩

theorem Lit.same {s s' : Ship} (lit : Lit s) (same : glow s' = glow s) : Lit s' := by
  simp only [glow,Glow.mk.injEq] at same
  obtain ⟨invulnerable,invDuration,blinkTime,blinkNum,visible⟩ := same
  cases lit with
  | shielded n early shielded =>
    obtain ⟨shields,left,time,num,bright⟩ := shielded
    exact .shielded n early ⟨invulnerable.trans shields,invDuration.trans left,blinkTime.trans time,blinkNum.trans num,
      visible.trans bright⟩
  | exposed vulnerable bright => exact .exposed (invulnerable.trans vulnerable) (visible.trans bright)

section Exact
variable (cos sin : ℚ → ℚ)

theorem blinks : trunc (shipInvDur / shipBlinkDur) = 14 := by decide +kernel

theorem fresh_lit {s : Ship} (shields : s.invulnerable = true) (visible : s.visible = true)
    (duration : s.invDuration = shipInvDur) (time : s.blinkTime = shipBlinkDur * fps)
    (num : s.blinkNum = trunc (shipInvDur / shipBlinkDur)) : Lit s := by
  refine .shielded 0 (by omega) ⟨shields,?_,?_,?_,visible⟩
  · rw [duration]
    norm_num [shipInvDur]
  · rw [time]
    norm_num
  · rw [num,blinks]
    rfl

-- The time of a blink runs out with its 13th tick.
theorem blink_ends (n : ℕ) : shipBlinkDur * fps - (n % 13 : ℕ) - 1 ≤ 0 ↔ n % 13 = 12 := by
  have bound : n % 13 < 13 := Nat.mod_lt n (by omega)
  constructor
  · intro out
    by_contra other
    have early : ((n % 13 : ℕ) : ℚ) ≤ 11 := by exact_mod_cast (by omega : n % 13 ≤ 11)
    have long : (12 : ℚ) < shipBlinkDur * fps := by norm_num [shipBlinkDur,fps]
    linarith
  · intro last
    rw [last]
    norm_num [shipBlinkDur,fps]

theorem blink_shielded {n : ℕ} {s : Ship} (early : n < 180) (shields : s.invulnerable = true)
    (left : s.invDuration = 3 - (n + 1 : ℕ) / 60) (blinkTime : s.blinkTime = shipBlinkDur * fps - (n % 13 : ℕ))
    (blinkNum : s.blinkNum = (14 - n / 13 : ℕ)) : Shielded (n + 1) (s.blink (.exact cos sin)) := by
  have visible : decide (s.blinkNum % 2 ≠ 0) = decide (Bright (n + 1)) := by
    apply decide_eq_decide.mpr
    rw [blinkNum]
    unfold Bright
    rw [Nat.add_sub_cancel]
    omega
  have more : s.blinkNum > 0 := by omega
  unfold Ship.blink
  simp only [show ∀ x, (Arith.exact cos sin).fl x = x from fun _ => rfl]
  rw [if_pos more,blinkTime]
  by_cases last : n % 13 = 12
  · -- the next blink starts
    rw [if_pos ((blink_ends n).mpr last)]
    have start : (n + 1) % 13 = 0 := by omega
    have next : (n + 1) / 13 = n / 13 + 1 := by omega
    refine ⟨shields,left,?_,?_,visible⟩
    · rw [start]
      norm_num
    · show s.blinkNum - 1 = _
      rw [blinkNum,next]
      omega
  · rw [if_neg (mt (blink_ends n).mp last)]
    have later : (n + 1) % 13 = n % 13 + 1 := by omega
    have same : (n + 1) / 13 = n / 13 := by omega
    refine ⟨shields,left,?_,?_,visible⟩
    · rw [later]
      push_cast
      ring
    · rw [same]
      exact blinkNum

theorem shield_lit {s : Ship} (lit : Lit s) (shields : s.invulnerable = true) : Lit (shield (.exact cos sin) s) := by
  cases lit with
  | exposed vulnerable _ => exact absurd (vulnerable.symm.trans shields) (by simp)
  | shielded n early shielded =>
    obtain ⟨_,left,blinkTime,blinkNum,visible⟩ := shielded
    have less : s.invDuration - 1 / 60 = 3 - (n + 1 : ℕ) / 60 := by
      rw [left]
      push_cast
      ring
    unfold shield
    simp only [show ∀ x, (Arith.exact cos sin).fl x = x from fun _ => rfl,fps]
    rcases Nat.lt_or_eq_of_le early with before | done
    · have lasts : ¬ s.invDuration - 1 / 60 < 0 := by
        have most : ((n + 1 : ℕ) : ℚ) ≤ 180 := by exact_mod_cast before
        rw [less]
        linarith
      rw [if_neg lasts]
      exact .shielded (n + 1) before (blink_shielded cos sin before shields less blinkTime blinkNum)
    · -- the 14th blink is a bright one
      subst done
      have ends : s.invDuration - 1 / 60 < 0 := by
        rw [less]
        norm_num
      rw [if_pos ends]
      exact .exposed rfl visible

theorem lit_seaworthy : Seaworthy (.exact cos sin) (fun _ _ => True) Lit where
  made := fun cw ch _ => fresh_lit rfl rfl rfl rfl rfl
  trimmed := by
    intro s s' same lit
    have seen : glow (trim s') = glow (trim s) := congrArg glow same
    exact lit.same seen
  resized := fun s w h _ lit => lit.same rfl
  stopped := fun s lit => lit.same rfl
  reborn := by
    intro s _ left
    unfold Ship.newLife
    rw [if_pos left]
    exact fresh_lit rfl rfl rfl rfl rfl
  moved := by
    intro s lit _ _
    obtain ⟨_,_,_,_,_,steered⟩ := s.moveShip_steered (.exact cos sin) field
    rw [steered]
    exact lit.same rfl
  shielded := fun s lit shields => shield_lit cos sin lit shields

theorem vulnerable_visible (rand : Rand) (history : List Event) :
    Runs.Always (World.step (.exact cos sin)) (fun w => ∀ address < w.game.allocated,
        (w.game.memory address).ship.invulnerable = false → (w.game.memory address).ship.visible = true)
      (World.make (.exact cos sin) rand) history := by
  have lasting := (lit_seaworthy cos sin).lasting
  apply (served_always lasting rand history).imp
  intro w served address made vulnerable
  cases served.players address made with
  | shielded n _ shielded => exact absurd (shielded.shields.symm.trans vulnerable) (by simp)
  | exposed _ visible => exact visible

end Exact
end Geoff.Blinking
