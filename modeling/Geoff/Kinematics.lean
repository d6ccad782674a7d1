import Geoff.OnScreen

-- What MoveShip keeps of the velocity and the angle of a ship, and where it leaves the
-- ship, for windows of any size and any values of cos and sin.
namespace Geoff.Kinematics
open Consts Collision PlayerEvents ShipBounds Viewport ShipRuns OnScreen

structure Cruises (s : Ship) : Prop where
  across : |s.deltaX| ≤ shipMaxDeltaV
  down : |s.deltaY| ≤ shipMaxDeltaV
  turned : 0 ≤ s.angle ∧ s.angle ≤ mPi * 2

def Inland (u : Size) (s : Ship) : Prop :=
  (s.radius ≤ s.posX ∧ s.posX ≤ u.sizeW - s.radius) ∧ s.radius ≤ s.posY ∧ s.posY ≤ u.sizeH - s.radius

structure Sound (s : Ship) : Prop where
  rigged : Rigged s
  cruises : Cruises s

def helm (s : Ship) : Rig × Velocity × ℚ := (rig s,s.toVelocity,s.angle)

theorem Sound.same {s s' : Ship} (sound : Sound s) (same : helm s' = helm s) : Sound s' := by
  simp only [helm,Prod.mk.injEq] at same
  obtain ⟨rigs,velocity,angle⟩ := same
  obtain ⟨rigged,across,down,turned⟩ := sound
  refine ⟨rigs.trans rigged,?_,?_,?_⟩
  · rw [velocity]
    exact across
  · rw [velocity]
    exact down
  · rw [angle]
    exact turned

theorem still_slow : |(0 : ℚ)| ≤ shipMaxDeltaV := by
  rw [abs_zero]
  norm_num [shipMaxDeltaV]

theorem Sound.stopped {s : Ship} (sound : Sound s) : Sound s.explode :=
  ⟨sound.rigged,still_slow,still_slow,sound.cruises.turned⟩

section Exact
variable (cos sin : ℚ → ℚ)

theorem upwards : 0 ≤ 90 * degreesToRads (.exact cos sin) ∧ 90 * degreesToRads (.exact cos sin) ≤ mPi * 2 := by
  show 0 ≤ 90 * (mPi / 180) ∧ 90 * (mPi / 180) ≤ mPi * 2
  norm_num [mPi]

theorem moved_walls (pos delta : ℚ) : 10 ≤ (moved cos sin pos delta).1 ∧ (moved cos sin pos delta).1 ≤ 8182 := by
  rcases moved_cases cos sin pos delta with ⟨_,same⟩ | ⟨_,same⟩ | ⟨⟨low,high⟩,same⟩
  · rw [same]
    norm_num
  · rw [same]
    norm_num
  · rw [same]
    exact ⟨low,high.le⟩

theorem moved_slow (pos : ℚ) {delta : ℚ} (slow : -20 ≤ delta ∧ delta ≤ 20) : |(moved cos sin pos delta).2| ≤ shipMaxDeltaV := by
  rcases moved_cases cos sin pos delta with ⟨_,same⟩ | ⟨_,same⟩ | ⟨_,same⟩
  · rw [same]
    exact still_slow
  · rw [same]
    exact still_slow
  · rw [same]
    exact abs_le.mpr slow

theorem moveShip_sound {s : Ship} (sound : Sound s) (quiet : s.exploding = false) (alive : s.dead = false) :
    Sound (s.moveShip (.exact cos sin) field) := by
  obtain ⟨rigged,across,down,_⟩ := sound
  obtain ⟨_,_,velocity⟩ := moveShip_moved cos sin rigged quiet alive
  refine ⟨(steered_rig (s.moveShip_steered _ field)).trans rigged,?_,?_,?_⟩
  · rw [velocity]
    apply moved_slow
    exact driven_slow _ _ (abs_le.mp across)
  · rw [velocity]
    apply moved_slow
    exact driven_slow _ _ (abs_le.mp down)
  · rw [moveShip_angle quiet alive]
    apply wrapAngle_clipped
    show 0 ≤ mPi * 2
    norm_num [mPi]

-- The walls are enforced wherever the ship comes from.
theorem moveShip_inland {s : Ship} (rigged : Rigged s) (quiet : s.exploding = false) (alive : s.dead = false) :
    Inland field (s.moveShip (.exact cos sin) field) := by
  obtain ⟨_,place,_⟩ := moveShip_moved cos sin rigged quiet alive
  have hull : (s.moveShip (.exact cos sin) field).radius = 10 :=
    (congrArg Rig.radius (steered_rig (s.moveShip_steered _ field))).trans (congrArg Rig.radius rigged)
  obtain ⟨left,right⟩ := moved_walls cos sin s.posX (heading cos sin s).deltaX
  obtain ⟨top,bottom⟩ := moved_walls cos sin s.posY (heading cos sin s).deltaY
  unfold Inland
  rw [place,hull]
  have reach : field.sizeW = 8192 ∧ field.sizeH = 8192 := ⟨rfl,rfl⟩
  rw [reach.1,reach.2]
  exact ⟨⟨left,by linarith⟩,top,by linarith⟩

theorem sound_seaworthy : Seaworthy (.exact cos sin) (fun _ _ => True) Sound where
  made := by
    intro cw ch _
    refine ⟨?_,still_slow,still_slow,upwards cos sin⟩
    norm_num [Rigged,rig,Player.make,Ship.make,shipSize,shipMaxDeltaV,Consts.viewportMargin]
  trimmed := by
    intro s s' same sound
    have seen : helm (trim s') = helm (trim s) := congrArg helm same
    exact sound.same seen
  resized := fun s w h _ sound => sound.same rfl
  stopped := fun s sound => sound.stopped
  reborn := by
    intro s sound left
    unfold Ship.newLife
    rw [if_pos left]
    exact ⟨sound.rigged,still_slow,still_slow,upwards cos sin⟩
  moved := fun s sound quiet alive => moveShip_sound cos sin sound quiet alive
  shielded := by
    intro s sound _
    obtain ⟨_,_,_,_,_,shielded⟩ := shield_writes (A := .exact cos sin) s
    rw [shielded]
    exact sound.same rfl

theorem ships_cruise_inland (rand : Rand) (history : List Event) :
    Runs.Always (World.step (.exact cos sin)) (fun w =>
      (∀ address < w.game.allocated, Cruises (w.game.memory address).ship) ∧
        ∀ p, Moves (.exact cos sin) w .tick p →
          Inland w.game.gUniverse.toSize (p.ship.moveShip (.exact cos sin) w.game.gUniverse.toSize))
      (World.make (.exact cos sin) rand) history := by
  have lasting := (sound_seaworthy cos sin).lasting
  apply (served_always lasting rand history).imp
  intro w served
  constructor
  · intro address made
    exact (served.players address made).cruises
  · intro p moves
    have sound : Sound p.ship := moves_lasting lasting served (windows_any w .tick) moves
    obtain ⟨_,_,_,_,_,_,quiet,alive⟩ := moves
    rw [served.size]
    exact moveShip_inland cos sin sound.rigged quiet alive

end Exact
end Geoff.Kinematics
