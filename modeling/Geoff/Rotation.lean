import Geoff.Clipping
import Geoff.ShipBounds
import Mathlib.Data.List.Count

-- The angle of a ship that turns for some ticks: a walk around a full turn `M`, cut at
-- the direction of the angle 0, in steps of one tick each.
namespace Geoff.Rotation
open Consts Collision ShipBounds Clipping AddCommGroup

structure Turn where
  left : Bool
  right : Bool
deriving DecidableEq

def Turn.step (step : ℚ) (keys : Turn) : ℚ := (if keys.left then step else 0) - if keys.right then step else 0

def turned (M step : ℚ) (keys : List Turn) (angle : ℚ) : ℚ := walk M (keys.map (Turn.step step)) angle

-- No tick takes the angle past the cut.
def Unclipped (M step : ℚ) (keys : List Turn) (angle : ℚ) : Prop := Stays M (keys.map (Turn.step step)) angle

def net (keys : List Turn) : ℤ := keys.countP Turn.left - keys.countP Turn.right

variable (A : Arith) (u : Size)

def steer (s : Ship) (keys : Turn) : Ship := ({s with left := keys.left, right := keys.right} : Ship).moveShip A u

def steers (s : Ship) (keys : List Turn) : Ship := keys.foldl (steer A u) s

variable {u}

theorem net_cons (first : Turn) (rest : List Turn) :
    net (first :: rest) = (if first.left then 1 else 0) - (if first.right then 1 else 0) + net rest := by
  unfold net
  rw [List.countP_cons,List.countP_cons]
  push_cast
  ring

theorem net_append (first rest : List Turn) : net (first ++ rest) = net first + net rest := by
  unfold net
  rw [List.countP_append,List.countP_append]
  push_cast
  ring

theorem steps_sum (step : ℚ) (keys : List Turn) : (keys.map (Turn.step step)).sum = step * net keys := by
  induction keys with
  | nil => simp [net]
  | cons first rest ih =>
    have here : Turn.step step first = step * ((if first.left then 1 else 0) - if first.right then 1 else 0) := by
      unfold Turn.step
      split <;> split <;> simp
    rw [List.map_cons,List.sum_cons,ih,here,net_cons]
    push_cast
    ring

def turnAndBack (k : ℕ) : List Turn := List.replicate k ⟨true,false⟩ ++ List.replicate k ⟨false,true⟩

theorem net_back (k : ℕ) : net (turnAndBack k) = 0 := by
  rw [turnAndBack,net_append]
  simp [net,List.countP_replicate]

section Exact
variable (cos sin : ℚ → ℚ)

theorem moveShip_clips {s : Ship} (quiet : s.exploding = false) (alive : s.dead = false) :
    (s.moveShip (.exact cos sin) u).angle =
      clip (mPi * 2) (s.angle + Turn.step (shipRadsPerTick (.exact cos sin)) ⟨s.left,s.right⟩) := by
  have rotation : (s.rotate (.exact cos sin)).rotation = Turn.step (shipRadsPerTick (.exact cos sin)) ⟨s.left,s.right⟩ := by
    simp only [Ship.rotate,Turn.step,show ∀ x, (Arith.exact cos sin).fl x = x from fun _ => rfl,zero_add]
  have angle : (s.rotate (.exact cos sin)).angle = s.angle := rfl
  rw [moveShip_angle quiet alive]
  simp only [Ship.wrapAngle,clip,rotation,angle,show ∀ x, (Arith.exact cos sin).fl x = x from fun _ => rfl]

theorem steer_angle {s : Ship} (quiet : s.exploding = false) (alive : s.dead = false) (keys : Turn) :
    (steer (.exact cos sin) u s keys).angle =
      clip (mPi * 2) (s.angle + keys.step (shipRadsPerTick (.exact cos sin))) :=
  moveShip_clips cos sin (s := {s with left := keys.left, right := keys.right}) quiet alive

theorem steers_angle {s : Ship} (quiet : s.exploding = false) (alive : s.dead = false) (keys : List Turn) :
    (steers (.exact cos sin) u s keys).angle =
      turned (mPi * 2) (shipRadsPerTick (.exact cos sin)) keys s.angle := by
  induction keys generalizing s with
  | nil => rfl
  | cons first rest ih =>
    have steered := ({s with left := first.left, right := first.right} : Ship).moveShip_steered (.exact cos sin) u
    obtain ⟨context,place,velocity,angle,rotation,same⟩ := steered
    have still : (steer (.exact cos sin) u s first).exploding = false ∧ (steer (.exact cos sin) u s first).dead = false := by
      unfold steer
      rw [same]
      exact ⟨quiet,alive⟩
    have later := ih still.1 still.2
    rw [steer_angle cos sin quiet alive] at later
    exact later

end Exact

variable {M step angle : ℚ}

theorem turned_modEq {keys : List Turn} (unclipped : Unclipped M step keys angle) :
    turned M step keys angle ≡ angle + step * net keys [PMOD M] := by
  rw [← steps_sum]
  exact walk_modEq unclipped

theorem turned_restarts {before after : List Turn} {keys : Turn} (passes : Passes M (turned M step before angle + keys.step step))
    (unclipped : Unclipped M step after (turned M step (before ++ [keys]) angle)) :
    turned M step (before ++ keys :: after) angle ≡ step * net after [PMOD M] := by
  unfold turned Unclipped at unclipped
  unfold turned
  rw [← steps_sum,List.map_append,List.map_cons]
  rw [List.map_append] at unclipped
  exact walk_restarts passes unclipped

theorem step_short (positive : 0 < step) (keys : Turn) : -step ≤ keys.step step ∧ keys.step step ≤ step := by
  unfold Turn.step
  split <;> split <;> constructor <;> linarith

theorem turned_once (positive : 0 < step) (small : step < M) (low : 0 ≤ angle) (high : angle ≤ M) (keys : Turn) :
    turned M step [keys] angle ≡ angle + keys.step step [PMOD M] ↔ ¬ Passes M (angle + keys.step step) := by
  obtain ⟨back,forth⟩ := step_short positive keys
  apply clip_modEq_iff
  · linarith
  · linarith
  · linarith

-- The angle of a ship is congruent to its turns as long as no tick takes it past the cut.
-- A tick that does so loses the rest of its turn, and the turns count from the cut.
theorem rotation_clipped (cos sin : ℚ → ℚ) (u : Size) :
    (∀ (s : Ship) (keys : List Turn), s.exploding = false → s.dead = false →
      (steers (.exact cos sin) u s keys).angle = turned (mPi * 2) (shipRadsPerTick (.exact cos sin)) keys s.angle) ∧
      ∀ M step angle : ℚ,
        (∀ keys, Unclipped M step keys angle → turned M step keys angle ≡ angle + step * net keys [PMOD M]) ∧
          (∀ k, Unclipped M step (turnAndBack k) angle → turned M step (turnAndBack k) angle ≡ angle [PMOD M]) ∧
          (∀ before keys after, Passes M (turned M step before angle + keys.step step) →
            Unclipped M step after (turned M step (before ++ [keys]) angle) →
              turned M step (before ++ keys :: after) angle ≡ step * net after [PMOD M]) ∧
          (0 < step → step < M → 0 ≤ angle → angle ≤ M → ∀ keys : Turn,
            (turned M step [keys] angle ≡ angle + keys.step step [PMOD M] ↔ ¬ Passes M (angle + keys.step step))) := by
  refine ⟨fun s keys quiet alive => steers_angle cos sin quiet alive keys,fun M step angle => ⟨?_,?_,?_,?_⟩⟩
  · exact fun keys => turned_modEq
  · intro k unclipped
    have back := turned_modEq unclipped
    rw [net_back,Int.cast_zero,mul_zero,add_zero] at back
    exact back
  · exact fun before keys after => turned_restarts
  · exact fun positive small low high keys => turned_once positive small low high keys

def eastward : Ship := Ship.make .upright ShipBounds.field 800 600 4096 4096 (157 / 25)

theorem tick_forgets_turn :
    eastward.exploding = false ∧ eastward.dead = false ∧ 0 ≤ eastward.angle ∧ eastward.angle < mPi * 2 ∧
      0 < shipRadsPerTick .upright ∧ shipRadsPerTick .upright < mPi * 2 ∧
        ¬ (steers .upright ShipBounds.field eastward [⟨true,false⟩]).angle ≡
          eastward.angle + shipRadsPerTick .upright * net [⟨true,false⟩] [PMOD mPi * 2] := by
  have angle : eastward.angle = 157 / 25 := rfl
  have step : shipRadsPerTick .upright = 6283 / 60000 := by
    norm_num [shipRadsPerTick,shipTurnSpeed,fps,Arith.upright,Arith.exact]
  have turns : (steers .upright ShipBounds.field eastward [⟨true,false⟩]).angle = clip (mPi * 2) (157 / 25 + 6283 / 60000) := by
    rw [show Arith.upright = .exact (fun _ => 0) (fun _ => 1) from rfl,steers_angle _ _ rfl rfl,angle]
    change shipRadsPerTick (.exact (fun _ => 0) (fun _ => 1)) = _ at step
    rw [step]
    show clip (mPi * 2) (157 / 25 + (6283 / 60000 - 0)) = _
    rw [sub_zero]
  have one : net [⟨true,false⟩] = 1 := rfl
  rw [turns,angle,step,one,Int.cast_one,mul_one]
  refine ⟨rfl,rfl,by norm_num,by norm_num [mPi],by norm_num,by norm_num [mPi],?_⟩
  rw [clip_modEq_iff (by norm_num [mPi]) (by norm_num [mPi]) (by norm_num [mPi]),not_not]
  apply Or.inl
  norm_num [mPi]

end Geoff.Rotation
