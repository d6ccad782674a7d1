import Geoff.Beings

-- What a base is for: around a resting player that the page holds to be in it the zombies stop.
namespace Geoff.GameScript.Shelter
open Page Approach Arrivals InBase MapView Beings

-- The page knows the player in a base after the decay of the tick, and the player is where
-- it was sent to. The other handlers do not move anything.
def Sheltered (g : Page) : PageEvent → Prop
  | .movement => g.updateBasesDecay.player.isInBase = true ∧ g.player.position = g.player.destination
  | _ => True

def KeptOff (player : Location) (z z' : Being) : Prop := z'.position = z.position ∨ 97 ≤ distanceFrom player z'.position

variable {g s t : Page} {z z' : Being}

theorem keptOff_trans (player : Location) (a b c : Being) (first : KeptOff player a b) (second : KeptOff player b c) :
    KeptOff player a c := by
  rcases second with stays | off
  · rcases first with same | off
    · exact .inl (stays.trans same)
    · right
      rw [stays]
      exact off
  · exact .inr off

theorem all_trans {α : Type} {r : α → α → Prop} (trans : ∀ a b c, r a b → r b c → r a c) {first second third : List α}
    (one : List.Forall₂ r first second) (two : List.Forall₂ r second third) : List.Forall₂ r first third := by
  induction one generalizing third with
  | nil => exact two
  | cons head _ ih =>
    cases two with
    | cons head' tail' => exact .cons (trans _ _ _ head head') (ih tail')

-- One coordinate of a step costs no more than four times itself, and so the square of the
-- distance less than from 100 to 97.
theorem far_stays {x y a b : ℚ} (far : 100 ^ 2 ≤ x ^ 2 + y ^ 2) (across : |a| ≤ 2) (down : |b| ≤ 2) :
    97 ^ 2 ≤ (x + a) ^ 2 + (y + b) ^ 2 := by
  have cost : ∀ u c : ℚ, |c| ≤ 2 → (u - c) ^ 2 ≤ u ^ 2 + 4 * |u| + 4 := by
    intro u c short
    have product : -(u * c) ≤ |u| * 2 := by
      calc -(u * c) ≤ |u * c| := neg_le_abs _
        _ = |u| * |c| := abs_mul u c
        _ ≤ |u| * 2 := mul_le_mul_of_nonneg_left short (abs_nonneg u)
    have square : c ^ 2 ≤ 4 := by
      rw [← sq_abs]
      nlinarith [abs_nonneg c]
    nlinarith
  have bounded : ∀ u : ℚ, 138 * |u| ≤ u ^ 2 + 69 ^ 2 := by
    intro u
    nlinarith [sq_nonneg (|u| - 69),sq_abs u]
  have costX := cost (x + a) a across
  have costY := cost (y + b) b down
  rw [add_sub_cancel_right] at costX costY
  linarith [bounded (x + a),bounded (y + b)]

theorem nearer_less {player p : Location} {limit : ℚ} (positive : 0 < limit) :
    ¬ player.nearer p limit = true ↔ limit ^ 2 ≤ (p.xPos - player.xPos) ^ 2 + (p.yPos - player.yPos) ^ 2 := by
  unfold Location.nearer
  rw [decide_eq_true_iff,and_iff_right positive,not_lt,sub_sq_comm player.xPos,sub_sq_comm player.yPos]

theorem halted_keptOff (flag : g.player.isInBase = true) (zombie : Pictured 2 z) :
    KeptOff g.player.position z (halt g z).updateMovement := by
  have goes : (0 : ℚ) < 2 := by decide
  by_cases near : g.player.position.nearer z.position 100 = true
  · left
    have stopped : halt g z = z.setDestination z.position.xPos z.position.yPos := by
      rw [halt,flag,near]
      rfl
    rw [stopped]
    refine close_arrives (there_close ?_ rfl)
    show 0 < z.movementSpeed
    rw [zombie.speed]
    exact goes
  · right
    have same : halt g z = z := by
      rw [halt,flag,Bool.true_and,if_neg near]
    have stepX : |toward 2 z.destination.xPos z.position.xPos - z.position.xPos| ≤ 2 :=
      toward_step goes
    have stepY : |toward 2 z.destination.yPos z.position.yPos - z.position.yPos| ≤ 2 :=
      toward_step goes
    have off : ¬ g.player.position.nearer (halt g z).updateMovement.position 97 = true := by
      rw [same,nearer_less (by decide),update_position,ahead,zombie.speed]
      have moved := far_stays ((nearer_less (by decide)).mp near) stepX stepY
      convert moved using 3
      · ring
      · ring
    exact not_lt.mp fun close => off ((nearer_distance _ _ 97).mpr (by exact_mod_cast close))

theorem turn_keptOff {event : PageEvent} (sheltered : Sheltered g event) (zombie : Pictured 2 z) (turn : Turn g z event z') :
    KeptOff g.player.position z z' := by
  cases turn with
  | click => exact .inl rfl
  | resize => exact .inl rfl
  | moves =>
    have off := halted_keptOff sheltered.1 zombie
    rw [show g.updateBasesDecay.player.position = g.player.position from
      congrArg (fun b : Being => b.position) (decay_being g)] at off
    exact off
  | seeks => exact .inl rfl

theorem player_rests {event : PageEvent} (sheltered : Sheltered g event) (player : Pictured 3 g.player.toBeing)
    (ran : g.step event = .ok t) : t.player.position = g.player.position := by
  have same := congrArg (fun b : Being => b.position) (step_player ran)
  cases event with
  | click => exact same
  | resize => exact same
  | movement =>
    refine same.trans (Eq.trans (close_arrives (there_close ?_ sheltered.2)) sheltered.2.symm)
    rw [player.speed]
    decide
  | zombieDestinationAndCreateBase => exact same

theorem step_keptOff {event : PageEvent} (peopled : Peopled g) (sheltered : Sheltered g event) (ran : g.step event = .ok t) :
    List.Forall₂ (KeptOff g.player.position) g.zombies t.zombies := by
  have turns := step_turns ran
  have zombies := peopled.zombies
  generalize g.zombies = old at turns zombies
  generalize t.zombies = new at turns
  induction turns with
  | nil => exact .nil
  | cons turn _ ih =>
    obtain ⟨first,rest⟩ := List.forall_mem_cons.mp zombies
    exact .cons (turn_keptOff sheltered first turn) (ih rest)

theorem shelter_step (p : Location) (g : Page) (event : PageEvent) (t : Page)
    (kept : Peopled g ∧ g.player.position = p ∧ List.Forall₂ (KeptOff p) s.zombies g.zombies)
    (sheltered : Sheltered g event) (one : g.step event = .ok t) :
    Peopled t ∧ t.player.position = p ∧ List.Forall₂ (KeptOff p) s.zombies t.zombies := by
  obtain ⟨peopled,rests,off⟩ := kept
  have moved := step_keptOff peopled sheltered one
  rw [rests] at moved
  exact ⟨step_peopled peopled one,(player_rests sheltered peopled.player one).trans rests,
    all_trans (keptOff_trans _) off moved⟩

-- As long as the page holds its player to be in a base, and at its destination, a zombie
-- moves only outside of a circle of 97 around it: nothing gets to the player.
theorem base_shelters {width height : ℕ} {draws : Draws} {first rest : List PageEvent}
    (reached : Runs.run Page.step (init width height draws) first = .ok s)
    (sheltered : Runs.Steps Page.step Sheltered s rest) (ran : Runs.run Page.step s rest = .ok t) :
    t.player.position = s.player.position ∧ List.Forall₂ (KeptOff s.player.position) s.zombies t.zombies := by
  have peopled := Runs.run_invariant Peopled (fun _ _ _ => step_peopled) (init_peopled width height draws) reached
  have whole := Runs.run_among (shelter_step s.player.position) ⟨peopled,rfl,List.forall₂_same.mpr fun _ _ => .inl rfl⟩
    sheltered ran
  exact whole.2

def siege : Page := (init 1000 800 fun _ => 0.7).timedZombieDestinationAndCreateBaseUpdate fun _ => 0.7

theorem siege_sheltered : siege.timedMovementUpdate.player.position = siege.player.position ∧
    List.Forall₂ (KeptOff siege.player.position) siege.zombies siege.timedMovementUpdate.zombies := by
  have reached : Runs.run Page.step (init 1000 800 fun _ => 0.7) [.zombieDestinationAndCreateBase fun _ => 0.7] = .ok siege :=
    Runs.run_single ..
  have sheltered : Runs.Steps Page.step Sheltered siege [.movement] := by
    refine ⟨?_,trivial⟩
    unfold Sheltered
    decide +kernel
  exact base_shelters reached sheltered (Runs.run_single ..)

end Geoff.GameScript.Shelter
