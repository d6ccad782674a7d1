import Geoff.Arrivals
import Geoff.Runs
import Mathlib.Analysis.Real.Sqrt

-- What the page remembers of the player being in a base, against where the player is.
namespace Geoff.GameScript.InBase
open Page Arrivals

noncomputable def distanceFrom (p otherLocation : Location) : ℝ :=
  √((p.xPos - otherLocation.xPos : ℝ) ^ 2 + (p.yPos - otherLocation.yPos : ℝ) ^ 2)

theorem nearer_distance (p otherLocation : Location) (limit : ℚ) :
    p.nearer otherLocation limit = true ↔ distanceFrom p otherLocation < limit := by
  unfold Location.nearer distanceFrom
  rw [decide_eq_true_iff]
  rcases lt_or_ge 0 limit with positive | negative
  · have reach : (0 : ℝ) < limit := by exact_mod_cast positive
    rw [Real.sqrt_lt' reach,and_iff_right positive]
    exact_mod_cast Iff.rfl
  · have short : (limit : ℝ) ≤ 0 := by exact_mod_cast negative
    exact iff_of_false (fun near => absurd near.1 (not_lt.mpr negative))
      (not_lt.mpr (short.trans (Real.sqrt_nonneg _)))

structure Truthful (g : Page) : Prop where
  bases : ∀ b ∈ g.bases, b.occupied = true ↔ distanceFrom b.position g.player.position < b.radius
  player : g.player.isInBase = true ↔ ∃ b ∈ g.bases, distanceFrom b.position g.player.position < b.radius

-- The flag a base has when the beings move: a base that runs out in this tick makes all
-- of them be set again, with the player where it was.
def mark (g : Page) (b : Base) : Bool :=
  if g.bases.any (fun b => decide (b.arcspan ≤ 0.005)) then b.position.nearer g.player.position b.radius else b.occupied

-- The player moves on by at least one step, and all flags are set. Or it is close to its
-- destination, which it gets to by the snap alone: then the flags have to be those of the
-- destination already.
def Attended (g : Page) : Prop :=
  ¬ Close g.player.toBeing ∨
    ∀ b ∈ g.bases, 0.005 < b.arcspan → mark g b = b.position.nearer g.player.destination b.radius

structure Cached (g : Page) : Prop where
  goes : 0 < g.player.movementSpeed
  inBase : g.player.isInBase = g.bases.any Base.occupied

theorem truthful_iff {g : Page} (inBase : g.player.isInBase = g.bases.any Base.occupied) :
    Truthful g ↔ ∀ b ∈ g.bases, b.occupied = b.position.nearer g.player.position b.radius := by
  constructor
  · intro truthful b member
    rw [Bool.eq_iff_iff,nearer_distance]
    exact truthful.bases b member
  · intro same
    have flags : ∀ b ∈ g.bases, b.occupied = true ↔ distanceFrom b.position g.player.position < b.radius := by
      intro b member
      rw [same b member]
      exact nearer_distance ..
    refine ⟨flags,?_⟩
    rw [inBase,List.any_eq_true]
    constructor
    · rintro ⟨b,member,occupied⟩
      exact ⟨b,member,(flags b member).mp occupied⟩
    · rintro ⟨b,member,near⟩
      exact ⟨b,member,(flags b member).mpr near⟩

def scene (g : Page) : List Base × Human := (g.bases,g.player)

theorem truthful_scene {g g' : Page} (same : scene g' = scene g) : Truthful g' ↔ Truthful g := by
  obtain ⟨bases,player⟩ := Prod.mk.inj same
  constructor
  · rintro ⟨flags,inBase⟩
    rw [bases,player] at flags inBase
    exact ⟨flags,inBase⟩
  · rintro ⟨flags,inBase⟩
    rw [← bases,← player] at flags inBase
    exact ⟨flags,inBase⟩

theorem cached_scene {g g' : Page} (cached : Cached g) (same : scene g' = scene g) : Cached g' := by
  obtain ⟨bases,player⟩ := Prod.mk.inj same
  obtain ⟨goes,inBase⟩ := cached
  rw [← bases,← player] at inBase
  rw [← player] at goes
  exact ⟨goes,inBase⟩

theorem draw_scene (g : Page) : scene g.draw = scene g := by
  unfold draw
  dsimp only
  split
  · rfl
  · rfl

theorem stopZombies_scene (g : Page) : scene g.stopZombies = scene g := by
  unfold stopZombies
  split
  · rfl
  · rfl

theorem occupied_scene {g g' : Page} (same : scene g' = scene g) :
    scene g'.updateBasesOccupiedState = scene g.updateBasesOccupiedState := by
  obtain ⟨bases,player⟩ := Prod.mk.inj same
  unfold scene updateBasesOccupiedState
  rw [bases,player]

theorem occupied_truthful (g : Page) : Truthful g.updateBasesOccupiedState := by
  apply (truthful_iff rfl).mpr
  intro b member
  obtain ⟨old,_,rfl⟩ := List.mem_map.mp member
  rfl

theorem decay_out (b : Base) : b.decay.1.arcspan ≤ 0 ↔ b.arcspan ≤ 0.005 := by
  unfold Base.decay
  dsimp only
  split
  · rename_i out
    exact iff_of_true (le_refl 0) (by linarith)
  · exact sub_nonpos

theorem decayBases_exact (bases : List Base) : decayBases bases =
    ((bases.filter fun b => decide (0.005 < b.arcspan)).map fun b => b.decay.1,
      bases.any fun b => decide (b.arcspan ≤ 0.005)) := by
  induction bases with
  | nil => rfl
  | cons b rest ih =>
    have first : decayBases (b :: rest) = if b.decay.1.arcspan ≤ 0 then ((decayBases rest).1,true) else
        (b.decay.1 :: (decayBases rest).1,(decayBases rest).2) := rfl
    rw [first,ih]
    by_cases out : b.arcspan ≤ 0.005
    · rw [if_pos ((decay_out b).mpr out),List.filter_cons_of_neg (by simpa using out),List.any_cons,decide_eq_true out,
        Bool.true_or]
    · rw [if_neg (mt (decay_out b).mp out),List.filter_cons_of_pos (by simpa using out),List.any_cons,decide_eq_false out,
        Bool.false_or,List.map_cons]

def decayed (g : Page) (b : Base) : Base := {b.decay.1 with occupied := mark g b}

theorem decay_bases (g : Page) :
    g.updateBasesDecay.bases = (g.bases.filter fun b => decide (0.005 < b.arcspan)).map (decayed g) := by
  unfold updateBasesDecay
  rw [decayBases_exact]
  cases removed : g.bases.any fun b => decide (b.arcspan ≤ 0.005) with
  | true =>
    have marks : decayed g = fun b => b.decay.1.updateOccupiedState g.player := by
      funext b
      rw [decayed,mark,removed,if_pos rfl]
      rfl
    rw [marks]
    exact List.map_map
  | false =>
    have marks : decayed g = fun b => b.decay.1 := by
      funext b
      rw [decayed,mark,removed,if_neg Bool.false_ne_true]
      rfl
    rw [marks]
    rfl

theorem decay_being (g : Page) : g.updateBasesDecay.player.toBeing = g.player.toBeing := by
  unfold updateBasesDecay
  dsimp only
  split
  · rfl
  · rfl

theorem decay_inBase {g : Page} (inBase : g.player.isInBase = g.bases.any Base.occupied) :
    g.updateBasesDecay.player.isInBase = g.updateBasesDecay.bases.any Base.occupied := by
  unfold updateBasesDecay
  rw [decayBases_exact]
  cases removed : g.bases.any fun b => decide (b.arcspan ≤ 0.005) with
  | true => rfl
  | false =>
    have left : (g.bases.filter fun b => decide (0.005 < b.arcspan)) = g.bases := by
      apply List.filter_eq_self.mpr
      intro b member
      have lasts := List.any_eq_false.mp removed b member
      simpa using lasts
    show g.player.isInBase = List.any (List.map _ _) _
    rw [left,List.any_map,inBase]
    rfl

def advanced (g : Page) : Page := {g with player := {g.player with toBeing := g.player.toBeing.updateMovement}}

theorem movement_scene (g : Page) : scene g.timedMovementUpdate =
    scene (if (advanced g.updateBasesDecay).player.isMoving then (advanced g.updateBasesDecay).updateBasesOccupiedState
      else advanced g.updateBasesDecay) := by
  obtain ⟨bases,player⟩ := Prod.mk.inj (stopZombies_scene g.updateBasesDecay)
  have moving : (advanced g.updateBasesDecay).player.isMoving = g.updateBasesDecay.player.toBeing.updateMovement.isMoving := rfl
  unfold timedMovementUpdate
  dsimp only
  rw [draw_scene,player,moving]
  cases g.updateBasesDecay.player.toBeing.updateMovement.isMoving with
  | true =>
    rw [Bool.or_true,Bool.true_and,if_pos rfl,if_pos rfl]
    apply occupied_scene
    exact Prod.ext bases rfl
  | false =>
    rw [Bool.and_false,if_neg Bool.false_ne_true,if_neg Bool.false_ne_true]
    exact Prod.ext bases rfl

theorem arrived_truthful_iff {g : Page} (cached : Cached g) (close : Close g.player.toBeing) :
    Truthful (advanced g.updateBasesDecay) ↔
      ∀ b ∈ g.bases, 0.005 < b.arcspan → mark g b = b.position.nearer g.player.destination b.radius := by
  have place : (advanced g.updateBasesDecay).player.position = g.player.destination := by
    show g.updateBasesDecay.player.toBeing.updateMovement.position = _
    rw [decay_being g]
    exact close_arrives close
  have bases : (advanced g.updateBasesDecay).bases =
      (g.bases.filter fun b => decide (0.005 < b.arcspan)).map (decayed g) := decay_bases g
  have inBase : (advanced g.updateBasesDecay).player.isInBase = (advanced g.updateBasesDecay).bases.any Base.occupied :=
    decay_inBase cached.inBase
  rw [truthful_iff inBase,bases,place]
  constructor
  · intro same b member lasts
    have left : b ∈ g.bases.filter fun b => decide (0.005 < b.arcspan) := List.mem_filter.mpr ⟨member,decide_eq_true lasts⟩
    exact same (decayed g b) (List.mem_map_of_mem left)
  · intro marks b member
    obtain ⟨old,left,rfl⟩ := List.mem_map.mp member
    obtain ⟨known,lasts⟩ := List.mem_filter.mp left
    exact marks old known (of_decide_eq_true lasts)

theorem movement_truthful_iff {g : Page} (cached : Cached g) : Truthful g.timedMovementUpdate ↔ Attended g := by
  have being : g.updateBasesDecay.player.toBeing = g.player.toBeing := decay_being g
  have moving := update_moving cached.goes
  rw [truthful_scene (movement_scene g)]
  have moves : (advanced g.updateBasesDecay).player.isMoving = g.player.toBeing.updateMovement.isMoving := by
    rw [← being]
    rfl
  rw [moves]
  unfold Attended
  by_cases close : Close g.player.toBeing
  · rw [moving.mpr close,if_neg Bool.false_ne_true]
    rw [arrived_truthful_iff cached close,or_iff_right (not_not.mpr close)]
  · rw [eq_true_of_ne_false (mt moving.mp close),if_pos rfl]
    exact iff_of_true (occupied_truthful _) (.inl close)

theorem advanced_cached {g : Page} (cached : Cached g) : Cached (advanced g.updateBasesDecay) := by
  refine ⟨?_,decay_inBase cached.inBase⟩
  show 0 < g.updateBasesDecay.player.toBeing.updateMovement.movementSpeed
  rw [update_speed,decay_being g]
  exact cached.goes

theorem movement_cached {g : Page} (cached : Cached g) : Cached g.timedMovementUpdate := by
  have advanced := advanced_cached cached
  refine cached_scene ?_ (movement_scene g)
  split
  · exact ⟨advanced.goes,rfl⟩
  · exact advanced

theorem create_scene (g : Page) (d : Draws) :
    (g.timedZombieDestinationAndCreateBaseUpdate d).player = g.player ∧
      ∃ new, (g.timedZombieDestinationAndCreateBaseUpdate d).bases = g.bases ++ new ∧ ∀ b ∈ new, b.occupied = false := by
  have none_new : ∀ b ∈ ([] : List Base), b.occupied = false := fun _ member => absurd member List.not_mem_nil
  unfold timedZombieDestinationAndCreateBaseUpdate
  dsimp only
  split
  · split
    · refine ⟨rfl,_,rfl,fun b member => ?_⟩
      rw [List.mem_singleton.mp member]
      rfl
    · exact ⟨rfl,[],(List.append_nil _).symm,none_new⟩
  · exact ⟨rfl,[],(List.append_nil _).symm,none_new⟩

theorem create_cached {g : Page} (cached : Cached g) (d : Draws) : Cached (g.timedZombieDestinationAndCreateBaseUpdate d) := by
  obtain ⟨player,new,bases,free⟩ := create_scene g d
  have quiet : new.any Base.occupied = false := List.any_eq_false.mpr fun b member => by simp [free b member]
  refine ⟨?_,?_⟩
  · rw [player]
    exact cached.goes
  · rw [player,bases,List.any_append,quiet,Bool.or_false]
    exact cached.inBase

theorem step_cached {g t : Page} {event : PageEvent} (cached : Cached g) (ran : g.step event = .ok t) : Cached t := by
  cases event with
  | click clientX clientY =>
    cases ran
    exact ⟨cached.goes,cached.inBase⟩
  | resize width height =>
    cases ran
    refine cached_scene ?_ (draw_scene _)
    exact ⟨cached.goes,cached.inBase⟩
  | movement =>
    cases ran
    exact movement_cached cached
  | zombieDestinationAndCreateBase draws =>
    cases ran
    exact create_cached cached draws

theorem init_cached (width height : ℕ) (draws : Draws) : Cached (init width height draws) := by
  have speed : ∀ p : Location, 0 < (Human.make p.xPos p.yPos).movementSpeed := by
    intro p
    show (0 : ℚ) < 3
    norm_num
  have set : ∀ g : Page, 0 < g.player.movementSpeed → ∀ x y, Cached (g.updateBasesOccupiedState.viewToCenter x y).draw := by
    intro g goes x y
    have cached : Cached g.updateBasesOccupiedState := ⟨goes,rfl⟩
    exact cached_scene cached (draw_scene _)
  unfold init
  apply set
  exact speed _

-- In a run the flags are true after every movement of the timer exactly when every one of
-- them is attended.
theorem in_base_truthful_iff (width height : ℕ) (draws : Draws) (history : List PageEvent) :
    Runs.Steps Page.step (fun g event => event = .movement → Truthful g.timedMovementUpdate) (init width height draws) history ↔
      Runs.Steps Page.step (fun g event => event = .movement → Attended g) (init width height draws) history := by
  have start := init_cached width height draws
  generalize init width height draws = first at start
  have all : Runs.Steps Page.step (fun _ _ => True) first history := Runs.steps_all (fun _ _ => trivial) first history
  refine Runs.steps_iff_among (fun _ _ _ cached _ ran => step_cached cached ran) (fun g event t cached _ _ => ?_) start all
  exact imp_congr_right fun _ => movement_truthful_iff cached

-- A base that appears where the player stands: the flags stay as they were.
def createdPage : Page :=
  (init 1000 800 fun _ => 0.7).timedZombieDestinationAndCreateBaseUpdate fun _ => 0.7

theorem created_unattended : ¬ Attended createdPage := by
  unfold Attended
  intro attended
  rcases attended with far | marks
  · apply far
    unfold Close
    decide +kernel
  · revert marks
    decide +kernel

theorem created_base_unnoticed : ¬ Runs.Steps Page.step (fun g event => event = .movement → Truthful g.timedMovementUpdate)
    (init 1000 800 fun _ => 0.7) [.zombieDestinationAndCreateBase fun _ => 0.7,.movement] := by
  rintro ⟨_,truthful,_⟩
  have cached : Cached createdPage := create_cached (init_cached 1000 800 _) _
  exact created_unattended ((movement_truthful_iff cached).mp (truthful rfl))

end Geoff.GameScript.InBase
