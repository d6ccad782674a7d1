import Geoff.Beings

-- How long the bases of a page last.
namespace Geoff.GameScript.BaseLives
open Page InBase MapView Beings

def life (b : Base) : Location × ℚ := (b.position,b.arcspan)

-- All bases there have ever been, with the movements since they were made.
def births (g : Page) (event : PageEvent) (next : Page) (ages : List (Location × ℕ)) : List (Location × ℕ) :=
  match event with
  | .movement => ages.map fun x => (x.1,x.2 + 1)
  | .zombieDestinationAndCreateBase _ => ages ++ (next.bases.drop g.bases.length).map fun b => (b.position,0)
  | _ => ages

def newborn (g : Page) : List (Location × ℕ) := g.bases.map fun b => (b.position,0)

-- Whole decays before the arc is used up.
def lifetime : ℕ := 1256

def alive (x : Location × ℕ) : Bool := decide (x.2 ≤ lifetime)

def aged (x : Location × ℕ) : Location × ℚ := (x.1,2 * Consts.mPi - 0.005 * x.2)

def Lasting (s : Page × List (Location × ℕ)) : Prop := s.1.bases.map life = (s.2.filter alive).map aged

theorem lasts_on (k : ℕ) : (0.005 : ℚ) < 2 * Consts.mPi - 0.005 * k ↔ k + 1 ≤ lifetime := by
  have short : (0.005 : ℚ) * 1256 < 2 * Consts.mPi := by decide +kernel
  have long : 2 * Consts.mPi < (0.005 : ℚ) * 1257 := by decide +kernel
  constructor
  · intro lasts
    have few : ((k + 1 : ℕ) : ℚ) < (1257 : ℕ) := by
      push_cast
      linarith
    exact Nat.le_of_lt_succ (Nat.cast_lt.mp few)
  · intro young
    have few : ((k + 1 : ℕ) : ℚ) ≤ (lifetime : ℕ) := Nat.cast_le.mpr young
    unfold lifetime at few
    push_cast at few
    linarith

theorem decay_life {g : Page} {b : Base} (lasts : 0.005 < b.arcspan) :
    life (decayed g b) = (b.position,b.arcspan - 0.005) := by
  have left : ¬ b.arcspan - 0.005 < 0 := by linarith
  show (b.position,if b.arcspan - 0.005 < 0 then 0 else b.arcspan - 0.005) = _
  rw [if_neg left]

theorem occupied_lives (g : Page) : g.updateBasesOccupiedState.bases.map life = g.bases.map life := by
  unfold updateBasesOccupiedState
  rw [List.map_map]
  rfl

theorem movement_lives (g : Page) : g.timedMovementUpdate.bases.map life =
    ((g.bases.map life).filter fun x => decide (0.005 < x.2)).map fun x => (x.1,x.2 - 0.005) := by
  have bases := (Prod.mk.inj (movement_scene g)).1
  have same : g.timedMovementUpdate.bases.map life = g.updateBasesDecay.bases.map life := by
    rw [bases]
    split
    · exact occupied_lives _
    · rfl
  rw [same,decay_bases,List.map_map,List.filter_map,List.map_map]
  apply List.map_congr_left
  intro b member
  exact decay_life (of_decide_eq_true (List.mem_filter.mp member).2)

theorem movement_lasting {g : Page} {ages : List (Location × ℕ)} (lasting : Lasting (g,ages)) :
    Lasting (g.timedMovementUpdate,births g .movement g.timedMovementUpdate ages) := by
  have before : g.bases.map life = (ages.filter alive).map aged := lasting
  show g.timedMovementUpdate.bases.map life = ((ages.map fun x => (x.1,x.2 + 1)).filter alive).map aged
  rw [movement_lives,before,List.filter_map,List.map_map,List.filter_filter,List.filter_map,List.map_map]
  have same : ∀ x : Location × ℕ, (((fun x => decide (0.005 < x.2)) ∘ aged) x && alive x) = (alive ∘ fun x => (x.1,x.2 + 1)) x := by
    rintro ⟨p,k⟩
    show (decide (0.005 < 2 * Consts.mPi - 0.005 * (k : ℚ)) && decide (k ≤ lifetime)) = decide (k + 1 ≤ lifetime)
    rw [← Bool.decide_and]
    apply decide_eq_decide.mpr
    rw [lasts_on]
    omega
  rw [List.filter_congr fun x _ => same x]
  apply List.map_congr_left
  rintro ⟨p,k⟩ _
  refine Prod.ext rfl ?_
  show 2 * Consts.mPi - 0.005 * (k : ℚ) - 0.005 = 2 * Consts.mPi - 0.005 * ((k + 1 : ℕ) : ℚ)
  push_cast
  ring

theorem create_new (g : Page) (d : Draws) : ∃ new, (g.timedZombieDestinationAndCreateBaseUpdate d).bases = g.bases ++ new ∧
    new.map life = new.map (fun b => aged (b.position,0)) ∧ (new = [] ∨ g.bases.length < numberOfBases ∧ new.length = 1) := by
  unfold timedZombieDestinationAndCreateBaseUpdate
  dsimp only
  split
  · rename_i room
    split
    · refine ⟨_,rfl,?_,.inr ⟨room,rfl⟩⟩
      simp [life,aged,Base.make]
    · exact ⟨[],(List.append_nil _).symm,rfl,.inl rfl⟩
  · exact ⟨[],(List.append_nil _).symm,rfl,.inl rfl⟩

theorem newborn_alive (bases : List Base) : (bases.map fun b => (b.position,0)).filter alive = bases.map fun b => (b.position,0) := by
  apply List.filter_eq_self.mpr
  intro x member
  obtain ⟨b,_,rfl⟩ := List.mem_map.mp member
  exact decide_eq_true (Nat.zero_le _)

theorem create_lasting {g : Page} {ages : List (Location × ℕ)} (lasting : Lasting (g,ages)) (d : Draws) :
    Lasting (g.timedZombieDestinationAndCreateBaseUpdate d,births g (.zombieDestinationAndCreateBase d)
      (g.timedZombieDestinationAndCreateBaseUpdate d) ages) := by
  obtain ⟨new,bases,fresh,_⟩ := create_new g d
  have before : g.bases.map life = (ages.filter alive).map aged := lasting
  unfold Lasting births
  dsimp only
  rw [bases,List.drop_left,List.filter_append,newborn_alive,List.map_append,List.map_append,List.map_map,before,fresh]
  rfl

theorem draw_bases (g : Page) : g.draw.bases = g.bases := (Prod.mk.inj (draw_scene g)).1

theorem step_lasting {s t : Page × List (Location × ℕ)} {event : PageEvent} (lasting : Lasting s)
    (ran : Runs.annotate Page.step births s event = .ok t) : Lasting t := by
  obtain ⟨g,ages⟩ := s
  obtain ⟨next,later⟩ := t
  obtain ⟨one,noted⟩ := Runs.annotate_ok.mp ran
  dsimp only at one noted
  subst noted
  cases event with
  | click =>
    cases one
    exact lasting
  | resize width height =>
    cases one
    show Lasting (onResize g width height,ages)
    unfold Lasting onResize
    rw [draw_bases]
    exact lasting
  | movement =>
    cases one
    exact movement_lasting lasting
  | zombieDestinationAndCreateBase draws =>
    cases one
    exact create_lasting lasting draws

theorem step_few {g t : Page} {event : PageEvent} (few : g.bases.length ≤ numberOfBases) (ran : g.step event = .ok t) :
    t.bases.length ≤ numberOfBases := by
  cases event with
  | click =>
    cases ran
    exact few
  | resize width height =>
    cases ran
    rw [onResize,draw_bases]
    exact few
  | movement =>
    cases ran
    have lives := congrArg List.length (movement_lives g)
    rw [List.length_map,List.length_map] at lives
    rw [lives]
    refine le_trans (List.length_filter_le _ _) ?_
    rw [List.length_map]
    exact few
  | zombieDestinationAndCreateBase draws =>
    cases ran
    obtain ⟨new,bases,_,rfl | ⟨room,one⟩⟩ := create_new g draws
    · rw [bases,List.append_nil]
      exact few
    · rw [bases,List.length_append,one]
      exact room

theorem init_bases (width height : ℕ) (draws : Draws) :
    (init width height draws).bases.length = numberOfBases / 2 ∧ ∀ b ∈ (init width height draws).bases, b.arcspan = 2 * Consts.mPi := by
  have made : ∃ (sites : List Location) (player : Human), sites.length = numberOfBases / 2 ∧ (init width height draws).bases =
      (sites.map fun p => Base.make p.xPos p.yPos 50).map (Base.updateOccupiedState · player) := by
    unfold init
    dsimp only
    rw [draw_bases]
    exact ⟨_,_,places_length _ _,rfl⟩
  obtain ⟨sites,player,length,bases⟩ := made
  rw [bases]
  constructor
  · rw [List.length_map,List.length_map,length]
  · intro b member
    obtain ⟨old,inside,rfl⟩ := List.mem_map.mp member
    obtain ⟨p,_,rfl⟩ := List.mem_map.mp inside
    rfl

theorem newborn_lasting {g : Page} (whole : ∀ b ∈ g.bases, b.arcspan = 2 * Consts.mPi) : Lasting (g,newborn g) := by
  show g.bases.map life = ((g.bases.map fun b => (b.position,0)).filter alive).map aged
  rw [newborn_alive,List.map_map]
  apply List.map_congr_left
  intro b member
  refine Prod.ext rfl ?_
  show b.arcspan = 2 * Consts.mPi - 0.005 * ((0 : ℕ) : ℚ)
  rw [whole b member,Nat.cast_zero,mul_zero,sub_zero]

-- Every base ever made is on the map for the whole movements of its arc, to the tick, and
-- there are never more than the page allows.
theorem bases_last {width height : ℕ} {draws : Draws} {events : List PageEvent} {g : Page} {ages : List (Location × ℕ)}
    (ran : Runs.run (Runs.annotate Page.step births) (init width height draws,newborn (init width height draws)) events =
      .ok (g,ages)) :
    g.bases.map life = (ages.filter alive).map aged ∧ g.bases.length ≤ numberOfBases := by
  obtain ⟨length,whole⟩ := init_bases width height draws
  have few : (init width height draws).bases.length ≤ numberOfBases := by
    rw [length]
    decide
  exact Runs.run_invariant (fun s => Lasting s ∧ s.1.bases.length ≤ numberOfBases)
    (fun s event t kept one => ⟨step_lasting kept.1 one,step_few kept.2 (Runs.annotate_ok.mp one).1⟩)
    ⟨newborn_lasting whole,few⟩ ran

def buildEvents : List PageEvent := [.movement,.zombieDestinationAndCreateBase fun _ => 0.7,.movement]

theorem built_last : ∃ (g : Page) (ages : List (Location × ℕ)),
    Runs.run Page.step (init 1000 800 fun _ => 0.7) buildEvents = .ok g ∧
    g.bases.map life = (ages.filter alive).map aged ∧ g.bases.length ≤ numberOfBases := by
  have plain : ∃ g, Runs.run Page.step (init 1000 800 fun _ => 0.7) buildEvents = .ok g := ⟨_,rfl⟩
  obtain ⟨g,plain⟩ := plain
  obtain ⟨ages,ran⟩ := Runs.annotate_run births plain (newborn (init 1000 800 fun _ => 0.7))
  exact ⟨g,ages,plain,bases_last ran⟩

end Geoff.GameScript.BaseLives
