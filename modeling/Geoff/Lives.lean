import Geoff.Collisions
import Geoff.PlayerEvents

-- The lives of a player over any career: what each explosion costs, and when the
-- ship is dead.
namespace Geoff.Lives
open Consts Collision Collisions PlayerEvents

variable (A : Arith) (u : Size)

-- What happens to a ship: a call of Explode with the flags it finds, the end of an
-- explosion, and the loss of a life.
inductive Mark where
  | exploded (vulnerable exploding : Bool)
  | explosionDone
  | lifeLost
deriving DecidableEq

structure Career where
  player : Player
  marks : List Mark

def explodeMarks : List RockNode → Ship → List Mark
  | [],_ => []
  | node :: rest,ship =>
    (if shipHit A node.rock ship then [.exploded (!ship.invulnerable) ship.exploding] else []) ++
      explodeMarks rest (scanRock A (ship,[]) node).1

def marksOf (p p' : Player) (event : PlayerEvent) : List Mark :=
  (match event with
    | .collide rocks _ => explodeMarks A rocks p.ship
    | _ => []) ++
  (if p.ship.exploding = true ∧ p'.ship.exploding = false then [.explosionDone] else []) ++
  if p'.ship.livesLeft < p.ship.livesLeft ∨ (p.ship.dead = false ∧ p'.ship.dead = true) then [.lifeLost] else []

def step (c : Career) (event : PlayerEvent) : Career :=
  let p := play A u c.player event
  ⟨p,if c.player.ship.dead = true ∧ p.ship.dead = false then [] else c.marks ++ marksOf A c.player p event⟩

def make (cw ch : UInt16) : Career := ⟨Player.make A u cw ch,[]⟩

def Career.completed (c : Career) : Nat := c.marks.count .explosionDone

def Struck (marks : List Mark) : Prop :=
  ∃ before after, marks = before ++ .exploded true false :: after ∧ .lifeLost ∉ after

def Accounted (marks : List Mark) : Prop := ∀ before after, marks = before ++ .lifeLost :: after → Struck before

structure LifeCycle (c : Career) : Prop where
  lives : 0 ≤ c.player.ship.livesLeft ∧ c.player.ship.livesLeft ≤ numLives
  dead_lives : c.player.ship.dead = true → c.player.ship.livesLeft = 0
  dead_phase : c.player.ship.dead = true → c.player.phase ≠ .playing
  apart : ¬ (c.player.ship.exploding = true ∧ c.player.ship.invulnerable = true)
  balance : c.player.ship.dead = false → c.player.ship.livesLeft + c.completed = numLives
  losses : Accounted c.marks
  death : c.player.ship.dead = true ↔ (c.completed : Int) = numLives + 1

structure Vitals where
  livesLeft : Int
  exploding : Bool
  dead : Bool
  invulnerable : Bool

def vitals (s : Ship) : Vitals := ⟨s.livesLeft,s.exploding,s.dead,s.invulnerable⟩

section Ships
variable {A u}

theorem steered_vitals {s s' : Ship} (steered : s.Steered s') : vitals s' = vitals s := by
  obtain ⟨_,_,_,_,_,rfl⟩ := steered
  rfl

theorem blink_vitals (s : Ship) : vitals (s.blink A) = vitals s := by
  obtain ⟨_,_,_,blinked⟩ := s.blink_writes A
  rw [blinked]
  rfl

theorem keyEvent_vitals (s : Ship) (code : Nat) (isDown : Bool) : vitals (s.keyEvent A code isDown) = vitals s := by
  rcases s.keyEvent_cases A code isDown with ⟨_,_,_,steered⟩ | ⟨_,fired⟩
  · rw [steered]; rfl
  · rw [fired]; rfl

theorem newLife_vitals (s : Ship) : vitals (s.newLife A) =
    if s.livesLeft ≠ 0 then ⟨s.livesLeft - 1,false,false,true⟩ else ⟨s.livesLeft,s.exploding,true,s.invulnerable⟩ := by
  unfold Ship.newLife
  split <;> rfl

-- A tick of a ship leaves its life alone, makes it vulnerable, or ends its explosion.
theorem tickEvent_vitals (s : Ship) :
    (s.exploding = false ∧ ∃ shield, (shield = true → s.invulnerable = true) ∧
      vitals (s.tickEvent A u) = ⟨s.livesLeft,false,s.dead,shield⟩) ∨
    (s.exploding = true ∧ (vitals (s.tickEvent A u) = vitals s ∨
      vitals (s.tickEvent A u) = if s.livesLeft ≠ 0 then ⟨s.livesLeft - 1,false,false,true⟩
        else ⟨s.livesLeft,false,true,s.invulnerable⟩)) := by
  have moved := steered_vitals (s.moveShip_steered A u)
  generalize same : s.moveShip A u = m at moved
  simp only [vitals,Vitals.mk.injEq] at moved
  obtain ⟨lives,exploding,dead,invulnerable⟩ := moved
  simp only [Ship.tickEvent,same]
  cases blast : m.exploding with
  | true =>
    refine .inr ⟨exploding.symm.trans blast,?_⟩
    rw [if_pos rfl]
    split
    · exact .inr (by rw [newLife_vitals,lives,invulnerable])
    · refine .inl ?_
      simp only [vitals,lives,dead,invulnerable,← exploding,blast]
  | false =>
    refine .inl ⟨exploding.symm.trans blast,?_⟩
    rw [if_neg Bool.false_ne_true]
    cases shield : m.invulnerable with
    | true =>
      rw [if_pos rfl]
      split
      · refine ⟨false,fun set => (by cases set),?_⟩
        simp only [vitals,lives,dead]
      · refine ⟨true,fun _ => invulnerable.symm.trans shield,?_⟩
        rw [blink_vitals]
        simp only [vitals,lives,dead]
    | false =>
      rw [if_neg Bool.false_ne_true]
      refine ⟨false,fun set => (by cases set),?_⟩
      simp only [vitals,lives,dead]

end Ships

variable {A}

-- The scan of one rock, and of all of them: the ship explodes where Explode is
-- called, which is at most once and only on a vulnerable ship that is not exploding.
theorem scanRock_vitals (node : RockNode) (s : Ship) : vitals (scanRock A (s,[]) node).1 =
    if shipHit A node.rock s then {vitals s with exploding := true} else vitals s := by
  have same : shipHit A node.rock {s with gun := ⟨s.gun.bullets.filter (fun b => !bulletHit A node.rock b)⟩} =
      shipHit A node.rock s := rfl
  simp only [scanRock,same]
  split <;> rfl

theorem shipHit_open {rock : Rock} {s : Ship} (hit : shipHit A rock s = true) :
    s.exploding = false ∧ s.invulnerable = false := by
  simp only [shipHit,Bool.and_eq_true,Bool.not_eq_eq_eq_not,Bool.not_true] at hit
  exact hit.1

theorem explodeMarks_closed (rocks : List RockNode) {s : Ship} (closed : s.exploding = true) :
    explodeMarks A rocks s = [] ∧ vitals (scanRocks A rocks s).1 = vitals s := by
  induction rocks generalizing s with
  | nil => exact ⟨rfl,rfl⟩
  | cons node rest ih =>
    have missed : shipHit A node.rock s = false := by simp [shipHit,closed]
    have kept := scanRock_vitals (A := A) node s
    rw [missed,if_neg Bool.false_ne_true] at kept
    obtain ⟨silent,same⟩ := ih ((congrArg Vitals.exploding kept).trans closed)
    rw [explodeMarks,missed,silent,scanRocks_cons,same,kept]
    exact ⟨rfl,rfl⟩

theorem scan_vitals (rocks : List RockNode) (s : Ship) :
    (explodeMarks A rocks s = [] ∧ vitals (scanRocks A rocks s).1 = vitals s) ∨
      (explodeMarks A rocks s = [.exploded true false] ∧ s.exploding = false ∧ s.invulnerable = false ∧
        vitals (scanRocks A rocks s).1 = {vitals s with exploding := true}) := by
  induction rocks generalizing s with
  | nil => exact .inl ⟨rfl,rfl⟩
  | cons node rest ih =>
    have scanned := scanRock_vitals (A := A) node s
    rw [explodeMarks,scanRocks_cons]
    cases hit : shipHit A node.rock s with
    | true =>
      obtain ⟨quiet,shield⟩ := shipHit_open hit
      rw [hit,if_pos rfl] at scanned
      obtain ⟨silent,same⟩ := explodeMarks_closed (A := A) rest (s := (scanRock A (s,[]) node).1)
        (congrArg Vitals.exploding scanned)
      refine .inr ⟨?_,quiet,shield,same.trans scanned⟩
      rw [silent,quiet,shield]
      rfl
    | false =>
      rw [hit,if_neg Bool.false_ne_true] at scanned
      rcases ih (scanRock A (s,[]) node).1 with ⟨silent,same⟩ | ⟨marks,quiet,shield,same⟩
      · exact .inl ⟨by rw [silent]; rfl,same.trans scanned⟩
      · rw [scanned] at same
        exact .inr ⟨by rw [marks]; rfl,(congrArg Vitals.exploding scanned).symm.trans quiet,
          (congrArg Vitals.invulnerable scanned).symm.trans shield,same⟩

-- A key-down resurrects a dead ship outside the playing phase; any other key event
-- leaves the life of the ship alone.
theorem keyEvent_cases (p : Player) (code : Nat) (isDown : Bool) :
    (vitals (p.keyEvent A code isDown).ship = vitals p.ship ∧
      ((p.keyEvent A code isDown).phase = p.phase ∨ p.ship.dead = false)) ∨
    (p.ship.dead = true ∧ vitals (p.keyEvent A code isDown).ship = ⟨numLives,false,false,true⟩) := by
  have kept := keyEvent_vitals (A := A) p.ship code isDown
  simp only [Player.keyEvent]
  split
  · split
    · rename_i dead
      exact .inr ⟨(congrArg Vitals.dead kept).symm.trans dead,rfl⟩
    · rename_i alive
      exact .inl ⟨kept,.inr ((congrArg Vitals.dead kept).symm.trans (Bool.eq_false_iff.mpr alive))⟩
  · exact .inl ⟨kept,.inl rfl⟩

theorem tick_phase {p : Player} (dead : (p.tick A u).ship.dead = true) : (p.tick A u).phase ≠ .playing := by
  simp only [Player.tick] at dead ⊢
  generalize (if p.ship.dead = true then p else _) = q at dead ⊢
  by_cases lost : q.ship.dead = true ∧ q.phase = .playing
  · rw [if_pos lost]
    exact fun same => (by cases same)
  · rw [if_neg lost] at dead ⊢
    exact fun playing => lost ⟨dead,playing⟩

inductive Move (c c' : Career) : Prop where
  | kept (lives : c'.player.ship.livesLeft = c.player.ship.livesLeft)
      (exploding : c'.player.ship.exploding = c.player.ship.exploding)
      (dead : c'.player.ship.dead = c.player.ship.dead)
      (shield : c'.player.ship.invulnerable = true → c.player.ship.invulnerable = true)
      (phase : c'.player.ship.dead = true → c'.player.phase ≠ .playing) (marks : c'.marks = c.marks)
  | struck (before : c.player.ship.exploding = false) (unshielded : c.player.ship.invulnerable = false)
      (now : vitals c'.player.ship = {vitals c.player.ship with exploding := true})
      (phase : c'.player.phase = c.player.phase) (marks : c'.marks = c.marks ++ [.exploded true false])
  | reborn (before : c.player.ship.exploding = true) (alive : c.player.ship.dead = false)
      (left : c.player.ship.livesLeft ≠ 0)
      (now : vitals c'.player.ship = ⟨c.player.ship.livesLeft - 1,false,false,true⟩)
      (marks : c'.marks = c.marks ++ [.explosionDone] ++ [.lifeLost])
  | died (before : c.player.ship.exploding = true) (alive : c.player.ship.dead = false)
      (last : c.player.ship.livesLeft = 0)
      (now : vitals c'.player.ship = ⟨0,false,true,c.player.ship.invulnerable⟩)
      (phase : c'.player.phase ≠ .playing) (marks : c'.marks = c.marks ++ [.explosionDone] ++ [.lifeLost])
  | resurrected (before : c.player.ship.dead = true) (now : vitals c'.player.ship = ⟨numLives,false,false,true⟩)
      (marks : c'.marks = [])

theorem struck_append {marks : List Mark} (struck : Struck marks) {mark : Mark} (other : mark ≠ .lifeLost) :
    Struck (marks ++ [mark]) := by
  obtain ⟨before,after,rfl,kept⟩ := struck
  refine ⟨before,after ++ [mark],by simp,fun lost => ?_⟩
  rcases List.mem_append.mp lost with old | new
  · exact kept old
  · exact other (List.mem_singleton.mp new).symm

theorem accounted_append {marks : List Mark} (accounted : Accounted marks) {mark : Mark}
    (earned : mark = .lifeLost → Struck marks) : Accounted (marks ++ [mark]) := by
  intro before after split
  rcases Runs.split_last.mp split with ⟨rfl,lost,_⟩ | ⟨rest,_,inside⟩
  · exact earned lost
  · exact accounted before rest inside

structure Sound (c : Career) : Prop where
  cycle : LifeCycle c
  struck : c.player.ship.exploding = true → Struck c.marks

theorem sound_move {c c' : Career} (sound : Sound c) (move : Move c c') : Sound c' := by
  obtain ⟨⟨⟨low,high⟩,dead_lives,dead_phase,apart,balance,losses,death⟩,struck⟩ := sound
  cases move with
  | kept lives exploding dead shield phase marks =>
    have completed : c'.completed = c.completed := by rw [Career.completed,marks,Career.completed]
    refine ⟨⟨?_,?_,phase,?_,?_,by rw [marks]; exact losses,?_⟩,?_⟩
    · rw [lives]; exact ⟨low,high⟩
    · rw [dead,lives]; exact dead_lives
    · rw [exploding]
      rintro ⟨blast,set⟩
      exact apart ⟨blast,shield set⟩
    · rw [dead,lives,completed]; exact balance
    · rw [dead,completed]; exact death
    · rw [exploding,marks]; exact struck
  | struck before unshielded now phase marks =>
    have completed : c'.completed = c.completed := by
      simp [Career.completed,marks]
    simp only [vitals,Vitals.mk.injEq] at now
    obtain ⟨lives,_,dead,shield⟩ := now
    refine ⟨⟨?_,?_,?_,?_,?_,?_,?_⟩,?_⟩
    · rw [lives]; exact ⟨low,high⟩
    · rw [dead,lives]; exact dead_lives
    · rw [dead,phase]; exact dead_phase
    · rw [shield,unshielded]; simp
    · rw [dead,lives,completed]; exact balance
    · rw [marks]; exact accounted_append losses fun lost => (by cases lost)
    · rw [dead,completed]; exact death
    · intro _; exact ⟨c.marks,[],marks,by simp⟩
  | reborn before alive left now marks =>
    have completed : c'.completed = c.completed + 1 := by simp [Career.completed,marks]
    simp only [vitals,Vitals.mk.injEq] at now
    obtain ⟨lives,quiet,living,shield⟩ := now
    have done : Struck (c.marks ++ [.explosionDone]) := struck_append (struck before) fun same => (by cases same)
    have balance := balance alive
    refine ⟨⟨?_,?_,?_,?_,?_,?_,?_⟩,?_⟩
    · rw [lives]; omega
    · rw [living]; exact fun dead => (by cases dead)
    · rw [living]; exact fun dead => (by cases dead)
    · rw [quiet]; simp
    · intro _
      rw [lives,completed]
      push_cast
      omega
    · rw [marks]
      exact accounted_append (accounted_append losses fun lost => (by cases lost)) fun _ => done
    · rw [living,completed]
      refine ⟨fun dead => (by cases dead),fun full => ?_⟩
      push_cast at full
      omega
    · rw [quiet]; exact fun blast => (by cases blast)
  | died before alive last now phase marks =>
    have completed : c'.completed = c.completed + 1 := by simp [Career.completed,marks]
    simp only [vitals,Vitals.mk.injEq] at now
    obtain ⟨lives,quiet,dead,shield⟩ := now
    have done : Struck (c.marks ++ [.explosionDone]) := struck_append (struck before) fun same => (by cases same)
    have balance := balance alive
    refine ⟨⟨?_,?_,?_,?_,?_,?_,?_⟩,?_⟩
    · rw [lives]; exact ⟨le_refl _,by decide⟩
    · intro _; exact lives
    · intro _; exact phase
    · rw [quiet]; simp
    · rw [dead]; exact fun living => (by cases living)
    · rw [marks]
      exact accounted_append (accounted_append losses fun lost => (by cases lost)) fun _ => done
    · refine ⟨fun _ => ?_,fun _ => dead⟩
      rw [completed]
      push_cast
      omega
    · rw [quiet]; exact fun blast => (by cases blast)
  | resurrected before now marks =>
    have completed : c'.completed = 0 := by rw [Career.completed,marks]; rfl
    simp only [vitals,Vitals.mk.injEq] at now
    obtain ⟨lives,quiet,living,shield⟩ := now
    refine ⟨⟨?_,?_,?_,?_,?_,?_,?_⟩,?_⟩
    · rw [lives]; exact ⟨by decide,le_refl _⟩
    · rw [living]; exact fun dead => (by cases dead)
    · rw [living]; exact fun dead => (by cases dead)
    · rw [quiet]; simp
    · intro _; rw [lives,completed]; rfl
    · rw [marks]; intro before after split; simp at split
    · rw [living,completed]
      exact ⟨fun dead => (by cases dead),fun full => (by cases full)⟩
    · rw [quiet]; exact fun blast => (by cases blast)

section Steps
variable {u} {c : Career}

theorem step_marks (event : PlayerEvent) {marks : List Mark}
    (scan : (match event with | .collide rocks _ => explodeMarks A rocks c.player.ship | _ => []) = marks)
    (lives : (play A u c.player event).ship.livesLeft = c.player.ship.livesLeft)
    (exploding : c.player.ship.exploding = true → (play A u c.player event).ship.exploding = true)
    (dead : (play A u c.player event).ship.dead = c.player.ship.dead) :
    (step A u c event).marks = c.marks ++ marks := by
  have blast : ¬ (c.player.ship.exploding = true ∧ (play A u c.player event).ship.exploding = false) := by
    rintro ⟨before,after⟩
    rw [exploding before] at after
    cases after
  have life : ¬ ((play A u c.player event).ship.livesLeft < c.player.ship.livesLeft ∨
      (c.player.ship.dead = false ∧ (play A u c.player event).ship.dead = true)) := by
    rw [lives,dead]
    rintro (less | ⟨before,after⟩)
    · exact lt_irrefl _ less
    · rw [before] at after; cases after
  have same : ¬ (c.player.ship.dead = true ∧ (play A u c.player event).ship.dead = false) := by
    rw [dead]
    rintro ⟨before,after⟩
    rw [before] at after
    cases after
  simp only [step,marksOf,if_neg blast,if_neg life,if_neg same,List.append_nil]
  rw [← scan]

theorem kept_move (event : PlayerEvent)
    (scan : (match event with | .collide rocks _ => explodeMarks A rocks c.player.ship | _ => []) = [])
    (now : vitals (play A u c.player event).ship = vitals c.player.ship)
    (phase : (play A u c.player event).ship.dead = true → (play A u c.player event).phase ≠ .playing) :
    Move c (step A u c event) := by
  have lives : (play A u c.player event).ship.livesLeft = c.player.ship.livesLeft := congrArg Vitals.livesLeft now
  have exploding : (play A u c.player event).ship.exploding = c.player.ship.exploding := congrArg Vitals.exploding now
  have dead : (play A u c.player event).ship.dead = c.player.ship.dead := congrArg Vitals.dead now
  refine .kept lives exploding dead (fun set => (congrArg Vitals.invulnerable now).symm.trans set) phase ?_
  rw [step_marks event scan lives (fun blast => exploding.trans blast) dead,List.append_nil]

theorem key_move (cycle : LifeCycle c) (code : Nat) (isDown : Bool) : Move c (step A u c (.key code isDown)) := by
  rcases keyEvent_cases (A := A) c.player code isDown with ⟨now,phase⟩ | ⟨dead,now⟩
  · refine kept_move (.key code isDown) rfl now fun gone => ?_
    have gone : c.player.ship.dead = true := (congrArg Vitals.dead now).symm.trans gone
    rcases phase with same | alive
    · rw [play,same]
      exact cycle.dead_phase gone
    · rw [alive] at gone; cases gone
  · have living : (play A u c.player (.key code isDown)).ship.dead = false := congrArg Vitals.dead now
    exact .resurrected dead now (if_pos ⟨dead,living⟩)

theorem resize_move (cycle : LifeCycle c) (w h : UInt16) : Move c (step A u c (.resize w h)) :=
  kept_move (.resize w h) rfl rfl cycle.dead_phase

theorem collide_move (cycle : LifeCycle c) (rocks : List RockNode) (score : UInt32) :
    Move c (step A u c (.collide rocks score)) := by
  rcases scan_vitals (A := A) rocks c.player.ship with ⟨silent,now⟩ | ⟨marks,quiet,shield,now⟩
  · exact kept_move (.collide rocks score) silent now fun gone =>
      cycle.dead_phase ((congrArg Vitals.dead now).symm.trans gone)
  · exact .struck quiet shield now rfl (step_marks (.collide rocks score) marks (congrArg Vitals.livesLeft now)
      (fun _ => congrArg Vitals.exploding now) (congrArg Vitals.dead now))

theorem explosion_marks (before : c.player.ship.exploding = true) (alive : c.player.ship.dead = false)
    (quiet : (play A u c.player .tick).ship.exploding = false)
    (cost : (play A u c.player .tick).ship.livesLeft < c.player.ship.livesLeft ∨
      (play A u c.player .tick).ship.dead = true) :
    (step A u c .tick).marks = c.marks ++ [.explosionDone] ++ [.lifeLost] := by
  have life : (play A u c.player .tick).ship.livesLeft < c.player.ship.livesLeft ∨
      (c.player.ship.dead = false ∧ (play A u c.player .tick).ship.dead = true) := cost.imp_right fun dead => ⟨alive,dead⟩
  have living : ¬ (c.player.ship.dead = true ∧ (play A u c.player .tick).ship.dead = false) := by
    rw [alive]
    rintro ⟨dead,_⟩
    cases dead
  simp only [step,marksOf,if_neg living,if_pos life]
  rw [if_pos ⟨before,quiet⟩]
  simp

theorem tick_move (c : Career) : Move c (step A u c .tick) := by
  cases dead : c.player.ship.dead with
  | true =>
    have same : (play A u c.player .tick).ship = c.player.ship := tick_dead u dead
    exact kept_move .tick rfl (congrArg vitals same) (tick_phase u)
  | false =>
    have same : (play A u c.player .tick).ship = c.player.ship.tickEvent A u := tick_alive u dead
    have ticked := tickEvent_vitals (A := A) (u := u) c.player.ship
    rw [← same] at ticked
    rcases ticked with ⟨quiet,shield,kept,now⟩ | ⟨blast,now | now⟩
    · have lives : (play A u c.player .tick).ship.livesLeft = c.player.ship.livesLeft := congrArg Vitals.livesLeft now
      have still : (play A u c.player .tick).ship.exploding = false := congrArg Vitals.exploding now
      have living : (play A u c.player .tick).ship.dead = c.player.ship.dead := congrArg Vitals.dead now
      refine .kept lives (still.trans quiet.symm) living
        (fun set => kept ((congrArg Vitals.invulnerable now).symm.trans set)) (tick_phase u) ?_
      rw [step_marks .tick rfl lives (fun blast => absurd blast (by rw [quiet]; simp)) living,List.append_nil]
    · exact kept_move .tick rfl now (tick_phase u)
    · by_cases last : c.player.ship.livesLeft = 0
      · rw [if_neg (not_not.mpr last),last] at now
        have gone : (play A u c.player .tick).ship.dead = true := congrArg Vitals.dead now
        exact .died blast dead last now (tick_phase u gone)
          (explosion_marks blast dead (congrArg Vitals.exploding now) (.inr gone))
      · rw [if_pos last] at now
        have lives : (play A u c.player .tick).ship.livesLeft = c.player.ship.livesLeft - 1 :=
          congrArg Vitals.livesLeft now
        exact .reborn blast dead last now
          (explosion_marks blast dead (congrArg Vitals.exploding now) (.inl (by omega)))

theorem sound_step (sound : Sound c) (event : PlayerEvent) : Sound (step A u c event) := by
  refine sound_move sound ?_
  cases event with
  | key code isDown => exact key_move sound.cycle code isDown
  | resize w h => exact resize_move sound.cycle w h
  | collide rocks score => exact collide_move sound.cycle rocks score
  | tick => exact tick_move c

end Steps

variable (A)

theorem sound_make (cw ch : UInt16) : Sound (make A u cw ch) := by
  have full : 0 ≤ numLives := by decide
  refine ⟨⟨⟨full,le_refl _⟩,?_,?_,?_,fun _ => rfl,?_,?_⟩,?_⟩
  · exact fun dead => (by cases dead)
  · exact fun dead => (by cases dead)
  · rintro ⟨blast,_⟩; cases blast
  · intro before after split; simp [make] at split
  · exact ⟨fun dead => (by cases dead),fun full => (by cases full)⟩
  · exact fun blast => (by cases blast)

def run (c : Career) (events : List PlayerEvent) : Career := events.foldl (step A u) c

theorem sound_run {c : Career} (sound : Sound c) (events : List PlayerEvent) : Sound (run A u c events) := by
  induction events generalizing c with
  | nil => exact sound
  | cons event rest ih => exact ih (sound_step sound event)

theorem life_cycle (A : Arith) (u : Size) (cw ch : UInt16) (events : List PlayerEvent) :
    LifeCycle (run A u (make A u cw ch) events) :=
  (sound_run A u (sound_make A u cw ch) events).cycle

-- Every player of a reachable server has such a career behind it.
theorem run_player (c : Career) (events : List PlayerEvent) : (run A u c events).player = plays A u c.player events := by
  induction events generalizing c with
  | nil => rfl
  | cons event rest ih => exact ih (step A u c event)

theorem reachable_career {rand : Rand} {w : World} {history : List Event}
    (ran : Runs.run (World.step A) (World.make A rand) history = .ok w) {address : Nat} (old : address < w.game.allocated) :
    ∃ c : Career, c.player = w.game.memory address ∧ LifeCycle c := by
  obtain ⟨cw,ch,events,same⟩ := (careers_run ran).careers address old
  exact ⟨run A ⟨8192,8192⟩ (make A ⟨8192,8192⟩ cw ch) events,(run_player A _ _ events).trans same.symm,
    (sound_run A _ (sound_make A _ cw ch) events).cycle⟩

end Geoff.Lives
