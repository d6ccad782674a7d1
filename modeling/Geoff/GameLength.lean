import Geoff.ShipRuns
import Geoff.Flights

-- How long a game lasts at least. Every life has its shield and ends with an explosion, and
-- both take their ticks.
namespace Geoff.GameLength
open Consts Collision PlayerEvents ShipBounds Lives World

structure Clock extends Vitals where
  explosionDuration : ℚ
  invDuration : ℚ

def clock (s : Ship) : Clock := ⟨vitals s,s.explosionDuration,s.invDuration⟩

def born (lives : Int) : Clock := ⟨⟨lives,false,false,true⟩,shipExplodeDur,shipInvDur⟩

def Clock.newLife (c : Clock) : Clock := if c.livesLeft ≠ 0 then born (c.livesLeft - 1) else {c with dead := true}

def Clock.tick (c : Clock) : Clock :=
  if c.exploding then
    let c := {c with explosionDuration := c.explosionDuration - 1 / 60}
    if c.explosionDuration < 0 then
      Clock.newLife {c with explosionDuration := shipExplodeDur, exploding := false}
    else c
  else if c.invulnerable then
    let c := {c with invDuration := c.invDuration - 1 / 60}
    if c.invDuration < 0 then {c with invulnerable := false} else c
  else c

def shieldTicks : ℕ := 181
def blastTicks : ℕ := 31
def lifeTicks : ℕ := shieldTicks + blastTicks

-- A clock with `r` ticks to go at least: `n` ticks of the shield or of the explosion are
-- over, and the lives that are left are whole ones.
inductive Left : Clock → ℕ → Prop
  | dead {c : Clock} : c.dead = true → Left c 0
  | shielded (n lives : ℕ) : n < shieldTicks →
    Left ⟨⟨lives,false,false,true⟩,1 / 2,3 - n / 60⟩ (lives * lifeTicks + (shieldTicks - n) + blastTicks)
  | open_ (lives : ℕ) (invDuration : ℚ) :
    Left ⟨⟨lives,false,false,false⟩,1 / 2,invDuration⟩ (lives * lifeTicks + blastTicks)
  | exploding (n lives : ℕ) (invDuration : ℚ) : n < blastTicks →
    Left ⟨⟨lives,true,false,false⟩,1 / 2 - n / 60,invDuration⟩ (lives * lifeTicks + (blastTicks - n))

variable {c : Clock} {r : ℕ}

theorem Left.done (left : Left c r) (dead : c.dead = true) : r = 0 := by
  cases left with
  | dead => rfl
  | shielded => cases dead
  | open_ => cases dead
  | exploding => cases dead

theorem born_left (lives : ℕ) : Left (born lives) ((lives + 1) * lifeTicks) := by
  have whole := Left.shielded 0 lives (by decide)
  have start : (3 : ℚ) - (0 : ℕ) / 60 = shipInvDur := by norm_num [shipInvDur]
  have total : lives * lifeTicks + (shieldTicks - 0) + blastTicks = (lives + 1) * lifeTicks := by
    rw [Nat.succ_mul,Nat.add_assoc]
    rfl
  rw [start,total] at whole
  exact whole

theorem newLife_left {lives : ℕ} (count : c.livesLeft = lives) : Left c.newLife (lives * lifeTicks) := by
  unfold Clock.newLife
  cases lives with
  | zero =>
    have last : c.livesLeft = 0 := count
    rw [if_neg (not_not.mpr last),Nat.zero_mul]
    exact .dead rfl
  | succ lives =>
    have one_less : c.livesLeft - 1 = lives := by omega
    rw [if_pos (by omega),one_less]
    exact born_left lives

theorem countdown {from_ : ℚ} {whole : ℕ} (same : from_ = whole / 60) (n : ℕ) :
    (from_ - n / 60 - 1 / 60 < 0 ↔ whole ≤ n) ∧ from_ - n / 60 - 1 / 60 = from_ - (n + 1 : ℕ) / 60 := by
  have next : from_ - n / 60 - 1 / 60 = from_ - (n + 1 : ℕ) / 60 := by
    push_cast
    ring
  refine ⟨?_,next⟩
  rw [next,sub_neg,same,div_lt_div_iff_of_pos_right (by norm_num),Nat.cast_lt]
  exact Nat.lt_succ_iff

theorem tick_left (left : Left c r) (alive : c.dead = false) : ∃ r', Left c.tick r' ∧ r ≤ r' + 1 := by
  cases left with
  | dead dead => exact absurd (dead.symm.trans alive) (by simp)
  | open_ lives invDuration => exact ⟨_,.open_ lives invDuration,Nat.le_succ _⟩
  | shielded n lives early =>
    obtain ⟨ends,next⟩ := countdown (show (3 : ℚ) = (180 : ℕ) / 60 by norm_num) n
    unfold Clock.tick
    dsimp only
    rw [if_neg Bool.false_ne_true,if_pos rfl]
    by_cases last : 180 ≤ n
    · rw [if_pos (ends.mpr last)]
      refine ⟨_,.open_ lives _,?_⟩
      unfold shieldTicks at early ⊢
      omega
    · rw [if_neg (mt ends.mp last),next]
      have young : n + 1 < shieldTicks := by
        unfold shieldTicks
        omega
      refine ⟨_,.shielded (n + 1) lives young,?_⟩
      omega
  | exploding n lives invDuration early =>
    obtain ⟨ends,next⟩ := countdown (show (1 / 2 : ℚ) = (30 : ℕ) / 60 by norm_num) n
    unfold Clock.tick
    dsimp only
    rw [if_pos rfl]
    by_cases last : 30 ≤ n
    · rw [if_pos (ends.mpr last)]
      refine ⟨_,newLife_left rfl,?_⟩
      unfold blastTicks at early ⊢
      omega
    · rw [if_neg (mt ends.mp last),next]
      have young : n + 1 < blastTicks := by
        unfold blastTicks
        omega
      refine ⟨_,.exploding (n + 1) lives invDuration young,?_⟩
      omega

section Exact
variable {cos sin : ℚ → ℚ}

variable (cos sin) in
theorem keyed_clock (s : Ship) (code : Nat) (isDown : Bool) : clock (s.keyEvent (.exact cos sin) code isDown) = clock s := by
  rcases s.keyEvent_cases (.exact cos sin) code isDown with ⟨_,_,_,same⟩ | ⟨_,same⟩
  · rw [same]
    rfl
  · rw [same]
    rfl

theorem newLife_clock (s : Ship) : clock (s.newLife (.exact cos sin)) = (clock s).newLife := by
  unfold Ship.newLife Clock.newLife
  split
  · rename_i some_left
    rw [if_pos (show (clock s).livesLeft ≠ 0 from some_left)]
    rfl
  · rename_i last
    rw [if_neg (show ¬ (clock s).livesLeft ≠ 0 from last)]
    rfl

variable (cos sin) in
theorem moveShip_clock (s : Ship) : clock (s.moveShip (.exact cos sin) field) = clock s := by
  obtain ⟨_,_,_,_,_,steered⟩ := s.moveShip_steered (.exact cos sin) field
  rw [steered]
  rfl

theorem blink_clock (s : Ship) : clock (s.blink (.exact cos sin)) = clock s := by
  obtain ⟨_,_,_,blinked⟩ := s.blink_writes (.exact cos sin)
  rw [blinked]
  rfl

theorem tickEvent_clock (s : Ship) : clock (s.tickEvent (.exact cos sin) field) = (clock s).tick := by
  have moved := moveShip_clock cos sin s
  simp only [Ship.tickEvent]
  generalize s.moveShip (.exact cos sin) field = m at moved
  rw [← moved]
  unfold Clock.tick
  by_cases blast : m.exploding = true
  · rw [if_pos blast,if_pos (show (clock m).exploding = true from blast)]
    split
    · rename_i ends
      rw [newLife_clock,if_pos (show (clock m).explosionDuration - 1 / 60 < 0 from ends)]
      rfl
    · rename_i lasts
      rw [if_neg (show ¬ (clock m).explosionDuration - 1 / 60 < 0 from lasts)]
      rfl
  · rw [if_neg blast,if_neg (show ¬ (clock m).exploding = true from blast)]
    by_cases shield : m.invulnerable = true
    · rw [if_pos shield,if_pos (show (clock m).invulnerable = true from shield)]
      split
      · rename_i ends
        rw [if_pos (show (clock m).invDuration - 1 / 60 < 0 from ends)]
        rfl
      · rename_i lasts
        rw [blink_clock,if_neg (show ¬ (clock m).invDuration - 1 / 60 < 0 from lasts)]
        rfl
    · rw [if_neg shield,if_neg (show ¬ (clock m).invulnerable = true from shield)]
      rfl

-- A hit starts the explosion, and takes none of its ticks.
theorem scanned_left {s s' : Ship} (left : Left (clock s) r) (scanned : Scanned s s') : Left (clock s') r := by
  obtain ⟨bullets,_,rfl | ⟨quiet,bare,rfl⟩⟩ := scanned
  · exact left
  · have struck : clock ({s with gun := ⟨bullets⟩} : Ship).explode = {clock s with exploding := true} := rfl
    have quiet : (clock s).exploding = false := quiet
    have bare : (clock s).invulnerable = false := bare
    rw [struck]
    generalize clock s = c at left quiet bare
    cases left with
    | dead dead => exact .dead dead
    | shielded => cases bare
    | exploding => cases quiet
    | open_ lives invDuration =>
      have start := Left.exploding 0 lives invDuration (by decide)
      rw [Nat.cast_zero,zero_div,sub_zero,Nat.sub_zero] at start
      exact start

def gameTicks : ℕ := 6 * lifeTicks

theorem fresh_left {s : Ship} (fresh : clock s = born numLives) : Left (clock s) gameTicks := by
  rw [fresh]
  exact born_left 5

variable (cos sin) in
theorem key_ship (p : Player) (code : Nat) (isDown : Bool) :
    clock (p.keyEvent (.exact cos sin) code isDown).ship = clock p.ship ∨
      p.ship.dead = true ∧ clock (p.keyEvent (.exact cos sin) code isDown).ship = born numLives := by
  have keyed := keyed_clock cos sin p.ship code isDown
  simp only [Player.keyEvent]
  split
  · split
    · rename_i dead
      have was : (p.ship.keyEvent (.exact cos sin) code isDown).dead = p.ship.dead :=
        congrArg (fun c : Clock => c.dead) keyed
      exact .inr ⟨was.symm.trans dead,rfl⟩
    · exact .inl keyed
  · exact .inl keyed

def isTick : PlayerEvent → Bool
  | .tick => true
  | _ => false

def ticks (events : List PlayerEvent) : ℕ := events.countP isTick

theorem ticks_cons (event : PlayerEvent) (rest : List PlayerEvent) : ticks (event :: rest) = ticks [event] + ticks rest := by
  rw [← List.singleton_append]
  exact List.countP_append

variable (cos sin) in
theorem play_left {p : Player} (left : Left (clock p.ship) r) (event : PlayerEvent) :
    ∃ r', Left (clock (play (.exact cos sin) field p event).ship) r' ∧ r ≤ r' + ticks [event] := by
  cases event with
  | key code isDown =>
    rcases key_ship cos sin p code isDown with same | ⟨dead,fresh⟩
    · refine ⟨r,?_,Nat.le_add_right ..⟩
      rw [play,same]
      exact left
    · refine ⟨gameTicks,fresh_left fresh,?_⟩
      rw [left.done dead]
      exact Nat.zero_le _
  | resize w h => exact ⟨r,left,Nat.le_add_right ..⟩
  | collide rocks score => exact ⟨r,scanned_left left (scanRocks_scanned rocks p.ship),Nat.le_add_right ..⟩
  | tick =>
    show ∃ r', Left (clock (p.tick (.exact cos sin) field).ship) r' ∧ r ≤ r' + 1
    cases dead : p.ship.dead with
    | true =>
      rw [tick_dead field dead]
      exact ⟨r,left,Nat.le_succ r⟩
    | false =>
      rw [tick_alive field dead,tickEvent_clock]
      exact tick_left left dead

variable (cos sin) in
theorem play_dead {p : Player} (dead : p.ship.dead = true) (event : PlayerEvent) :
    (play (.exact cos sin) field p event).ship.dead = true ∨
      Left (clock (play (.exact cos sin) field p event).ship) gameTicks := by
  cases event with
  | key code isDown =>
    rcases key_ship cos sin p code isDown with same | ⟨_,fresh⟩
    · exact .inl ((congrArg (fun c : Clock => c.dead) same).trans dead)
    · exact .inr (fresh_left fresh)
  | resize w h => exact .inl dead
  | collide rocks score =>
    left
    obtain ⟨bullets,_,same | ⟨_,_,same⟩⟩ := scanRocks_scanned (A := .exact cos sin) rocks p.ship
    · exact (congrArg Ship.dead same).trans dead
    · exact (congrArg Ship.dead same).trans dead
  | tick => exact .inl ((congrArg Ship.dead (tick_dead field dead)).trans dead)

def Since (n : ℕ) (p : Player) : Prop := ∃ r, Left (clock p.ship) r ∧ gameTicks ≤ r + n

theorem plays_since {n : ℕ} (events : List PlayerEvent) {p : Player} (since : Since n p) :
    Since (n + ticks events) (plays (.exact cos sin) field p events) := by
  induction events generalizing n p with
  | nil => exact since
  | cons event rest ih =>
    obtain ⟨r,left,whole⟩ := since
    obtain ⟨r',later,drop⟩ := play_left cos sin left event
    have next : Since (n + ticks [event]) (play (.exact cos sin) field p event) := ⟨r',later,by omega⟩
    rw [ticks_cons,← Nat.add_assoc]
    exact ih next

variable (cos sin) in
theorem plays_dead {n : ℕ} (events : List PlayerEvent) {p : Player} (dead : p.ship.dead = true) :
    (plays (.exact cos sin) field p events).ship.dead = true ∨
      Since (n + ticks events) (plays (.exact cos sin) field p events) := by
  induction events generalizing n p with
  | nil => exact .inl dead
  | cons event rest ih =>
    rw [ticks_cons,← Nat.add_assoc]
    rcases play_dead cos sin dead event with still | fresh
    · exact ih still
    · exact .inr (plays_since rest ⟨gameTicks,fresh,Nat.le_add_right ..⟩)

theorem Since.later {n m : ℕ} {p : Player} (since : Since n p) (more : n ≤ m) : Since m p := by
  obtain ⟨r,left,whole⟩ := since
  exact ⟨r,left,by omega⟩

def isTimer : Event → Bool
  | .tick => true
  | _ => false

def timerTicks (history : List Event) : ℕ := history.countP isTimer

theorem timerTicks_cons (event : Event) (rest : List Event) : timerTicks (event :: rest) = timerTicks [event] + timerTicks rest := by
  rw [← List.singleton_append]
  exact List.countP_append

theorem untimed {events : List PlayerEvent} (other : ∀ event ∈ events, event ≠ .tick) : ticks events = 0 := by
  apply List.countP_eq_zero.mpr
  intro event member set
  cases event with
  | tick => exact other _ member rfl
  | key => cases set
  | resize => cases set
  | collide => cases set

theorem eventsOf_ticks {A : Arith} (w : World) (event : Event) (address : Nat) :
    ticks (w.eventsOf A event address) ≤ timerTicks [event] := by
  by_cases tick : event = .tick
  · subst tick
    simp only [eventsOf]
    split
    · have rounds : ticks (detectionEvents A address (w.game.moveRocks A w.game.gUniverse.timer.tick)
          w.game.gUniverse.players.toList) = 0 := by
        apply untimed
        intro event member
        obtain ⟨_,_,rfl⟩ := detection_rounds _ _ _ event member
        exact PlayerEvent.noConfusion
      have one : ticks (w.tickEvents address) ≤ 1 := by
        unfold tickEvents
        split
        · exact Nat.le_refl 1
        · exact Nat.zero_le 1
      have both : ∀ first rest, ticks (first ++ rest) = ticks first + ticks rest := fun _ _ => List.countP_append
      rw [both,rounds,Nat.zero_add]
      exact one
    · exact Nat.zero_le _
  · rw [eventsOf_request tick,untimed (request_untimed w event address)]
    exact Nat.zero_le _

abbrev Running (w : World) : Prop := Viewport.Served (fun _ => True) w

variable {w t : World} {event : Event} {address : Nat}

theorem running_step (running : Running w) (ran : w.step (.exact cos sin) event = .ok t) : Running t := by
  have every : Viewport.Windows (fun _ _ => True) w event := Viewport.windows_any w event
  exact Viewport.served_step ⟨fun _ _ _ => trivial,fun _ _ _ _ => trivial⟩ running every ran

def Playing (n : ℕ) (address : Nat) (w : World) : Prop :=
  address < w.game.allocated ∧ Since n (w.game.memory address)

def Gone (address : Nat) (w : World) : Prop :=
  w.game.allocated ≤ address ∨ (w.game.memory address).ship.dead = true

theorem allocated_grows (ran : w.step (.exact cos sin) event = .ok t) : w.game.allocated ≤ t.game.allocated := by
  rcases Flights.step_allocates ran with same | ⟨_,_,_,made⟩
  · exact same.ge
  · rw [made]
    exact Nat.le_succ _

theorem playing_step {n : ℕ} (running : Running w) (playing : Playing n address w) (ran : w.step (.exact cos sin) event = .ok t) :
    Playing (n + timerTicks [event]) address t := by
  obtain ⟨old,since⟩ := playing
  refine ⟨Nat.lt_of_lt_of_le old (allocated_grows ran),?_⟩
  rw [step_plays running.book ran old,running.size]
  exact (plays_since _ since).later (Nat.add_le_add_left (eventsOf_ticks w event address) n)

theorem gone_step {n : ℕ} (running : Running w) (gone : Gone address w) (ran : w.step (.exact cos sin) event = .ok t) :
    Gone address t ∨ Playing (n + timerTicks [event]) address t := by
  rcases Nat.lt_or_ge address w.game.allocated with old | new
  · have dead : (w.game.memory address).ship.dead = true := gone.resolve_left (Nat.not_le.mpr old)
    have played := plays_dead cos sin (n := n) (w.eventsOf (.exact cos sin) event address) dead
    rw [← running.size,← step_plays running.book ran old] at played
    refine played.imp .inr fun since => ⟨Nat.lt_of_lt_of_le old (allocated_grows ran),?_⟩
    exact since.later (Nat.add_le_add_left (eventsOf_ticks w event address) n)
  · rcases Nat.lt_or_ge address t.game.allocated with made | unmade
    · obtain ⟨cw,ch,_,player⟩ := Viewport.step_made (Viewport.windows_registers (Viewport.windows_any w event)) ran new made
      refine .inr ⟨made,gameTicks,?_,Nat.le_add_right ..⟩
      rw [player]
      exact fresh_left rfl
    · exact .inl (.inl unmade)

theorem playing_run {n : ℕ} {history : List Event} (running : Running w) (playing : Playing n address w)
    (ran : Runs.run (World.step (.exact cos sin)) w history = .ok t) : Playing (n + timerTicks history) address t := by
  induction history generalizing n w with
  | nil =>
    cases ran
    exact playing
  | cons event rest ih =>
    obtain ⟨middle,one,later⟩ := Runs.bind_ok.mp ran
    rw [timerTicks_cons,← Nat.add_assoc]
    exact ih (running_step running one) (playing_step running playing one) later

theorem gone_run {n : ℕ} {history : List Event} (running : Running w) (gone : Gone address w)
    (ran : Runs.run (World.step (.exact cos sin)) w history = .ok t) :
    Gone address t ∨ Playing (n + timerTicks history) address t := by
  induction history generalizing n w with
  | nil =>
    cases ran
    exact .inl gone
  | cons event rest ih =>
    obtain ⟨middle,one,later⟩ := Runs.bind_ok.mp ran
    rw [timerTicks_cons,← Nat.add_assoc]
    rcases gone_step (n := n) running gone one with still | playing
    · exact ih (running_step running one) still later
    · exact .inr (playing_run (running_step running one) playing later)

theorem running_run {rand : Rand} {history : List Event}
    (ran : Runs.run (World.step (.exact cos sin)) (World.make (.exact cos sin) rand) history = .ok w) : Running w :=
  Runs.run_invariant Running (fun _ _ _ running one => running_step running one) (Viewport.served_make _ rand) ran

-- From before its registration or its last death to the next one a player has at least six
-- shields and six explosions: 1272 ticks of the timer.
theorem games_last {rand : Rand} {history first rest : List Event} {m : World}
    (reached : Runs.run (World.step (.exact cos sin)) (World.make (.exact cos sin) rand) history = .ok w)
    (gone : Gone address w) (up : Runs.run (World.step (.exact cos sin)) w first = .ok m)
    (alive : address < m.game.allocated ∧ (m.game.memory address).ship.dead = false)
    (down : Runs.run (World.step (.exact cos sin)) m rest = .ok t)
    (finished : (t.game.memory address).ship.dead = true) : 1272 ≤ timerTicks (first ++ rest) := by
  have running := running_run reached
  have playing : Playing (0 + timerTicks first) address m := by
    rcases gone_run (n := 0) running gone up with unmade | playing
    · rcases unmade with missing | dead
      · exact absurd alive.1 (Nat.not_lt.mpr missing)
      · exact absurd (dead.symm.trans alive.2) (by simp)
    · exact playing
  have still : Running m :=
    Runs.run_invariant Running (fun _ _ _ running one => running_step running one) running up
  obtain ⟨_,r,left,whole⟩ := playing_run still playing down
  rw [left.done finished,Nat.zero_add,Nat.zero_add] at whole
  rw [timerTicks,List.countP_append]
  exact whole

end Exact

theorem resting_game : ∃ (first rest : List Event) (m t : World),
    Runs.run (World.step .upright) (World.make .upright .zeros) first = .ok m ∧
      Runs.run (World.step .upright) m rest = .ok t ∧ (t.game.memory 0).ship.dead = true ∧
        1272 ≤ timerTicks (first ++ rest) := by
  obtain ⟨joinedWorld,join⟩ := joined .upright .zeros
  obtain ⟨clicked,one,stands⟩ := RestingShip.click_stands (fun _ => 0) (fun _ => 1) join
  have pile : ∀ k ≤ 5, ∃ r rest, RestingShip.shatter^[k] [rockRadius] = r :: rest ∧ 0 < r := by
    intro k bound
    interval_cases k <;> norm_num [RestingShip.shatter,RestingShip.fragments,rockRadius]
  obtain ⟨last,⟨n,ticks⟩,ended⟩ := RestingShip.lives_end (fun _ => 0) (fun _ => 1) 5 stands pile
  obtain ⟨t,ticked,finished⟩ := RestingShip.tick_safe (fun _ => 0) (fun _ => 1) ended (fun _ blast => blast.1) (.inl rfl)
    fun _ => RestingShip.blast_over (fun _ => 0) (fun _ => 1)
  have up : Runs.run (World.step .upright) (World.make .upright .zeros)
      (joinEvents ++ [.onRead 0 (.message RestingShip.clickRequest fun _ => 0)]) = .ok clicked := by
    rw [Runs.run_append _ join.run,Runs.run_single]
    exact one
  have down : Runs.run (World.step .upright) clicked (List.replicate n .tick ++ [.tick]) = .ok t :=
    (Runs.run_append _ ticks).trans ((Runs.run_single ..).trans ticked)
  have made : 0 < clicked.game.allocated := by
    have known : 0 < joinedWorld.game.allocated := by
      rw [join.game]
      generalize Game.make .upright .zeros = first
      exact Nat.succ_pos _
    exact Nat.lt_of_lt_of_le known (allocated_grows one)
  have unmade : (World.make .upright .zeros).game.allocated ≤ 0 := by
    rw [World.make_game,(Game.make_fresh .upright .zeros).allocated]
  refine ⟨_,_,clicked,t,up,down,finished.ship.dead,?_⟩
  exact games_last (Runs.run_nil ..) (.inl unmade) up ⟨made,stands.ship.1.dead⟩ down finished.ship.dead

end Geoff.GameLength
