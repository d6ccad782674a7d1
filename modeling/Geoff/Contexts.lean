import Geoff.OnScreen
import Geoff.Scores

-- The two copies of a viewport, the player's and the one of its ship. A tick copies the
-- offset to the player before the ship slides it.
namespace Geoff.Contexts
open Consts Collision PlayerEvents ShipBounds Viewport ShipRuns OnScreen World

def Agrees (p : Player) : Prop := p.toContext = p.ship.toContext

section
variable (A : Arith)

def Slides (pos : ℚ) (offset window : UInt16) : Prop :=
  (pos < A.fl (offset.toNat + 200) ∧ 200 < pos ∧ A.toUint16 (A.fl (pos - 200)) ≠ offset) ∨
    (A.fl (offset.toNat + 200) ≤ pos ∧ A.fl (A.fl (offset.toNat + window.toNat) - 200) < pos ∧ pos < A.fl (8192 - 200) ∧
      A.toUint16 (A.fl (A.fl (pos - window.toNat) + 200)) ≠ offset)

def Sliding (s : Ship) : Prop := Slides A s.posX s.ctxOX s.ctxW ∨ Slides A s.posY s.ctxOY s.ctxH

-- Ship::Ship subtracts half the window before the cast, Player::Player behind it.
def Fitting (w : UInt16) : Prop := A.toUint16 (A.fl (A.fl (8192 / 2) - (w / 2).toNat)) = A.toUint16 (A.fl (8192 / 2)) - w / 2

end

variable {A : Arith} {w t : World} {event : Event} {address : Nat}

theorem fitting_small (whole : Scores.Whole A) {w : UInt16} (small : w.toNat ≤ 8193) : Fitting A w := by
  have half := half_toNat w
  have middle : A.fl (8192 / 2) = (4096 : Nat) := by
    rw [← whole 4096 (by norm_num)]
    norm_num
  have left : (4096 : Nat) - ((w / 2).toNat : ℚ) = (4096 - w.toNat / 2 : Nat) := by
    rw [half,Nat.cast_sub (by omega)]
  unfold Fitting
  rw [middle,left,whole _ (by omega),Arith.toUint16_nat _ (by omega),Arith.toUint16_nat _ (by omega)]
  apply UInt16.toNat_inj.mp
  have below : w / 2 ≤ UInt16.ofNat 4096 := UInt16.le_iff_toNat_le.mpr (by rw [half]; show _ ≤ 4096; omega)
  rw [UInt16.toNat_sub_of_le _ _ below,half,UInt16.toNat_ofNat_of_lt' (show _ < 65536 by omega)]
  rfl

-- Where one axis of a viewport gives way to the ship in exact arithmetic: neither next to
-- the walls, nor inside the margins, nor less than a pixel behind the high one.
def GivesWay (pos : ℚ) (offset window : UInt16) : Prop :=
  (200 < pos ∧ pos < offset.toNat + 200) ∨ (offset.toNat + 200 ≤ pos ∧ offset.toNat + window.toNat - 199 ≤ pos ∧ pos < 7992)

theorem slides_exact (cos sin : ℚ → ℚ) {pos : ℚ} {offset window : UInt16} :
    Slides (.exact cos sin) pos offset window ↔ GivesWay pos offset window := by
  have low : (0 : ℚ) ≤ offset.toNat := Nat.cast_nonneg _
  have high : (offset.toNat : ℚ) < 65536 := by exact_mod_cast offset.toNat_lt
  unfold Slides GivesWay
  simp only [show ∀ x, (Arith.exact cos sin).fl x = x from fun _ => rfl]
  apply or_congr
  · constructor
    · rintro ⟨near,inner,_⟩
      exact ⟨inner,near⟩
    · rintro ⟨inner,near⟩
      refine ⟨near,inner,fun same => ?_⟩
      obtain ⟨below,_⟩ := toUint16_floor cos sin (x := pos - 200) (by linarith) (by linarith)
      rw [same] at below
      linarith
  · constructor
    · rintro ⟨apart,past,inner,moves⟩
      refine ⟨apart,not_lt.mp fun short => moves ?_,by linarith⟩
      obtain ⟨below,above⟩ := toUint16_floor cos sin (x := pos - window.toNat + 200) (by linarith) (by linarith)
      have most : (((Arith.exact cos sin).toUint16 (pos - window.toNat + 200)).toNat : ℚ) < offset.toNat + 1 := by linarith
      have least : (offset.toNat : ℚ) < ((Arith.exact cos sin).toUint16 (pos - window.toNat + 200)).toNat + 1 := by linarith
      have most := Nat.lt_succ_iff.mp (by exact_mod_cast most)
      have least := Nat.lt_succ_iff.mp (by exact_mod_cast least)
      exact UInt16.toNat_inj.mp (le_antisymm most least)
    · rintro ⟨apart,past,inner⟩
      refine ⟨apart,by linarith,by linarith,fun same => ?_⟩
      have wide : (0 : ℚ) ≤ window.toNat := Nat.cast_nonneg _
      obtain ⟨_,above⟩ := toUint16_floor cos sin (x := pos - window.toNat + 200) (by linarith) (by linarith)
      rw [same] at above
      linarith

theorem slides_iff (pos : ℚ) (offset window : UInt16) :
    Ship.slideAxis A 8192 200 pos offset window ≠ offset ↔ Slides A pos offset window := by
  unfold Ship.slideAxis Slides
  by_cases near : pos < A.fl (offset.toNat + 200)
  · have apart : ¬ A.fl (offset.toNat + 200) ≤ pos := not_le.mpr near
    rw [if_pos near]
    simp only [near,apart,true_and,false_and,or_false]
    split
    · rename_i inner
      exact (and_iff_right inner).symm
    · rename_i outer
      exact iff_of_false (not_not.mpr rfl) fun slides => outer slides.1
  · have apart : A.fl (offset.toNat + 200) ≤ pos := not_lt.mp near
    rw [if_neg near]
    simp only [near,apart,true_and,false_and,false_or]
    split
    · rename_i past
      rw [and_iff_right past]
      split
      · rename_i inner
        exact (and_iff_right inner).symm
      · rename_i outer
        exact iff_of_false (not_not.mpr rfl) fun slides => outer slides.1
    · rename_i reach
      exact iff_of_false (not_not.mpr rfl) fun slides => reach slides.1

theorem moveShip_slides {s : Ship} (rigged : Rigged s) (quiet : s.exploding = false) (alive : s.dead = false) :
    (s.moveShip A field).toContext = ⟨s.ctxW,s.ctxH,Ship.slideAxis A 8192 200 s.posX s.ctxOX s.ctxW,
      Ship.slideAxis A 8192 200 s.posY s.ctxOY s.ctxH⟩ := by
  have turn := (s.rotate_steered A).trans (Ship.accelerate_steered A _)
  have same : Rigged ((s.rotate A).accelerate A) := (steered_rig turn).trans rigged
  have slides : ((s.rotate A).accelerate A).slideViewport = true := congrArg Rig.slideViewport same
  have margin : ((s.rotate A).accelerate A).viewportMargin = 200 := congrArg Rig.viewportMargin same
  rw [moveShip_context,if_neg (by simp [quiet,alive]),Ship.slide,if_pos slides,margin,turned_context,turned_place]
  rfl

theorem tick_contexts {p : Player} (u : Size) (alive : p.ship.dead = false) :
    (p.tick A u).toContext = ⟨p.ctxW,p.ctxH,p.ship.ctxOX,p.ship.ctxOY⟩ ∧
      (p.tick A u).ship.toContext = (p.ship.moveShip A u).toContext := by
  constructor
  · simp only [Player.tick,alive,Bool.false_eq_true,if_false]
    split <;> rfl
  · rw [tick_alive u alive,tickEvent_context]

theorem tick_rests {p : Player} (u : Size) (dead : p.ship.dead = true) : (p.tick A u).toContext = p.toContext := by
  simp only [Player.tick,dead,if_true]
  split <;> rfl

theorem tick_agrees_iff {p : Player} (rigged : Rigged p.ship) (agrees : Agrees p) :
    Agrees (p.tick A field) ↔ (p.ship.exploding = false → p.ship.dead = false → ¬ Sliding A p.ship) := by
  unfold Agrees at agrees ⊢
  cases dead : p.ship.dead with
  | true =>
    rw [tick_rests field dead,tick_dead field dead]
    exact iff_of_true agrees fun _ alive => by cases alive
  | false =>
    obtain ⟨own,ships⟩ := tick_contexts (A := A) field dead
    obtain ⟨wide,high,_,_⟩ := Context.mk.inj agrees
    rw [own,ships]
    cases blast : p.ship.exploding with
    | true =>
      rw [moveShip_context,if_pos (by rw [blast]; rfl),wide,high]
      exact iff_of_true rfl fun quiet => by cases quiet
    | false =>
      rw [moveShip_slides rigged blast dead]
      simp only [forall_const,Sliding,← slides_iff,not_or,not_not,Context.mk.injEq,wide,high,true_and]
      exact and_congr eq_comm eq_comm

theorem event_agrees {p : Player} (played : PlayerEvent) (untimed : played ≠ .tick) (agrees : Agrees p) :
    Agrees (play A field p played) := by
  unfold Agrees at agrees ⊢
  cases played with
  | key code isDown =>
    have own : (p.keyEvent A code isDown).toContext = p.toContext := by
      simp only [Player.keyEvent]
      split
      · split <;> rfl
      · rfl
    show (p.keyEvent A code isDown).toContext = (p.keyEvent A code isDown).ship.toContext
    rw [own,keyEvent_context]
    exact agrees
  | resize w h => rfl
  | collide rocks score =>
    show p.toContext = (scanRocks A rocks p.ship).1.toContext
    rw [scanned_context (scanRocks_scanned rocks p.ship)]
    exact agrees
  | tick => exact absurd rfl untimed

theorem events_agree {events : List PlayerEvent} (untimed : ∀ played ∈ events, played ≠ .tick) {p : Player}
    (agrees : Agrees p) : Agrees (plays A field p events) := by
  induction events generalizing p with
  | nil => exact agrees
  | cons played rest ih =>
    obtain ⟨here,later⟩ := List.forall_mem_cons.mp untimed
    exact ih later (event_agrees played here agrees)

theorem make_agrees_iff (cw ch : UInt16) : Agrees (Player.make A field cw ch) ↔ Fitting A cw ∧ Fitting A ch := by
  show (⟨cw,ch,_,_⟩ : Context) = ⟨cw,ch,_,_⟩ ↔ _
  rw [Context.mk.injEq]
  simp only [true_and]
  exact and_congr eq_comm eq_comm

theorem rigged_seaworthy (A : Arith) : Seaworthy A (fun _ _ => True) Rigged where
  made := by
    intro cw ch _
    norm_num [Rigged,rig,Player.make,Ship.make,shipSize,shipMaxDeltaV,Consts.viewportMargin]
  trimmed := by
    intro s s' same rigged
    have seen : rig (trim s') = rig (trim s) := congrArg rig same
    exact seen.trans rigged
  resized := fun s w h _ rigged => rigged
  stopped := fun s rigged => rigged
  reborn := by
    intro s rigged left
    unfold Ship.newLife
    rw [if_pos left]
    exact rigged
  moved := fun s rigged _ _ => (steered_rig (s.moveShip_steered A field)).trans rigged
  shielded := by
    intro s rigged _
    obtain ⟨_,_,_,_,_,shielded⟩ := shield_writes (A := A) s
    rw [shielded]
    exact rigged

theorem sized_any (played : PlayerEvent) : played.Sized fun _ _ => True := by
  cases played with
  | key code isDown => trivial
  | resize w h => trivial
  | collide rocks score => trivial
  | tick => trivial

theorem tick_split (A : Arith) (w : World) (address : Nat) :
    ∃ rounds : List PlayerEvent, (∀ played ∈ rounds, played ≠ .tick) ∧
      (w.eventsOf A .tick address = rounds ∨ w.eventsOf A .tick address = rounds ++ [.tick]) := by
  simp only [eventsOf]
  split
  · refine ⟨detectionEvents A address (w.game.moveRocks A w.game.gUniverse.timer.tick)
      w.game.gUniverse.players.toList,?_,?_⟩
    · intro played member
      obtain ⟨_,_,round⟩ := detection_rounds _ _ _ played member
      rw [round]
      exact PlayerEvent.noConfusion
    · unfold tickEvents
      split
      · exact .inr rfl
      · exact .inl (List.append_nil _)
  · exact ⟨[],fun _ member => absurd member List.not_mem_nil,.inl rfl⟩

theorem player_agrees_iff (rigged : Rigged (w.game.memory address).ship) (agrees : Agrees (w.game.memory address)) :
    Agrees (plays A field (w.game.memory address) (w.eventsOf A .tick address)) ↔
      ∀ before after, w.eventsOf A .tick address = before ++ .tick :: after →
        (plays A field (w.game.memory address) before).ship.exploding = false →
          (plays A field (w.game.memory address) before).ship.dead = false →
            ¬ Sliding A (plays A field (w.game.memory address) before).ship := by
  obtain ⟨rounds,untimed,same | same⟩ := tick_split A w address
  · rw [same]
    refine iff_of_true (events_agree untimed agrees) fun before after split => ?_
    exact absurd rfl (untimed .tick (by rw [split]; simp))
  · have kept : Rigged (plays A field (w.game.memory address) rounds).ship :=
      (rigged_seaworthy A).lasting.plays (fun played _ => sized_any played) rigged
    have parts := tick_agrees_iff (A := A) kept (events_agree untimed agrees)
    rw [same,plays_append]
    constructor
    · intro ticked before after split
      rcases Runs.split_last.mp split with ⟨rfl,_⟩ | ⟨rest,_,more⟩
      · exact parts.mp ticked
      · exact absurd rfl (untimed .tick (by rw [more]; simp))
    · intro still
      exact parts.mpr (still rounds [] rfl)

theorem step_agree_iff (served : Served (fun p => Rigged p.ship) w)
    (agree : ∀ address < w.game.allocated, Agrees (w.game.memory address)) (ran : w.step A event = .ok t) :
    (∀ address < t.game.allocated, Agrees (t.game.memory address)) ↔
      Registers (fun cw ch => Fitting A cw ∧ Fitting A ch) w event ∧ ∀ p, Moves A w event p → ¬ Sliding A p.ship := by
  by_cases tick : event = .tick
  · subst tick
    have silent : Registers (fun cw ch => Fitting A cw ∧ Fitting A ch) w .tick := fun _ _ _ _ _ asked => by cases asked
    have allocated : t.game.allocated = w.game.allocated := (tick_played ran).allocated
    rw [and_iff_right silent,allocated]
    constructor
    · rintro after p ⟨address,made,before,rest,split,rfl,quiet,alive⟩
      have here := after address made
      rw [step_plays served.book ran made,served.size,
        player_agrees_iff (served.players address made) (agree address made)] at here
      rw [served.size] at quiet alive ⊢
      exact here before rest split quiet alive
    · intro still address made
      rw [step_plays served.book ran made,served.size,
        player_agrees_iff (served.players address made) (agree address made)]
      intro before rest split quiet alive
      refine still _ ⟨address,made,before,rest,split,?_,quiet,alive⟩
      rw [served.size]
  · have unmoved : ∀ p, Moves A w event p → ¬ Sliding A p.ship := fun p moves => absurd (moves_tick moves) tick
    rw [and_iff_left unmoved]
    constructor
    · intro after s bytes beyond cw ch asked known
      obtain ⟨fresh,made⟩ := step_registered ran asked known
      have here := after _ fresh
      rw [made,served.size] at here
      exact (make_agrees_iff cw ch).mp here
    · intro registers address old
      by_cases known : address < w.game.allocated
      · rw [step_plays served.book ran known,served.size,eventsOf_request tick]
        exact events_agree (request_untimed w event address) (agree address known)
      · obtain ⟨cw,ch,fitting,made⟩ := step_made registers ran (Nat.le_of_not_lt known) old
        rw [made,served.size]
        exact (make_agrees_iff cw ch).mpr fitting

theorem agreed_make (A : Arith) (rand : Rand) : Served (fun p => Rigged p.ship) (World.make A rand) ∧
    ∀ address < (World.make A rand).game.allocated, Agrees ((World.make A rand).game.memory address) := by
  have fresh := Game.make_fresh A rand
  rw [← World.make_game A rand] at fresh
  refine ⟨served_make _ rand,fun address old => ?_⟩
  rw [fresh.allocated] at old
  exact absurd old (Nat.not_lt_zero _)

-- In a run the copies agree in every state exactly when every player is made for a fitting
-- window and no MoveShip slides the viewport.
theorem contexts_agree_iff (A : Arith) (rand : Rand) (history : List Event) :
    Runs.Always (World.step A) (fun w => ∀ address < w.game.allocated, Agrees (w.game.memory address)) (World.make A rand) history ↔
      Runs.Steps (World.step A) (fun w event => Registers (fun cw ch => Fitting A cw ∧ Fitting A ch) w event ∧
        ∀ p, Moves A w event p → ¬ Sliding A p.ship) (World.make A rand) history := by
  obtain ⟨start,agree⟩ := agreed_make A rand
  generalize World.make A rand = first at start agree
  refine Runs.always_iff_steps _ (fun w event t served ran => ?_) (fun w event t served agree ran => ?_) start agree history
  · exact served_step (rigged_seaworthy A).lasting served (windows_any w event) ran
  · exact step_agree_iff served agree ran

-- In exact arithmetic, with no window registered that is larger than the universe and the
-- odd pixel, it is the places and sizes of the ships before their moves that decide.
theorem registered_agree_iff (cos sin : ℚ → ℚ) (rand : Rand) {history : List Event}
    (small : Runs.Steps (World.step (.exact cos sin)) (Registers fun cw ch => cw.toNat ≤ 8193 ∧ ch.toNat ≤ 8193)
      (World.make (.exact cos sin) rand) history) :
    Runs.Always (World.step (.exact cos sin)) (fun w => ∀ address < w.game.allocated, Agrees (w.game.memory address))
        (World.make (.exact cos sin) rand) history ↔
      Runs.Steps (World.step (.exact cos sin)) (fun w event => ∀ p, Moves (.exact cos sin) w event p →
        ¬ (GivesWay p.ship.posX p.ship.ctxOX p.ship.ctxW ∨ GivesWay p.ship.posY p.ship.ctxOY p.ship.ctxH))
        (World.make (.exact cos sin) rand) history := by
  have whole : Scores.Whole (.exact cos sin) := fun _ _ => rfl
  obtain ⟨start,agree⟩ := agreed_make (.exact cos sin) rand
  generalize World.make (.exact cos sin) rand = first at start agree small
  refine Runs.always_iff_steps_among _ _ (fun w event t served _ ran => ?_) (fun w event t served few agree ran => ?_)
    start agree small
  · exact served_step (rigged_seaworthy _).lasting served (windows_any w event) ran
  · have fitting : Registers (fun cw ch => Fitting (.exact cos sin) cw ∧ Fitting (.exact cos sin) ch) w event := by
      intro s bytes beyond cw ch asked known
      obtain ⟨across,down⟩ := few s bytes beyond cw ch asked known
      exact ⟨fitting_small whole across,fitting_small whole down⟩
    rw [step_agree_iff served agree ran,and_iff_right fitting]
    apply forall_congr'
    intro p
    rw [Sliding,slides_exact,slides_exact]

-- The window becomes 300 by 300.
def narrowRequest : List UInt8 := [0xAB,0x06,0,0,0,0,1,44,1,44]

theorem narrow_decoded : Session.requested narrowRequest (fun _ => 0) = some (.resizeEvent 300 300) := rfl

theorem narrow_slides {p : Player} (starts : Starts p.ship) :
    Sliding .upright (play .upright field p (.resize 300 300)).ship := by
  have across : p.ship.posX = 4096 := congrArg Position.posX starts.middle
  have offset : (((play .upright field p (.resize 300 300)).ship.ctxOX).toNat : ℚ) = 3946 := by
    have start : ((play .upright field p (.resize 300 300)).ship.ctxOX).toNat = 4096 - 300 / 2 :=
      resized_offset (fun _ => 0) (fun _ => 1) (w := 300) (by decide)
    rw [start]
    norm_num
  apply Or.inl
  apply (slides_exact (fun _ => 0) (fun _ => 1)).mpr
  rw [GivesWay,offset]
  show (200 < p.ship.posX ∧ p.ship.posX < 3946 + 200) ∨ _
  rw [across]
  norm_num

theorem narrow_window_parts : ¬ Runs.Always (World.step .upright)
    (fun w => ∀ address < w.game.allocated, Agrees (w.game.memory address)) (World.make .upright .zeros)
      (joinEvents ++ [.onRead 0 (.message narrowRequest fun _ => 0),.tick]) := by
  intro always
  obtain ⟨first,join⟩ := joined .upright .zeros
  have start := joined_starts join
  obtain ⟨middle,resized,lone,game⟩ := LonePlayer.lone_plays (A := .upright) start.lone narrow_decoded rfl
  have mine : middle.game.memory 0 = play .upright field (first.game.memory 0) (.resize 300 300) := by
    rw [game,Game.setPlayer_self,start.size]
  have empty : middle.game.gUniverse.rockField.rocks = [] := by
    rw [game]
    exact start.empty
  have size : middle.game.gUniverse.toSize = field := by
    rw [game]
    exact start.size
  obtain ⟨last,ticked,_,_,drift⟩ := RestingShip.lone_drifts (A := .upright) lone empty
  have ran : Runs.run (World.step .upright) (World.make .upright .zeros)
      (joinEvents ++ [.onRead 0 (.message narrowRequest fun _ => 0),.tick]) = .ok last := by
    rw [Runs.run_append _ join.run,Runs.run_cons,resized,Runs.ok_bind,Runs.run_single]
    exact ticked
  have made : 0 < last.game.allocated := by
    rw [drift]
    show 0 < middle.game.allocated
    rw [game]
    exact start.made
  have agrees := always.last ran 0 made
  have rigged : Rigged (middle.game.memory 0).ship := by
    rw [mine]
    exact start.ship.afloat.rigged
  have before : Agrees (middle.game.memory 0) := by
    rw [mine]
    rfl
  have slides := narrow_slides start.ship
  rw [drift,Game.setPlayer_self,size,tick_agrees_iff rigged before,mine] at agrees
  exact agrees start.ship.quiet start.ship.alive slides

end Geoff.Contexts
