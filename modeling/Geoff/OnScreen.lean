import Geoff.LonePlayer
import Geoff.Viewport

-- A ship against its player's viewport after each MoveShip, in exact arithmetic: where the
-- guards of the slide near the edges of the universe leave it out of sight.
namespace Geoff.OnScreen
open Consts Collision PlayerEvents ShipBounds Viewport ShipRuns LonePlayer RestingShip World

structure Rig where
  radius : ℚ
  maxDeltaV : ℚ
  viewportMargin : ℚ
  slideViewport : Bool
  wrapViewport : Bool
  enforceBoundaries : Bool

def rig (s : Ship) : Rig := ⟨s.radius,s.maxDeltaV,s.viewportMargin,s.slideViewport,s.wrapViewport,s.enforceBoundaries⟩

def Rigged (s : Ship) : Prop := rig s = ⟨10,20,200,true,false,true⟩

structure Sails (pos delta : ℚ) (offset window : UInt16) : Prop where
  walls : 10 ≤ pos ∧ pos ≤ 8182
  slow : -20 ≤ delta ∧ delta ≤ 20
  wide : 400 ≤ window.toNat
  framed : offset.toNat + window.toNat ≤ 8192

def Shown (pos : ℚ) (offset window : UInt16) : Prop := (offset.toNat : ℚ) ≤ pos ∧ pos ≤ offset.toNat + window.toNat

-- Within the margin of a wall the viewport does not slide. There the ship leaves it where
-- an end is away from the wall and the ship comes to lie behind that end.
def Slips (pos delta : ℚ) (offset window : UInt16) : Prop :=
  (pos ≤ 200 ∧ 10 < offset.toNat ∧ pos + delta < offset.toNat) ∨
    (7992 ≤ pos ∧ offset.toNat + window.toNat < 8182 ∧ (offset.toNat : ℚ) + window.toNat < pos + delta)

section Axis
variable (cos sin : ℚ → ℚ)

def slid (pos : ℚ) (offset window : UInt16) : UInt16 := Ship.slideAxis (.exact cos sin) 8192 200 pos offset window

def moved (pos delta : ℚ) : ℚ × ℚ := Ship.enforceAxis (.exact cos sin) 8192 10 (pos + delta) delta

variable {pos delta : ℚ} {offset window : UInt16}

theorem slid_left (near : pos < offset.toNat + 200) (inner : 200 < pos) :
    slid cos sin pos offset window = (Arith.exact cos sin).toUint16 (pos - 200) := by
  unfold slid Ship.slideAxis
  simp only [show ∀ x, (Arith.exact cos sin).fl x = x from fun _ => rfl]
  rw [if_pos near]
  exact if_pos inner

theorem slid_right (apart : offset.toNat + 200 ≤ pos) (past : offset.toNat + window.toNat - 200 < pos) (inner : pos < 7992) :
    slid cos sin pos offset window = (Arith.exact cos sin).toUint16 (pos - window.toNat + 200) := by
  unfold slid Ship.slideAxis
  simp only [show ∀ x, (Arith.exact cos sin).fl x = x from fun _ => rfl]
  rw [if_neg (not_lt.mpr apart),if_pos past]
  apply if_pos
  linarith

theorem slid_still (left : pos < offset.toNat + 200 → pos ≤ 200)
    (right : offset.toNat + 200 ≤ pos → offset.toNat + window.toNat - 200 < pos → 7992 ≤ pos) :
    slid cos sin pos offset window = offset := by
  unfold slid Ship.slideAxis
  simp only [show ∀ x, (Arith.exact cos sin).fl x = x from fun _ => rfl]
  split
  · rename_i near
    exact if_neg (not_lt.mpr (left near))
  · rename_i apart
    split
    · rename_i past
      have wall := right (not_lt.mp apart) past
      apply if_neg
      linarith
    · rfl

theorem slide_cases (pos : ℚ) (offset window : UInt16) :
    (pos < offset.toNat + 200 ∧ 200 < pos) ∨
      (offset.toNat + 200 ≤ pos ∧ offset.toNat + window.toNat - 200 < pos ∧ pos < 7992) ∨
        (pos < offset.toNat + 200 → pos ≤ 200) ∧
          (offset.toNat + 200 ≤ pos → offset.toNat + window.toNat - 200 < pos → 7992 ≤ pos) := by
  by_cases left : pos < offset.toNat + 200 ∧ 200 < pos
  · exact .inl left
  · by_cases right : offset.toNat + 200 ≤ pos ∧ offset.toNat + window.toNat - 200 < pos ∧ pos < 7992
    · exact .inr (.inl right)
    · apply Or.inr
      apply Or.inr
      constructor
      · intro near
        exact not_lt.mp fun inner => left ⟨near,inner⟩
      · intro apart past
        exact not_lt.mp fun inner => right ⟨apart,past,inner⟩

theorem slid_edge (sails : Sails pos delta offset window) (edge : pos ≤ 200 ∨ 7992 ≤ pos) :
    slid cos sin pos offset window = offset := by
  have wide : (400 : ℚ) ≤ window.toNat := by exact_mod_cast sails.wide
  have framed : (offset.toNat : ℚ) + window.toNat ≤ 8192 := by exact_mod_cast sails.framed
  have low : (0 : ℚ) ≤ offset.toNat := Nat.cast_nonneg _
  apply slid_still
  · intro left
    rcases edge with near | far
    · exact near
    · linarith
  · intro apart right
    rcases edge with near | far
    · linarith
    · exact far

-- Between the margins the slide leaves the margin on both sides, but for the fraction.
theorem slid_middle (sails : Sails pos delta offset window) (low : 200 < pos) (high : pos < 7992) :
    (slid cos sin pos offset window).toNat ≤ pos - 200 ∧ pos + 199 < (slid cos sin pos offset window).toNat + window.toNat := by
  have wide : (400 : ℚ) ≤ window.toNat := by exact_mod_cast sails.wide
  have framed : (offset.toNat : ℚ) + window.toNat ≤ 8192 := by exact_mod_cast sails.framed
  have first : (0 : ℚ) ≤ offset.toNat := Nat.cast_nonneg _
  rcases slide_cases pos offset window with ⟨near,inner⟩ | ⟨apart,past,inner⟩ | ⟨left,right⟩
  · obtain ⟨below,above⟩ := toUint16_floor cos sin (x := pos - 200) (by linarith) (by linarith)
    rw [slid_left cos sin near inner]
    constructor <;> linarith
  · obtain ⟨below,above⟩ := toUint16_floor cos sin (x := pos - window.toNat + 200) (by linarith) (by linarith)
    rw [slid_right cos sin apart past inner]
    constructor <;> linarith
  · rw [slid_still cos sin left right]
    have apart : offset.toNat + 200 ≤ pos := not_lt.mp fun near => absurd low (not_lt.mpr (left near))
    have reach : pos ≤ offset.toNat + window.toNat - 200 := not_lt.mp fun past => absurd high (not_lt.mpr (right apart past))
    constructor <;> linarith

theorem moved_cases (pos delta : ℚ) : (pos + delta < 10 ∧ moved cos sin pos delta = (10,0)) ∨
    (8182 ≤ pos + delta ∧ moved cos sin pos delta = (8182,0)) ∨
      (10 ≤ pos + delta ∧ pos + delta < 8182) ∧ moved cos sin pos delta = (pos + delta,delta) := by
  unfold moved Ship.enforceAxis
  simp only [show ∀ x, (Arith.exact cos sin).fl x = x from fun _ => rfl]
  split
  · rename_i left
    exact .inl ⟨left,rfl⟩
  · rename_i past
    split
    · rename_i right
      exact .inr (.inl ⟨by linarith,by norm_num⟩)
    · rename_i before
      exact .inr (.inr ⟨⟨by linarith,by linarith⟩,rfl⟩)

theorem sails_moved (sails : Sails pos delta offset window) :
    Sails (moved cos sin pos delta).1 (moved cos sin pos delta).2 (slid cos sin pos offset window) window := by
  have framed := (slideAxis_framed cos sin 200 pos sails.framed).1
  rcases moved_cases cos sin pos delta with ⟨_,same⟩ | ⟨_,same⟩ | ⟨⟨low,high⟩,same⟩
  · rw [same]
    exact ⟨by norm_num,by norm_num,sails.wide,framed⟩
  · rw [same]
    exact ⟨by norm_num,by norm_num,sails.wide,framed⟩
  · rw [same]
    exact ⟨⟨low,high.le⟩,sails.slow,sails.wide,framed⟩

theorem shown_iff (sails : Sails pos delta offset window) :
    Shown (moved cos sin pos delta).1 (slid cos sin pos offset window) window ↔ ¬ Slips pos delta offset window := by
  obtain ⟨low,high⟩ := sails.walls
  obtain ⟨back,forth⟩ := sails.slow
  have wide : (400 : ℚ) ≤ window.toNat := by exact_mod_cast sails.wide
  have framed : (offset.toNat : ℚ) + window.toNat ≤ 8192 := by exact_mod_cast sails.framed
  have first : (0 : ℚ) ≤ offset.toNat := Nat.cast_nonneg _
  have start : 10 < offset.toNat ↔ (10 : ℚ) < offset.toNat := by exact_mod_cast Iff.rfl
  have stop : offset.toNat + window.toNat < 8182 ↔ (offset.toNat : ℚ) + window.toNat < 8182 := by exact_mod_cast Iff.rfl
  unfold Shown Slips
  rw [start,stop]
  rcases le_or_gt pos 200 with near | past
  · -- at the left wall: the viewport stays, and only its start may be passed
    have inner : ¬ 7992 ≤ pos := by linarith
    rw [slid_edge cos sin sails (.inl near)]
    simp only [near,inner,true_and,false_and,or_false,not_and,not_lt]
    rcases moved_cases cos sin pos delta with ⟨wall,same⟩ | ⟨wall,same⟩ | ⟨⟨bottom,top⟩,same⟩
    · rw [same]
      constructor
      · rintro ⟨shown,_⟩ late
        linarith
      · intro reached
        refine ⟨not_lt.mp fun late => ?_,by linarith⟩
        have passed := reached late
        linarith
    · linarith
    · rw [same]
      constructor
      · rintro ⟨shown,_⟩ _
        exact shown
      · intro reached
        refine ⟨not_lt.mp fun late => ?_,by linarith⟩
        have passed := reached (by linarith)
        linarith
  · have outer : ¬ pos ≤ 200 := not_le.mpr past
    rcases lt_or_ge pos 7992 with between | far
    · obtain ⟨below,above⟩ := slid_middle cos sin sails past between
      have inner : ¬ 7992 ≤ pos := not_le.mpr between
      simp only [outer,inner,false_and,or_false,not_false_iff,iff_true]
      rcases moved_cases cos sin pos delta with ⟨wall,same⟩ | ⟨wall,same⟩ | ⟨⟨bottom,top⟩,same⟩
      · linarith
      · linarith
      · rw [same]
        constructor <;> linarith
    · -- at the right wall: only its end may be passed
      rw [slid_edge cos sin sails (.inr far)]
      simp only [outer,far,true_and,false_and,false_or,not_and,not_lt]
      rcases moved_cases cos sin pos delta with ⟨wall,same⟩ | ⟨wall,same⟩ | ⟨⟨bottom,top⟩,same⟩
      · linarith
      · rw [same]
        constructor
        · rintro ⟨_,shown⟩ early
          linarith
        · intro reached
          refine ⟨by linarith,not_lt.mp fun early => ?_⟩
          have passed := reached early
          linarith
      · rw [same]
        constructor
        · rintro ⟨_,shown⟩ _
          exact shown
        · intro reached
          refine ⟨by linarith,not_lt.mp fun early => ?_⟩
          have passed := reached (by linarith)
          linarith

end Axis

variable {A : Arith}

def driven (thrusting : Bool) (aim delta : ℚ) : ℚ :=
  if thrusting then max (-20) (min 20 (delta + 10 * aim / 60)) else delta - friction * delta / 60

def heading (cos sin : ℚ → ℚ) (s : Ship) : Velocity :=
  ⟨driven s.thrusting (cos s.angle) s.deltaX,driven s.thrusting (-sin s.angle) s.deltaY⟩

structure Afloat (s : Ship) : Prop where
  rigged : Rigged s
  across : Sails s.posX s.deltaX s.ctxOX s.ctxW
  down : Sails s.posY s.deltaY s.ctxOY s.ctxH

def InView (s : Ship) : Prop := Shown s.posX s.ctxOX s.ctxW ∧ Shown s.posY s.ctxOY s.ctxH

def Slipping (cos sin : ℚ → ℚ) (s : Ship) : Prop :=
  Slips s.posX (heading cos sin s).deltaX s.ctxOX s.ctxW ∨ Slips s.posY (heading cos sin s).deltaY s.ctxOY s.ctxH

def course (s : Ship) : Rig × Context × Position × Velocity := (rig s,s.toContext,s.toPosition,s.toVelocity)

theorem Afloat.same {s s' : Ship} (afloat : Afloat s) (same : course s' = course s) : Afloat s' := by
  simp only [course,Prod.mk.injEq] at same
  obtain ⟨rigs,context,place,velocity⟩ := same
  refine ⟨rigs.trans afloat.rigged,?_,?_⟩
  · rw [context,place,velocity]
    exact afloat.across
  · rw [context,place,velocity]
    exact afloat.down

theorem Sails.stopped {pos delta : ℚ} {offset window : UInt16} (sails : Sails pos delta offset window) :
    Sails pos 0 offset window := {sails with slow := by norm_num}

theorem Sails.centred {pos delta : ℚ} {offset window : UInt16} (sails : Sails pos delta offset window) :
    Sails (offset.toNat + (window / 2).toNat) 0 offset window := by
  have wide := sails.wide
  have framed := sails.framed
  refine ⟨?_,by norm_num,wide,framed⟩
  rw [half_toNat]
  constructor
  · exact_mod_cast (by omega : 10 ≤ offset.toNat + window.toNat / 2)
  · exact_mod_cast (by omega : offset.toNat + window.toNat / 2 ≤ 8182)

theorem tickEvent_quiet {s : Ship} {u : Size} (quiet : (s.moveShip A u).exploding = false) :
    course (s.tickEvent A u) = course (s.moveShip A u) ∧ (s.tickEvent A u).thrusting = (s.moveShip A u).thrusting ∧
      (s.tickEvent A u).exploding = false ∧ (s.tickEvent A u).dead = (s.moveShip A u).dead := by
  simp only [Ship.tickEvent]
  generalize s.moveShip A u = m at quiet
  rw [if_neg (by rw [quiet]; exact Bool.false_ne_true)]
  split
  · split
    · exact ⟨rfl,rfl,quiet,rfl⟩
    · obtain ⟨visible,blinkTime,blinkNum,blinked⟩ := Ship.blink_writes A
        {m with gun := m.gun.tickEvent A u, invDuration := A.fl (m.invDuration - A.fl (1 / fps))}
      rw [blinked]
      exact ⟨rfl,rfl,quiet,rfl⟩
  · exact ⟨rfl,rfl,quiet,rfl⟩

theorem steered_rig {s s' : Ship} (steered : s.Steered s') : rig s' = rig s := by
  obtain ⟨_,_,_,_,_,rfl⟩ := steered
  rfl

section Exact
variable (cos sin : ℚ → ℚ)

theorem driven_slow (thrusting : Bool) (aim : ℚ) {delta : ℚ} (slow : -20 ≤ delta ∧ delta ≤ 20) :
    -20 ≤ driven thrusting aim delta ∧ driven thrusting aim delta ≤ 20 := by
  obtain ⟨back,forth⟩ := slow
  unfold driven
  split
  · exact ⟨le_max_left ..,max_le (by norm_num) (min_le_left ..)⟩
  · norm_num [friction]
    constructor <;> linarith

theorem limitDelta_clamp (delta : ℚ) : Ship.limitDelta 20 delta = max (-20) (min 20 delta) := by
  unfold Ship.limitDelta
  dsimp only
  split
  · rename_i fast
    rw [min_eq_left fast.le,max_eq_right (by norm_num),if_neg (by norm_num)]
  · rename_i slow
    rw [min_eq_right (not_lt.mp slow)]
    split
    · rename_i back
      rw [max_eq_left back.le]
    · rename_i forth
      rw [max_eq_right (not_lt.mp forth)]

theorem accelerate_heading {s : Ship} (rigged : Rigged s) :
    ((s.rotate (.exact cos sin)).accelerate (.exact cos sin)).toVelocity = heading cos sin s := by
  have most : s.maxDeltaV = 20 := congrArg Rig.maxDeltaV rigged
  have limit : (s.rotate (.exact cos sin)).maxDeltaV = 20 := most
  have same : (s.rotate (.exact cos sin)).thrusting = s.thrusting := rfl
  unfold Ship.accelerate heading driven
  rw [same,limit]
  split
  · have across : shipThrust * cos s.angle / fps = 10 * cos s.angle / 60 := rfl
    have down : -shipThrust * sin s.angle / fps = 10 * -sin s.angle / 60 := by
      rw [shipThrust,fps]
      ring
    show (⟨Ship.limitDelta 20 (s.deltaX + shipThrust * cos s.angle / fps),
      Ship.limitDelta 20 (s.deltaY + -shipThrust * sin s.angle / fps)⟩ : Velocity) = _
    rw [across,down,limitDelta_clamp,limitDelta_clamp]
  · rfl

structure Moved (s : Ship) (v : Velocity) (s' : Ship) : Prop where
  context : s'.toContext =
    ⟨s.ctxW,s.ctxH,slid cos sin s.posX s.ctxOX s.ctxW,slid cos sin s.posY s.ctxOY s.ctxH⟩
  place : s'.toPosition = ⟨(moved cos sin s.posX v.deltaX).1,(moved cos sin s.posY v.deltaY).1⟩
  velocity : s'.toVelocity = ⟨(moved cos sin s.posX v.deltaX).2,(moved cos sin s.posY v.deltaY).2⟩

theorem slide_slid {s : Ship} (slides : s.slideViewport = true) (margin : s.viewportMargin = Consts.viewportMargin) :
    s.slide (.exact cos sin) field =
      {s with ctxOX := slid cos sin s.posX s.ctxOX s.ctxW, ctxOY := slid cos sin s.posY s.ctxOY s.ctxH} := by
  rw [Ship.slide,if_pos slides,margin]
  rfl

theorem settled_moved {s : Ship} (rigged : Rigged s) : Moved cos sin s s.toVelocity
    (((((s.slide (.exact cos sin) field).wrapAngle (.exact cos sin)).advance (.exact cos sin)).enforce (.exact cos sin)
      field).wrap (.exact cos sin)) := by
  simp only [Rigged,rig,Rig.mk.injEq] at rigged
  obtain ⟨radius,_,margin,slides,wraps,walls⟩ := rigged
  rw [slide_slid cos sin slides margin]
  simp only [Ship.wrap,Ship.enforce,Ship.advance,Ship.wrapAngle,walls,wraps,radius,if_true,Bool.false_eq_true,if_false]
  exact ⟨rfl,rfl,rfl⟩

theorem moveShip_moved {s : Ship} (rigged : Rigged s) (moves : s.exploding = false) (alive : s.dead = false) :
    Moved cos sin s (heading cos sin s) (s.moveShip (.exact cos sin) field) := by
  have turn := (s.rotate_steered (.exact cos sin)).trans (Ship.accelerate_steered (.exact cos sin) _)
  have same : Rigged ((s.rotate (.exact cos sin)).accelerate (.exact cos sin)) := (steered_rig turn).trans rigged
  obtain ⟨contexts,places,velocities⟩ := settled_moved cos sin same
  rw [turned_context,turned_place] at contexts
  rw [turned_place,accelerate_heading cos sin rigged] at places velocities
  rw [Ship.moveShip,if_neg (by simp [moves,alive])]
  exact ⟨contexts,places,velocities⟩

theorem moveShip_afloat {s : Ship} (afloat : Afloat s) (moves : s.exploding = false) (alive : s.dead = false) :
    Afloat (s.moveShip (.exact cos sin) field) ∧
      (InView (s.moveShip (.exact cos sin) field) ↔ ¬ Slipping cos sin s) := by
  obtain ⟨rigged,across,down⟩ := afloat
  obtain ⟨context,place,velocity⟩ := moveShip_moved cos sin rigged moves alive
  have x : Sails s.posX (heading cos sin s).deltaX s.ctxOX s.ctxW := {across with slow := driven_slow _ _ across.slow}
  have y : Sails s.posY (heading cos sin s).deltaY s.ctxOY s.ctxH := {down with slow := driven_slow _ _ down.slow}
  constructor
  · refine ⟨(steered_rig (s.moveShip_steered _ field)).trans rigged,?_,?_⟩
    · rw [context,place,velocity]
      exact sails_moved cos sin x
    · rw [context,place,velocity]
      exact sails_moved cos sin y
  · unfold InView Slipping
    rw [context,place,shown_iff cos sin x,shown_iff cos sin y,not_or]

-- Wider and higher than the two margins together, and no larger than the universe.
def Screen (w h : UInt16) : Prop := (400 ≤ w.toNat ∧ w.toNat ≤ 8192) ∧ 400 ≤ h.toNat ∧ h.toNat ≤ 8192

theorem make_sails {w : UInt16} (wide : 400 ≤ w.toNat) (fits : w.toNat ≤ 8192) :
    Sails (8192 / 2) 0 ((Arith.exact cos sin).toUint16 (8192 / 2 - (w / 2).toNat)) w := by
  refine ⟨by norm_num,by norm_num,wide,?_⟩
  rw [made_offset cos sin fits]
  omega

theorem Sails.resized {pos delta : ℚ} {offset window w : UInt16} (sails : Sails pos delta offset window)
    (wide : 400 ≤ w.toNat) (fits : w.toNat ≤ 8192) :
    Sails pos delta ((Arith.exact cos sin).toUint16 (8192 / 2) - w / 2) w := by
  refine ⟨sails.walls,sails.slow,wide,?_⟩
  rw [resized_offset cos sin fits]
  omega

theorem afloat_seaworthy : Seaworthy (.exact cos sin) Screen Afloat where
  made := by
    rintro cw ch ⟨⟨wide,fits⟩,high,fits'⟩
    refine ⟨?_,make_sails cos sin wide fits,make_sails cos sin high fits'⟩
    norm_num [Rigged,rig,Player.make,Ship.make,shipSize,shipMaxDeltaV,Consts.viewportMargin]
  trimmed := by
    intro s s' same afloat
    have seen : course (trim s') = course (trim s) := congrArg course same
    exact afloat.same seen
  resized := by
    rintro s w h ⟨⟨wide,fits⟩,high,fits'⟩ afloat
    exact ⟨afloat.rigged,afloat.across.resized cos sin wide fits,afloat.down.resized cos sin high fits'⟩
  stopped := fun s afloat => ⟨afloat.rigged,afloat.across.stopped,afloat.down.stopped⟩
  reborn := by
    intro s afloat left
    unfold Ship.newLife
    rw [if_pos left]
    exact ⟨afloat.rigged,afloat.across.centred,afloat.down.centred⟩
  moved := fun s afloat quiet alive => (moveShip_afloat cos sin afloat quiet alive).1
  shielded := by
    intro s afloat _
    obtain ⟨_,_,_,_,_,shielded⟩ := shield_writes (A := .exact cos sin) s
    rw [shielded]
    exact afloat.same rfl

-- The MoveShips of a step: the player's states when the loop over the sessions comes to
-- it with a ship that is neither exploding nor dead.
def Moves (A : Arith) (w : World) (event : Event) (p : Player) : Prop :=
  ∃ address < w.game.allocated, ∃ before after, w.eventsOf A event address = before ++ .tick :: after ∧
    p = plays A w.game.gUniverse.toSize (w.game.memory address) before ∧ p.ship.exploding = false ∧ p.ship.dead = false

theorem moves_lasting {ok : UInt16 → UInt16 → Prop} {good : Player → Prop} (lasting : Lasting A ok good) {w : World}
    {event : Event} {p : Player} (served : Served good w) (windows : Windows ok w event) (moves : Moves A w event p) :
    good p := by
  obtain ⟨address,made,before,after,split,same,_⟩ := moves
  have sized := before_sized windows split
  rw [same,served.size]
  exact lasting.plays sized (served.players address made)

-- In a run with windows of these sizes every ship is in view after each of its moves
-- exactly when none of the moves lets it slip.
theorem ship_in_view_iff {rand : Rand} {history : List Event}
    (windows : Runs.Steps (World.step (.exact cos sin)) (Windows Screen) (World.make (.exact cos sin) rand) history) :
    Runs.Steps (World.step (.exact cos sin)) (fun w event => ∀ p, Moves (.exact cos sin) w event p →
        InView (p.ship.moveShip (.exact cos sin) w.game.gUniverse.toSize)) (World.make (.exact cos sin) rand) history ↔
      Runs.Steps (World.step (.exact cos sin)) (fun w event => ∀ p, Moves (.exact cos sin) w event p →
        ¬ Slipping cos sin p.ship) (World.make (.exact cos sin) rand) history := by
  have lasting := (afloat_seaworthy cos sin).lasting
  have start : Served (fun p => Afloat p.ship) (World.make (.exact cos sin) rand) := served_make _ rand
  generalize World.make (.exact cos sin) rand = first at start windows
  refine Runs.steps_iff_among (fun _ _ _ served windows one => served_step lasting served windows one)
    (fun w event t served windows one => ?_) start windows
  refine forall_congr' fun p => imp_congr_right fun moves => ?_
  have afloat := moves_lasting lasting served windows moves
  obtain ⟨_,_,_,_,_,_,quiet,alive⟩ := moves
  rw [served.size]
  exact (moveShip_afloat cos sin afloat quiet alive).2

theorem moves_tick {w : World} {event : Event} {p : Player} (moves : Moves A w event p) : event = .tick := by
  obtain ⟨address,_,before,after,split,_⟩ := moves
  by_contra other
  have ticked : .tick ∈ w.requestEvents event address := by
    rw [← eventsOf_request (A := A) other,split]
    simp
  exact request_untimed w event address .tick ticked rfl

end Exact

structure Starts (s : Ship) : Prop where
  afloat : Afloat s
  quiet : s.exploding = false
  alive : s.dead = false
  still : s.deltaY = 0
  middle : s.toPosition = ⟨4096,4096⟩

theorem joined_starts {w : World} (join : Joined .upright .zeros w) : Solo Starts w := by
  refine solo_joined join ⟨(afloat_seaworthy (fun _ => 0) (fun _ => 1)).made 800 600 ?_,rfl,rfl,rfl,?_⟩
  · exact ⟨⟨by decide,by decide⟩,by decide,by decide⟩
  · norm_num [Player.make,Ship.make,field,Arith.upright,Arith.exact]

theorem starts_shown {s : Ship} (starts : Starts s) : ¬ Slipping (fun _ => 0) (fun _ => 1) s := by
  have across : s.posX = 4096 := congrArg Position.posX starts.middle
  have down : s.posY = 4096 := congrArg Position.posY starts.middle
  unfold Slipping Slips
  rw [across,down]
  norm_num

theorem join_windows : ∀ event ∈ joinEvents, ∀ w, Windows Screen w event :=
  windows_join (show Screen 800 600 from ⟨⟨by decide,by decide⟩,by decide,by decide⟩)

theorem first_move_in_view : Runs.Steps (World.step .upright) (fun w event => ∀ p, Moves .upright w event p →
    InView (p.ship.moveShip .upright w.game.gUniverse.toSize)) (World.make .upright .zeros) (joinEvents ++ [.tick]) := by
  obtain ⟨first,join⟩ := joined .upright .zeros
  have sized : ∀ event ∈ joinEvents ++ [.tick], ∀ w, Windows Screen w event :=
    List.forall_mem_append.mpr ⟨join_windows,fun event member => by
      rw [List.mem_singleton.mp member]
      exact windows_tick Screen⟩
  refine (ship_in_view_iff (fun _ => 0) (fun _ => 1) (Runs.steps_each sized _)).mpr
    (Runs.steps_append (Runs.steps_each (fun event member w p moves => ?_) _) fun w ran => ?_)
  · rw [moves_tick moves] at member
    simp [joinEvents] at member
  · cases join.run.symm.trans ran
    have start := joined_starts join
    obtain ⟨next,ticked,_⟩ := lone_drifts (A := .upright) start.lone start.empty
    refine (Runs.steps_cons ticked).mpr ⟨?_,trivial⟩
    rintro p ⟨address,_,before,after,split,rfl,_⟩
    obtain ⟨rfl,same⟩ := solo_moves (A := .upright) start split
    have shown := starts_shown start.ship
    rw [← same] at shown
    exact shown

structure Climbs (s : Ship) : Prop where
  afloat : Afloat s
  thrusting : s.thrusting = true
  quiet : s.exploding = false
  alive : s.dead = false
  rising : s.deltaY ≤ 0
  below : 180 ≤ s.posY

def upward (s : Ship) : ℚ := (heading (fun _ => 0) (fun _ => 1) s).deltaY

theorem heading_up {s : Ship} (climbs : Climbs s) : -20 ≤ upward s ∧ upward s ≤ -(1 / 6) := by
  have rising := climbs.rising
  have thrust : upward s = max (-20) (min 20 (s.deltaY + 10 * -1 / 60)) := if_pos climbs.thrusting
  rw [thrust]
  refine ⟨le_max_left ..,max_le (by norm_num) (le_trans (min_le_right ..) ?_)⟩
  linarith

theorem climbs_tick {s : Ship} (climbs : Climbs s) (past : 200 < s.posY) :
    Climbs (s.tickEvent .upright field) ∧ (s.tickEvent .upright field).posY ≤ s.posY - 1 / 6 := by
  obtain ⟨slow,rises⟩ := heading_up climbs
  obtain ⟨afloat,thrusting,quiet,alive,_,_⟩ := climbs
  have kept : (s.moveShip .upright field).thrusting = true ∧ (s.moveShip .upright field).exploding = false ∧
      (s.moveShip .upright field).dead = false := by
    obtain ⟨_,_,_,_,_,same⟩ := s.moveShip_steered .upright field
    rw [same]
    exact ⟨thrusting,quiet,alive⟩
  have here := (moveShip_moved (fun _ => 0) (fun _ => 1) afloat.rigged quiet alive)
  have down : moved (fun _ => 0) (fun _ => 1) s.posY (upward s) =
      (s.posY + upward s,upward s) := by
    have top := afloat.down.walls.2
    rcases moved_cases (fun _ => 0) (fun _ => 1) s.posY (upward s) with ⟨wall,_⟩ | ⟨wall,_⟩ | ⟨_,same⟩
    · linarith
    · linarith
    · exact same
  have place : (s.moveShip .upright field).posY = s.posY + upward s :=
    (congrArg Position.posY here.place).trans (congrArg Prod.fst down)
  have speed : (s.moveShip .upright field).deltaY = upward s :=
    (congrArg Velocity.deltaY here.velocity).trans (congrArg Prod.snd down)
  obtain ⟨same,thrust,quiet',alive'⟩ := tickEvent_quiet kept.2.1
  simp only [course,Prod.mk.injEq] at same
  have placed : (s.tickEvent .upright field).posY = s.posY + upward s :=
    (congrArg Position.posY same.2.2.1).trans place
  have speeds : (s.tickEvent .upright field).deltaY = upward s :=
    (congrArg Velocity.deltaY same.2.2.2).trans speed
  have floats := (afloat_seaworthy (fun _ => 0) (fun _ => 1)).ticked afloat alive
  refine ⟨⟨floats,thrust.trans kept.1,quiet',alive'.trans kept.2.2,?_,?_⟩,?_⟩
  · linarith
  · linarith
  · linarith

structure Stranded (s : Ship) : Prop where
  afloat : Afloat s
  quiet : s.exploding = false
  alive : s.dead = false
  top : s.posY ≤ 200
  away : s.ctxOY.toNat = 3596

theorem stranded_slips {s : Ship} (stranded : Stranded s) : ¬ InView (s.moveShip .upright field) := by
  obtain ⟨afloat,quiet,alive,top,away⟩ := stranded
  have start : (s.ctxOY.toNat : ℚ) = 3596 := by exact_mod_cast away
  have slow : upward s ≤ 20 := (driven_slow s.thrusting (-1) afloat.down.slow).2
  rw [show Arith.upright = .exact (fun _ => 0) (fun _ => 1) from rfl,
    (moveShip_afloat (fun _ => 0) (fun _ => 1) afloat quiet alive).2,not_not]
  refine .inr (.inl ⟨top,by omega,?_⟩)
  rw [start]
  have reach : s.posY + upward s < 3596 := by linarith
  exact reach

def Climbing (n : Nat) (s : Ship) : Prop := Climbs s ∧ s.posY ≤ 200 + n / 6

theorem climbing_tick {n : Nat} {s : Ship} (climbing : Climbing (n + 1) s ∧ 200 < s.posY) :
    Climbing n (s.tickEvent .upright field) := by
  obtain ⟨⟨climbs,bound⟩,past⟩ := climbing
  obtain ⟨still,up⟩ := climbs_tick climbs past
  push_cast at bound
  exact ⟨still,by linarith⟩

theorem climb_ends (n : Nat) {w : World} (solo : Solo (Climbing n) w) :
    ∃ t, Leads .upright w t ∧ Solo (Climbing 0) t := by
  induction n generalizing w with
  | zero => exact ⟨w,leads_refl _ w,solo⟩
  | succ n ih =>
    rcases le_or_gt (w.game.memory 0).ship.posY 200 with there | past
    · exact ⟨w,leads_refl _ w,{solo with ship := ⟨solo.ship.1,by simpa using there⟩}⟩
    · have below : Solo (fun s => Climbing (n + 1) s ∧ 200 < s.posY) w := {solo with ship := ⟨solo.ship,past⟩}
      obtain ⟨next,ticked,solo⟩ := solo_ticks (Climbing n) below (fun _ phase => phase.1.1.alive) fun _ => climbing_tick
      obtain ⟨t,more,ended⟩ := ih solo
      exact ⟨t,leads_next ticked more,ended⟩

-- The up key goes down; the window becomes 1000 by 1000.
def thrustRequest : List UInt8 := [0xAB,0x04,1,38]

def resizeRequest : List UInt8 := [0xAB,0x06,0,0,0,0,3,232,3,232]

theorem thrust_decoded : Session.requested thrustRequest (fun _ => 0) = some (.keyEvent 38 true) := rfl

theorem resize_decoded : Session.requested resizeRequest (fun _ => 0) = some (.resizeEvent 1000 1000) := rfl

theorem thrust_climbs (p : Player) (starts : Starts p.ship) : Climbing 23376 (play .upright field p (.key 38 true)).ship := by
  obtain ⟨afloat,quiet,alive,still,middle⟩ := starts
  have same : (play .upright field p (.key 38 true)).ship = {p.ship with thrusting := true} := by
    have keyed : p.ship.keyEvent .upright 38 true = {p.ship with thrusting := true} := rfl
    simp only [play,Player.keyEvent,keyed,alive,Bool.false_eq_true,if_false]
    split <;> rfl
  rw [same]
  refine ⟨⟨afloat.same rfl,rfl,quiet,alive,still.le,?_⟩,?_⟩
  · have high : p.ship.posY = 4096 := congrArg Position.posY middle
    show (180 : ℚ) ≤ p.ship.posY
    rw [high]
    norm_num
  · have high : p.ship.posY = 4096 := congrArg Position.posY middle
    show p.ship.posY ≤ _
    rw [high]
    norm_num

theorem resize_strands (p : Player) (climbed : Climbing 0 p.ship) :
    Stranded (play .upright field p (.resize 1000 1000)).ship := by
  obtain ⟨climbs,top⟩ := climbed
  have top : p.ship.posY ≤ 200 := by simpa using top
  have wide : Screen 1000 1000 := ⟨⟨by decide,by decide⟩,by decide,by decide⟩
  refine ⟨(afloat_seaworthy (fun _ => 0) (fun _ => 1)).resized p.ship 1000 1000 wide climbs.afloat,climbs.quiet,
    climbs.alive,top,?_⟩
  exact resized_offset (fun _ => 0) (fun _ => 1) (w := 1000) (by decide)

-- The ship has flown to the top with the viewport behind it. The resize takes the
-- viewport back to the middle of the universe, and no MoveShip fetches it again.
theorem ship_out_of_view : ∃ history,
    Runs.Steps (World.step .upright) (Windows Screen) (World.make .upright .zeros) history ∧
      ¬ Runs.Steps (World.step .upright) (fun w event => ∀ p, Moves .upright w event p →
        InView (p.ship.moveShip .upright w.game.gUniverse.toSize)) (World.make .upright .zeros) history := by
  obtain ⟨first,join⟩ := joined .upright .zeros
  have start := joined_starts join
  obtain ⟨keyed,pressed,climbing⟩ := solo_plays (Climbing 23376) start thrust_decoded rfl thrust_climbs
  obtain ⟨top,⟨n,ticks⟩,climbed⟩ := climb_ends 23376 climbing
  obtain ⟨last,resized,stranded⟩ := solo_plays Stranded climbed resize_decoded rfl resize_strands
  obtain ⟨after,moved,_⟩ := lone_drifts (A := .upright) stranded.lone stranded.empty
  have before : Runs.run (World.step .upright) (World.make .upright .zeros)
      (joinEvents ++ (.onRead 0 (.message thrustRequest fun _ => 0) :: (List.replicate n .tick ++
        [.onRead 0 (.message resizeRequest fun _ => 0)]))) = .ok last := by
    rw [Runs.run_append _ join.run,Runs.run_cons,pressed,Runs.ok_bind,Runs.run_append _ ticks,Runs.run_single]
    exact resized
  refine ⟨joinEvents ++ (.onRead 0 (.message thrustRequest fun _ => 0) :: (List.replicate n .tick ++
    [.onRead 0 (.message resizeRequest fun _ => 0)])) ++ [.tick],Runs.steps_each ?_ _,fun shown => ?_⟩
  · have keyed : ∀ w, Windows Screen w (.onRead 0 (.message thrustRequest fun _ => 0)) := windows_message fun x known => by
      cases thrust_decoded.symm.trans known
      trivial
    have resized : ∀ w, Windows Screen w (.onRead 0 (.message resizeRequest fun _ => 0)) := windows_message fun x known => by
      cases resize_decoded.symm.trans known
      exact ⟨⟨by decide,by decide⟩,by decide,by decide⟩
    simp only [List.forall_mem_append,List.forall_mem_cons]
    refine ⟨⟨join_windows,keyed,fun event member => ?_,resized,fun _ member => absurd member List.not_mem_nil⟩,
      windows_tick Screen,fun _ member => absurd member List.not_mem_nil⟩
    rw [List.eq_of_mem_replicate member]
    exact windows_tick Screen
  · obtain ⟨events,split,_,same⟩ := solo_events (A := .upright) stranded
    have move : Moves .upright last .tick (plays .upright last.game.gUniverse.toSize (last.game.memory 0) events) := by
      refine ⟨0,stranded.made,events,[],split,rfl,?_,?_⟩
      · rw [same]
        exact stranded.ship.quiet
      · rw [same]
        exact stranded.ship.alive
    have view := Runs.steps_reached shown before moved _ move
    rw [same,stranded.size] at view
    exact stranded_slips stranded.ship view

end Geoff.OnScreen
