import Geoff.InBase
import Geoff.Scrolling

-- What the window shows of the map: where scrolling keeps the player in it, and the window
-- on the map.
namespace Geoff.GameScript.MapView
open Page Approach Arrivals InBase Scrolling

-- What the canvas leaves of the inner size of the window, where clicks count too.
def borderWidth : ℚ := 4

structure OnMap (p : Location) : Prop where
  left : 0 ≤ p.xPos
  right : p.xPos ≤ mapWidth + borderWidth
  top : 0 ≤ p.yPos
  bottom : p.yPos ≤ mapHeight + borderWidth

def HeldX (g : Page) : Prop := Held mapWidth g.canvasWidth (g.canvasWidth / 3) g.mapOffsetX g.player.position.xPos
def HeldY (g : Page) : Prop := Held mapHeight g.canvasHeight (g.canvasHeight / 3) g.mapOffsetY g.player.position.yPos

structure InView (g : Page) : Prop where
  across : HeldX g
  down : HeldY g
  position : OnMap g.player.position
  destination : OnMap g.player.destination

-- What a browser can send: clicks in the window, sizes up to those of the map, and random
-- numbers in their range.
def Permitted (g : Page) : PageEvent → Prop
  | .click clientX clientY =>
    (0 ≤ clientX ∧ clientX ≤ g.canvasWidth + borderWidth) ∧ 0 ≤ clientY ∧ clientY ≤ g.canvasHeight + borderWidth
  | .resize width height => (width : ℚ) ≤ mapWidth ∧ (height : ℚ) ≤ mapHeight
  | .movement => True
  | .zombieDestinationAndCreateBase _ => True

def lagX (g : Page) : ℚ := scroll g.canvasWidth (g.player.position.xPos - g.mapOffsetX)
def lagY (g : Page) : ℚ := scroll g.canvasHeight (g.player.position.yPos - g.mapOffsetY)

-- The larger canvas makes the window scroll, or has room on the map where it is.
def Covered (g : Page) : PageEvent → Prop
  | .resize width height =>
    let g := {g with canvasWidth := width, canvasHeight := height}
    (lagX g ≠ 0 ∨ lagY g ≠ 0) ∨ g.mapOffsetX + width ≤ mapWidth ∧ g.mapOffsetY + height ≤ mapHeight
  | _ => True

structure Sized (g : Page) : Prop where
  width : (g.canvasWidth : ℚ) ≤ mapWidth
  height : (g.canvasHeight : ℚ) ≤ mapHeight
  goes : 0 < g.player.movementSpeed

theorem thirds (extent : ℕ) : 2 * ((extent : ℚ) / 3) ≤ extent := by
  have positive : (0 : ℚ) ≤ extent := Nat.cast_nonneg _
  linarith

theorem draw_scrolls {g : Page} (scrolls : lagX g ≠ 0 ∨ lagY g ≠ 0) :
    g.draw = {g with
      mapOffsetX := stop (mapWidth - g.canvasWidth) (g.mapOffsetX + lagX g)
      mapOffsetY := stop (mapHeight - g.canvasHeight) (g.mapOffsetY + lagY g)} := by
  unfold draw
  exact if_pos scrolls

theorem draw_stays {g : Page} (stays : ¬ (lagX g ≠ 0 ∨ lagY g ≠ 0)) : g.draw = g := by
  unfold draw
  exact if_neg stays

-- A drawing that scrolls repairs both axes. One that does not has the player inside of the
-- borders, and leaves the window where it was.
theorem draw_held_iff {g : Page} (width : (g.canvasWidth : ℚ) ≤ mapWidth) (height : (g.canvasHeight : ℚ) ≤ mapHeight)
    (left : 0 ≤ g.mapOffsetX) (top : 0 ≤ g.mapOffsetY) : HeldX g.draw ∧ HeldY g.draw ↔
      (lagX g ≠ 0 ∨ lagY g ≠ 0) ∨ g.mapOffsetX + g.canvasWidth ≤ mapWidth ∧ g.mapOffsetY + g.canvasHeight ≤ mapHeight := by
  by_cases scrolls : lagX g ≠ 0 ∨ lagY g ≠ 0
  · refine iff_of_true ?_ (.inl scrolls)
    rw [draw_scrolls scrolls]
    obtain ⟨across,along⟩ := lag_catches g.mapOffsetX g.player.position.xPos (thirds g.canvasWidth)
    obtain ⟨down,back⟩ := lag_catches g.mapOffsetY g.player.position.yPos (thirds g.canvasHeight)
    exact ⟨stop_held width across along,stop_held height down back⟩
  · rw [draw_stays scrolls,or_iff_right scrolls]
    obtain ⟨noneX,noneY⟩ := not_or.mp scrolls
    obtain ⟨across,along⟩ := lag_zero.mp (not_not.mp noneX)
    obtain ⟨down,back⟩ := lag_zero.mp (not_not.mp noneY)
    constructor
    · rintro ⟨x,y⟩
      exact ⟨x.high,y.high⟩
    · rintro ⟨right,bottom⟩
      exact ⟨⟨left,right,.inr across,.inr along⟩,⟨top,bottom,.inr down,.inr back⟩⟩

def pane (g : Page) : (ℚ × ℚ) × ℕ × ℕ := ((g.mapOffsetX,g.mapOffsetY),g.canvasWidth,g.canvasHeight)

theorem held_pane {g g' : Page} (same : pane g' = pane g) (place : g'.player.position = g.player.position) :
    (HeldX g' ↔ HeldX g) ∧ (HeldY g' ↔ HeldY g) := by
  obtain ⟨offsets,sizes⟩ := Prod.mk.inj same
  obtain ⟨x,y⟩ := Prod.mk.inj offsets
  obtain ⟨w,h⟩ := Prod.mk.inj sizes
  unfold HeldX HeldY
  rw [x,y,w,h,place]
  exact ⟨Iff.rfl,Iff.rfl⟩

theorem occupied_pane (g : Page) : pane g.updateBasesOccupiedState = pane g := rfl

theorem decay_pane (g : Page) : pane g.updateBasesDecay = pane g := by
  unfold updateBasesDecay
  dsimp only
  split
  · rfl
  · rfl

theorem stopZombies_pane (g : Page) : pane g.stopZombies = pane g := by
  unfold stopZombies
  split
  · rfl
  · rfl

theorem draw_sizes (g : Page) : g.draw.canvasWidth = g.canvasWidth ∧ g.draw.canvasHeight = g.canvasHeight := by
  unfold draw
  dsimp only
  split
  · exact ⟨rfl,rfl⟩
  · exact ⟨rfl,rfl⟩

theorem draw_player (g : Page) : g.draw.player = g.player := (Prod.mk.inj (draw_scene g)).2

theorem create_pane (g : Page) (d : Draws) : pane (g.timedZombieDestinationAndCreateBaseUpdate d) = pane g := by
  unfold timedZombieDestinationAndCreateBaseUpdate
  dsimp only
  split
  · split
    · rfl
    · rfl
  · rfl

theorem movement_draws (g : Page) : ∃ g' : Page, g.timedMovementUpdate = g'.draw ∧ pane g' = pane g ∧
    g'.player.toBeing = g.player.toBeing.updateMovement := by
  have framed : pane g.updateBasesDecay.stopZombies = pane g := (stopZombies_pane _).trans (decay_pane g)
  have player : g.updateBasesDecay.stopZombies.player.toBeing = g.player.toBeing := by
    rw [(Prod.mk.inj (stopZombies_scene g.updateBasesDecay)).2]
    exact decay_being g
  unfold timedMovementUpdate
  dsimp only
  refine ⟨_,rfl,?_,?_⟩
  · split
    · exact (occupied_pane _).trans framed
    · exact framed
  · rw [← player]
    split
    · rfl
    · rfl

variable {g t : Page}

theorem pane_offsets {g g' : Page} (same : pane g' = pane g) :
    g'.mapOffsetX = g.mapOffsetX ∧ g'.mapOffsetY = g.mapOffsetY :=
  Prod.mk.inj (Prod.mk.inj same).1

theorem pane_sizes {g g' : Page} (same : pane g' = pane g) :
    g'.canvasWidth = g.canvasWidth ∧ g'.canvasHeight = g.canvasHeight :=
  Prod.mk.inj (Prod.mk.inj same).2

theorem step_sized {event : PageEvent} (sized : Sized g) (permitted : Permitted g event) (ran : g.step event = .ok t) :
    Sized t := by
  cases event with
  | click clientX clientY =>
    cases ran
    exact ⟨sized.width,sized.height,sized.goes⟩
  | resize width height =>
    cases ran
    obtain ⟨w,h⟩ := draw_sizes {g with canvasWidth := width, canvasHeight := height}
    refine ⟨?_,?_,?_⟩
    · rw [onResize,w]
      exact permitted.1
    · rw [onResize,h]
      exact permitted.2
    · rw [onResize,draw_player]
      exact sized.goes
  | movement =>
    cases ran
    obtain ⟨g',drawn,same,player⟩ := movement_draws g
    obtain ⟨w,h⟩ := draw_sizes g'
    obtain ⟨w',h'⟩ := pane_sizes same
    refine ⟨?_,?_,?_⟩
    · rw [drawn,w,w']
      exact sized.width
    · rw [drawn,h,h']
      exact sized.height
    · rw [drawn,draw_player,player,update_speed]
      exact sized.goes
  | zombieDestinationAndCreateBase draws =>
    cases ran
    obtain ⟨w,h⟩ := pane_sizes (create_pane g draws)
    refine ⟨?_,?_,?_⟩
    · rw [w]
      exact sized.width
    · rw [h]
      exact sized.height
    · rw [(create_scene g draws).1]
      exact sized.goes

theorem onMap_between {b : Being} (goes : 0 < b.movementSpeed) (position : OnMap b.position) (destination : OnMap b.destination) :
    OnMap b.updateMovement.position := by
  have across := (toward_nears goes).within ⟨position.left,position.right⟩ ⟨destination.left,destination.right⟩
  have down := (toward_nears goes).within ⟨position.top,position.bottom⟩ ⟨destination.top,destination.bottom⟩
  rw [update_position]
  exact ⟨across.1,across.2,down.1,down.2⟩

theorem draw_inView {g g' : Page} (sized : Sized g) (view : InView g) (same : pane g' = pane g)
    (position : OnMap g'.player.position) (destination : OnMap g'.player.destination) : InView g'.draw := by
  obtain ⟨x,y⟩ := pane_offsets same
  obtain ⟨w,h⟩ := pane_sizes same
  have room : g'.mapOffsetX + g'.canvasWidth ≤ mapWidth ∧ g'.mapOffsetY + g'.canvasHeight ≤ mapHeight := by
    rw [x,y,w,h]
    exact ⟨view.across.high,view.down.high⟩
  have held : HeldX g'.draw ∧ HeldY g'.draw := by
    refine (draw_held_iff ?_ ?_ ?_ ?_).mpr (.inr room)
    · rw [w]
      exact sized.width
    · rw [h]
      exact sized.height
    · rw [x]
      exact view.across.low
    · rw [y]
      exact view.down.low
  refine ⟨held.1,held.2,?_,?_⟩
  · rw [draw_player]
    exact position
  · rw [draw_player]
    exact destination

theorem step_inView_iff {event : PageEvent} (sized : Sized g) (permitted : Permitted g event) (view : InView g)
    (ran : g.step event = .ok t) : InView t ↔ Covered g event := by
  cases event with
  | click clientX clientY =>
    cases ran
    obtain ⟨⟨left,right⟩,top,bottom⟩ := permitted
    have across := view.across
    have down := view.down
    refine iff_of_true ⟨across,down,view.position,?_⟩ trivial
    refine ⟨add_nonneg across.low left,?_,add_nonneg down.low top,?_⟩
    · show g.mapOffsetX + clientX ≤ _
      linarith [across.high]
    · show g.mapOffsetY + clientY ≤ _
      linarith [down.high]
  | resize width height =>
    cases ran
    have exact_ := draw_held_iff (g := {g with canvasWidth := width, canvasHeight := height}) permitted.1 permitted.2
      view.across.low view.down.low
    refine Iff.trans ⟨fun drawn => ⟨drawn.across,drawn.down⟩,fun held => ⟨held.1,held.2,?_,?_⟩⟩ exact_
    · rw [onResize,draw_player]
      exact view.position
    · rw [onResize,draw_player]
      exact view.destination
  | movement =>
    cases ran
    obtain ⟨g',drawn,same,player⟩ := movement_draws g
    rw [drawn]
    refine iff_of_true (draw_inView sized view same ?_ ?_) trivial
    · rw [player]
      exact onMap_between sized.goes view.position view.destination
    · rw [player,update_destination]
      exact view.destination
  | zombieDestinationAndCreateBase draws =>
    cases ran
    have player := (create_scene g draws).1
    obtain ⟨x,y⟩ := held_pane (create_pane g draws) (congrArg (fun p : Human => p.position) player)
    refine iff_of_true ⟨x.mpr view.across,y.mpr view.down,?_,?_⟩ trivial
    · rw [player]
      exact view.position
    · rw [player]
      exact view.destination

def InRange (d : Draws) : Prop := ∀ n, 0 ≤ d n ∧ d n < 1

structure Inland (p : Location) : Prop where
  left : 0 ≤ p.xPos
  right : p.xPos < mapWidth
  top : 0 ≤ p.yPos
  bottom : p.yPos < mapHeight

theorem Inland.onMap {p : Location} (inland : Inland p) : OnMap p := by
  have border : (0 : ℚ) ≤ borderWidth := by decide +kernel
  exact ⟨inland.left,by linarith [inland.right],inland.top,by linarith [inland.bottom]⟩

theorem random_range {d : Draws} (range : InRange d) : (0 ≤ (random d).1 ∧ (random d).1 < 1) ∧ InRange (random d).2 :=
  ⟨range 0,fun n => range (n + 1)⟩

theorem inland_drawn {x y : ℚ} (across : 0 ≤ x ∧ x < 1) (down : 0 ≤ y ∧ y < 1) : Inland ⟨x * mapWidth,y * mapHeight⟩ := by
  have wide : (0 : ℚ) < mapWidth := by decide +kernel
  have high : (0 : ℚ) < mapHeight := by decide +kernel
  exact ⟨mul_nonneg across.1 wide.le,mul_lt_of_lt_one_left wide across.2,mul_nonneg down.1 high.le,
    mul_lt_of_lt_one_left high down.2⟩

theorem places_length (n : ℕ) (d : Draws) : (places n d).1.length = n := by
  induction n generalizing d with
  | zero => rfl
  | succ n ih => exact congrArg (· + 1) (ih _)

theorem places_inland {d : Draws} (range : InRange d) (n : ℕ) :
    (∀ p ∈ (places n d).1, Inland p) ∧ InRange (places n d).2 := by
  induction n generalizing d with
  | zero => exact ⟨fun _ member => absurd member List.not_mem_nil,range⟩
  | succ n ih =>
    obtain ⟨across,range⟩ := random_range range
    obtain ⟨down,range⟩ := random_range range
    obtain ⟨rest,left⟩ := ih range
    exact ⟨List.forall_mem_cons.mpr ⟨inland_drawn across down,rest⟩,left⟩

theorem head_mem {α : Type} [Inhabited α] {items : List α} (some_item : items ≠ []) : items.headI ∈ items := by
  cases items with
  | nil => exact absurd rfl some_item
  | cons first rest => exact List.mem_cons_self

theorem init_player (width height : ℕ) {draws : Draws} (range : InRange draws) : ∃ p : Location, Inland p ∧
    (init width height draws).player.toBeing = (Human.make p.xPos p.yPos).toBeing := by
  obtain ⟨_,range⟩ := places_inland range numberOfZombies
  have inland := (places_inland range (numberOfBases / 2)).1
  have length := places_length (numberOfBases / 2) (places numberOfZombies draws).2
  unfold init
  dsimp only
  rw [draw_player]
  generalize (places (numberOfBases / 2) (places numberOfZombies draws).2).1 = sites at length inland
  have sited : sites ≠ [] := by
    rintro rfl
    cases length
  refine ⟨sites.headI,inland _ (head_mem sited),?_⟩
  cases sites with
  | nil => exact absurd rfl sited
  | cons first rest => rfl

theorem init_sized {width height : ℕ} (wide : (width : ℚ) ≤ mapWidth) (high : (height : ℚ) ≤ mapHeight) (draws : Draws) :
    Sized (init width height draws) := by
  refine ⟨?_,?_,(init_cached width height draws).goes⟩
  · unfold init
    dsimp only
    rw [(draw_sizes _).1]
    exact wide
  · unfold init
    dsimp only
    rw [(draw_sizes _).2]
    exact high

theorem centered_held {g : Page} (wide : (g.canvasWidth : ℚ) ≤ mapWidth) (high : (g.canvasHeight : ℚ) ≤ mapHeight) (x y : ℚ) :
    HeldX (g.viewToCenter x y).draw ∧ HeldY (g.viewToCenter x y).draw := by
  obtain ⟨left,right⟩ := stop_within wide (x - (g.canvasWidth / 2 : ℕ))
  obtain ⟨top,bottom⟩ := stop_within high (y - (g.canvasHeight / 2 : ℕ))
  exact (draw_held_iff (g := g.viewToCenter x y) wide high left top).mpr (.inr ⟨right,bottom⟩)

theorem init_inView {width height : ℕ} (wide : (width : ℚ) ≤ mapWidth) (high : (height : ℚ) ≤ mapHeight) {draws : Draws}
    (range : InRange draws) : InView (init width height draws) := by
  obtain ⟨p,inland,player⟩ := init_player width height range
  have held : HeldX (init width height draws) ∧ HeldY (init width height draws) := by
    unfold init
    apply centered_held
    · exact wide
    · exact high
  refine ⟨held.1,held.2,?_,?_⟩
  · rw [player]
    exact inland.onMap
  · rw [player]
    exact inland.onMap

-- The window stays on the map, with the player inside of the borders wherever the map
-- goes on, exactly when it is covered in every change of its size.
theorem view_kept_iff {width height : ℕ} (wide : (width : ℚ) ≤ mapWidth) (high : (height : ℚ) ≤ mapHeight) {draws : Draws}
    (range : InRange draws) {events : List PageEvent}
    (permitted : Runs.Steps Page.step Permitted (init width height draws) events) :
    Runs.Always Page.step InView (init width height draws) events ↔
      Runs.Steps Page.step Covered (init width height draws) events :=
  Runs.always_iff_steps_among Sized Permitted (fun _ _ _ sized permitted ran => step_sized sized permitted ran)
    (fun _ _ _ sized permitted view ran => step_inView_iff sized permitted view ran) (init_sized wide high draws)
    (init_inView wide high range) permitted

-- In the middle of a window at the far end of the map: a larger one shows what is behind it.
theorem grown_uncovered : ¬ Runs.Always Page.step InView (init 1000 800 fun _ => 0.939) [.resize 1200 1000] := by
  have range : InRange fun _ => 0.939 := fun _ => by norm_num
  have permitted : Runs.Steps Page.step Permitted (init 1000 800 fun _ => 0.939) [.resize 1200 1000] := by
    refine ⟨?_,trivial⟩
    unfold Permitted
    decide +kernel
  rw [view_kept_iff (by decide +kernel) (by decide +kernel) range permitted]
  rintro ⟨covered,_⟩
  revert covered
  unfold Covered
  decide +kernel

end Geoff.GameScript.MapView
