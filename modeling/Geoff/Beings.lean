import Geoff.MapView

-- The beings of a page in a run of its handlers: what one handler does to a zombie, and
-- what follows for the places of the zombies and for the pictures of all beings.
namespace Geoff.GameScript.Beings
open Page Approach Arrivals InBase MapView

def halt (g : Page) (z : Being) : Being :=
  if g.player.isInBase && g.player.position.nearer z.position 100 then z.setDestination z.position.xPos z.position.yPos else z

def Beside (player p : Location) : Prop :=
  (player.xPos - 50 ≤ p.xPos ∧ p.xPos ≤ player.xPos + 50) ∧ player.yPos - 50 ≤ p.yPos ∧ p.yPos ≤ player.yPos + 50

inductive Turn (g : Page) (z : Being) : PageEvent → Being → Prop
  | click (clientX clientY : ℚ) : Turn g z (.click clientX clientY) z
  | resize (width height : ℕ) : Turn g z (.resize width height) z
  | moves : Turn g z .movement (halt g.updateBasesDecay z).updateMovement
  | seeks (draws : Draws) (p : Location) (goal : InRange draws → p = z.destination ∨ Inland p ∨ Beside g.player.position p) :
    Turn g z (.zombieDestinationAndCreateBase draws) (z.setDestination p.xPos p.yPos)

theorem beside_drawn (player : Location) {x y : ℚ} (across : 0 ≤ x ∧ x < 1) (down : 0 ≤ y ∧ y < 1) :
    Beside player ⟨player.xPos + (x * 100 - 50),player.yPos + (y * 100 - 50)⟩ := by
  unfold Beside
  dsimp only
  exact ⟨⟨by linarith [across.1],by linarith [across.2]⟩,by linarith [down.1],by linarith [down.2]⟩

theorem seek_cases (player : Location) (z : Being) (d : Draws) :
    ∃ p : Location, (seek player z d).1 = z.setDestination p.xPos p.yPos ∧
      (InRange d → (p = z.destination ∨ Inland p ∨ Beside player p) ∧ InRange (seek player z d).2) := by
  have stays : z = z.setDestination z.destination.xPos z.destination.yPos := rfl
  have checked : ∃ check d', (if z.isMoving then (decide ((random d).1 > 0.9),(random d).2) else (true,d)) = (check,d') ∧
      (InRange d → InRange d') := by
    cases z.isMoving with
    | true => exact ⟨_,_,rfl,fun range => (random_range range).2⟩
    | false => exact ⟨_,_,rfl,id⟩
  obtain ⟨check,d',same,kept⟩ := checked
  unfold seek
  rw [same]
  dsimp only
  split
  · split
    · refine ⟨⟨_,_⟩,rfl,fun range => ?_⟩
      obtain ⟨_,range⟩ := random_range (kept range)
      obtain ⟨x,range⟩ := random_range range
      obtain ⟨y,range⟩ := random_range range
      exact ⟨.inr (.inr (beside_drawn player x y)),range⟩
    · split
      · refine ⟨⟨_,_⟩,rfl,fun range => ?_⟩
        obtain ⟨_,range⟩ := random_range (kept range)
        obtain ⟨_,range⟩ := random_range range
        obtain ⟨x,range⟩ := random_range range
        obtain ⟨y,range⟩ := random_range range
        exact ⟨.inr (.inl (inland_drawn x y)),range⟩
      · refine ⟨z.destination,stays,fun range => ?_⟩
        obtain ⟨_,range⟩ := random_range (kept range)
        obtain ⟨_,range⟩ := random_range range
        exact ⟨.inl rfl,range⟩
  · exact ⟨z.destination,stays,fun range => ⟨.inl rfl,kept range⟩⟩

theorem seekAll_turns (g : Page) {draws : Draws} (zombies : List Being) (d : Draws) (range : InRange draws → InRange d) :
    List.Forall₂ (fun z z' => Turn g z (.zombieDestinationAndCreateBase draws) z') zombies
      (seekAll g.player.position zombies d).1 := by
  induction zombies generalizing d with
  | nil => exact .nil
  | cons z rest ih =>
    obtain ⟨p,same,goal⟩ := seek_cases g.player.position z d
    refine .cons ?_ (ih _ fun ranged => (goal (range ranged)).2)
    show Turn g z _ (seek g.player.position z d).1
    rw [same]
    exact .seeks draws p fun ranged => (goal (range ranged)).1

theorem decay_zombies (g : Page) : g.updateBasesDecay.zombies = g.zombies := by
  unfold updateBasesDecay
  dsimp only
  split
  · rfl
  · rfl

theorem draw_zombies (g : Page) : g.draw.zombies = g.zombies := by
  unfold draw
  dsimp only
  split
  · rfl
  · rfl

theorem stopZombies_halts (g : Page) : g.stopZombies.zombies = g.zombies.map (halt g) := by
  unfold stopZombies
  cases inBase : g.player.isInBase with
  | true =>
    rw [if_pos rfl]
    apply List.map_congr_left
    intro z _
    rw [halt,inBase,Bool.true_and]
  | false =>
    rw [if_neg Bool.false_ne_true]
    have alone : halt g = id := by
      funext z
      rw [halt,inBase,Bool.false_and,if_neg Bool.false_ne_true]
      rfl
    rw [alone,List.map_id]

theorem movement_zombies (g : Page) :
    g.timedMovementUpdate.zombies = g.zombies.map fun z => (halt g.updateBasesDecay z).updateMovement := by
  have halted : g.updateBasesDecay.stopZombies.zombies = g.zombies.map (halt g.updateBasesDecay) := by
    rw [stopZombies_halts,decay_zombies]
  have moved : g.timedMovementUpdate.zombies = g.updateBasesDecay.stopZombies.zombies.map Being.updateMovement := by
    unfold timedMovementUpdate
    dsimp only
    rw [draw_zombies]
    split
    · rfl
    · rfl
  rw [moved,halted,List.map_map]
  rfl

theorem step_turns {g t : Page} {event : PageEvent} (ran : g.step event = .ok t) :
    List.Forall₂ (fun z z' => Turn g z event z') g.zombies t.zombies := by
  cases event with
  | click clientX clientY =>
    cases ran
    exact List.forall₂_same.mpr fun z _ => .click clientX clientY
  | resize width height =>
    cases ran
    rw [onResize,draw_zombies]
    exact List.forall₂_same.mpr fun z _ => .resize width height
  | movement =>
    cases ran
    rw [movement_zombies]
    apply List.forall₂_map_right_iff.mpr
    exact List.forall₂_same.mpr fun z _ => .moves
  | zombieDestinationAndCreateBase draws =>
    cases ran
    have zombies : (g.timedZombieDestinationAndCreateBaseUpdate draws).zombies = (seekAll g.player.position g.zombies draws).1 := by
      unfold timedZombieDestinationAndCreateBaseUpdate
      dsimp only
      split
      · split
        · rfl
        · rfl
      · rfl
    rw [zombies]
    exact seekAll_turns g g.zombies draws id

variable {g t : Page} {z z' : Being}

structure Pictured (speed : ℚ) (b : Being) : Prop where
  row : b.isLeft ≤ 1
  first : 0 ≤ b.animframe
  last : b.animframe ≤ 5
  speed : b.movementSpeed = speed

def face (b : Being) (xAdj : ℚ) : Being :=
  let b := if xAdj > 0 then {b with isLeft := 0} else b
  if xAdj < 0 then {b with isLeft := 1} else b

def stride (b : Being) : Being :=
  if b.isLeft = 0 then {b with animframe := (b.animframe + 1) % 6} else
    let b := {b with animframe := b.animframe - 1}
    if b.animframe < 0 then {b with animframe := 5} else b

theorem animate_halves (b : Being) (xAdj : ℚ) : b.animate xAdj = stride (face b xAdj) := rfl

theorem face_pictured {speed : ℚ} {b : Being} (pictured : Pictured speed b) (xAdj : ℚ) : Pictured speed (face b xAdj) := by
  obtain ⟨row,first,last,same⟩ := pictured
  unfold face
  dsimp only
  split
  · split
    · exact ⟨le_refl _,first,last,same⟩
    · exact ⟨le_refl _,first,last,same⟩
  · split
    · exact ⟨Nat.zero_le _,first,last,same⟩
    · exact ⟨row,first,last,same⟩

theorem stride_pictured {speed : ℚ} {b : Being} (pictured : Pictured speed b) : Pictured speed (stride b) := by
  obtain ⟨row,first,last,same⟩ := pictured
  unfold stride
  dsimp only
  split
  · exact ⟨row,Int.emod_nonneg _ (by decide),by dsimp only; omega,same⟩
  · split
    · exact ⟨row,by dsimp only; omega,le_refl _,same⟩
    · exact ⟨row,by dsimp only; omega,by dsimp only; omega,same⟩

theorem update_pictured {speed : ℚ} {b : Being} (pictured : Pictured speed b) : Pictured speed b.updateMovement := by
  obtain ⟨row,first,last,same⟩ := pictured
  have moved : ∀ m moving, Pictured speed {b with toLocationMovement := m, isMoving := moving} :=
    fun _ _ => ⟨row,first,last,same⟩
  simp only [Being.updateMovement]
  split
  · rw [animate_halves]
    exact stride_pictured (face_pictured (moved _ _) _)
  · exact moved _ _

theorem halt_pictured {speed : ℚ} (g : Page) (pictured : Pictured speed z) : Pictured speed (halt g z) := by
  unfold halt
  split
  · exact ⟨pictured.row,pictured.first,pictured.last,pictured.speed⟩
  · exact pictured

theorem turn_pictured {speed : ℚ} {event : PageEvent} (pictured : Pictured speed z) (turn : Turn g z event z') :
    Pictured speed z' := by
  cases turn with
  | click => exact pictured
  | resize => exact pictured
  | moves => exact update_pictured (halt_pictured _ pictured)
  | seeks draws p goal => exact ⟨pictured.row,pictured.first,pictured.last,pictured.speed⟩

theorem zombies_keep {kept : Being → Prop} {event : PageEvent} (one : ∀ z z', kept z → Turn g z event z' → kept z')
    (all : ∀ z ∈ g.zombies, kept z) (ran : g.step event = .ok t) : ∀ z ∈ t.zombies, kept z := by
  have turns := step_turns ran
  generalize g.zombies = old at turns all
  generalize t.zombies = new at turns
  induction turns with
  | nil => exact fun _ member => absurd member List.not_mem_nil
  | cons turn _ ih =>
    obtain ⟨first,rest⟩ := List.forall_mem_cons.mp all
    exact List.forall_mem_cons.mpr ⟨one _ _ first turn,ih rest⟩

def played (g : Page) : PageEvent → Being
  | .click clientX clientY => g.player.setDestination (g.mapOffsetX + clientX) (g.mapOffsetY + clientY)
  | .resize _ _ => g.player.toBeing
  | .movement => g.player.toBeing.updateMovement
  | .zombieDestinationAndCreateBase _ => g.player.toBeing

theorem step_player {event : PageEvent} (ran : g.step event = .ok t) : t.player.toBeing = played g event := by
  cases event with
  | click clientX clientY =>
    cases ran
    rfl
  | resize width height =>
    cases ran
    exact congrArg Human.toBeing (draw_player _)
  | movement =>
    cases ran
    obtain ⟨g',drawn,_,player⟩ := movement_draws g
    rw [drawn,draw_player]
    exact player
  | zombieDestinationAndCreateBase draws =>
    cases ran
    exact congrArg Human.toBeing (create_scene g draws).1

-- The sheets of pictures, with the sizes of their images. The constructor calls
-- event_onload itself: a sheet is initialised from the start.
structure SpriteSheet where
  spriteWidth : ℕ
  spriteHeight : ℕ
  sheetSizeX : ℕ
  sheetSizeY : ℕ

def spritesHuman : SpriteSheet := ⟨40,54,6,2⟩
def spritesZombie : SpriteSheet := ⟨40,54,6,2⟩

def imageWidth : ℚ := 247
def imageHeight : ℚ := 111

structure Rect where
  x : ℚ
  y : ℚ
  width : ℚ
  height : ℚ

def SpriteSheet.draw (s : SpriteSheet) (g : Page) (x y : ℚ) (sx sy : ℤ) : Rect × Rect :=
  (⟨2 + sx * (s.spriteWidth + 1),2 + sy * (s.spriteHeight + 1),s.spriteWidth - 2,s.spriteHeight - 2⟩,
    ⟨x - g.mapOffsetX - (s.spriteWidth / 2 : ℕ),y - g.mapOffsetY - (s.spriteHeight / 2 : ℕ),s.spriteWidth,s.spriteHeight⟩)

def Being.draw (b : Being) (s : SpriteSheet) (g : Page) : Rect × Rect :=
  s.draw g b.position.xPos b.position.yPos b.animframe b.isLeft

def sprites (g : Page) : List (Rect × Rect) :=
  g.zombies.map (Being.draw · spritesZombie g) ++ [Being.draw g.player.toBeing spritesHuman g]

structure Cut (s : SpriteSheet) (r : Rect) : Prop where
  picture : ∃ column < s.sheetSizeX, ∃ row < s.sheetSizeY,
    r = ⟨2 + column * (s.spriteWidth + 1),2 + row * (s.spriteHeight + 1),s.spriteWidth - 2,s.spriteHeight - 2⟩
  right : r.x + r.width < imageWidth
  bottom : r.y + r.height < imageHeight

theorem pictured_cut {speed : ℚ} {b : Being} (pictured : Pictured speed b) (g : Page) :
    Cut spritesHuman (Being.draw b spritesHuman g).1 := by
  obtain ⟨column,frame⟩ := Int.eq_ofNat_of_zero_le pictured.first
  have last := pictured.last
  have row : (b.isLeft : ℚ) ≤ 1 := by exact_mod_cast pictured.row
  have most : (column : ℚ) ≤ 5 := by
    have whole : column ≤ 5 := by omega
    exact_mod_cast whole
  have frames : (b.animframe : ℚ) = column := by exact_mod_cast frame
  refine ⟨⟨column,?_,b.isLeft,?_,?_⟩,?_,?_⟩
  · show column < 6
    omega
  · exact Nat.lt_succ_of_le pictured.row
  · unfold Being.draw SpriteSheet.draw
    rw [frame]
    push_cast
    rfl
  · unfold Being.draw SpriteSheet.draw spritesHuman imageWidth
    push_cast
    linarith
  · unfold Being.draw SpriteSheet.draw spritesHuman imageHeight
    push_cast
    linarith

structure Peopled (g : Page) : Prop where
  count : g.zombies.length = numberOfZombies
  zombies : ∀ z ∈ g.zombies, Pictured 2 z
  player : Pictured 3 g.player.toBeing

theorem make_pictured (x y speed : ℚ) : Pictured speed (Being.make x y speed) :=
  ⟨Nat.zero_le _,le_refl _,(by decide : (0 : ℤ) ≤ 5),rfl⟩

theorem step_peopled {event : PageEvent} (peopled : Peopled g) (ran : g.step event = .ok t) : Peopled t := by
  obtain ⟨count,zombies,player⟩ := peopled
  refine ⟨(step_turns ran).length_eq.symm.trans count,zombies_keep (fun _ _ => turn_pictured) zombies ran,?_⟩
  rw [step_player ran]
  cases event with
  | click => exact ⟨player.row,player.first,player.last,player.speed⟩
  | resize => exact player
  | movement => exact update_pictured player
  | zombieDestinationAndCreateBase => exact player

theorem init_zombies (width height : ℕ) (draws : Draws) :
    (init width height draws).zombies = (places numberOfZombies draws).1.map fun p => Zombie.make p.xPos p.yPos := by
  unfold init
  dsimp only
  rw [draw_zombies]
  rfl

theorem init_peopled (width height : ℕ) (draws : Draws) : Peopled (init width height draws) := by
  have player : Pictured 3 (init width height draws).player.toBeing := by
    unfold init
    dsimp only
    rw [draw_player]
    exact make_pictured ..
  refine ⟨?_,?_,player⟩
  · rw [init_zombies,List.length_map,places_length]
  · rw [init_zombies]
    intro z member
    obtain ⟨p,_,rfl⟩ := List.mem_map.mp member
    exact make_pictured ..

-- Whatever happens, there are as many zombies as at the start, and every being is drawn
-- as one of the pictures on its sheet.
theorem sprites_cut {width height : ℕ} {draws : Draws} {events : List PageEvent}
    (ran : Runs.run Page.step (init width height draws) events = .ok g) :
    (sprites g).length = numberOfZombies + 1 ∧ ∀ s ∈ sprites g, Cut spritesHuman s.1 := by
  have peopled := Runs.run_invariant Peopled (fun _ _ _ => step_peopled) (init_peopled width height draws) ran
  constructor
  · rw [sprites,List.length_append,List.length_map,peopled.count]
    rfl
  · intro s member
    rcases List.mem_append.mp member with zombie | player
    · obtain ⟨z,inside,rfl⟩ := List.mem_map.mp zombie
      exact pictured_cut (peopled.zombies z inside) g
    · rw [List.mem_singleton.mp player]
      exact pictured_cut peopled.player g

theorem first_sprites : (sprites (init 1000 800 fun _ => 0.7).timedMovementUpdate).length = numberOfZombies + 1 ∧
    ∀ s ∈ sprites (init 1000 800 fun _ => 0.7).timedMovementUpdate, Cut spritesHuman s.1 := by
  have ran : Runs.run Page.step (init 1000 800 fun _ => 0.7) [.movement] =
      .ok (init 1000 800 fun _ => 0.7).timedMovementUpdate := Runs.run_single ..
  exact sprites_cut ran

-- The player may be on the border of the window, and its zombies are sent to within 50 of it.
structure Around (p : Location) : Prop where
  left : -50 ≤ p.xPos
  right : p.xPos ≤ mapWidth + borderWidth + 50
  top : -50 ≤ p.yPos
  bottom : p.yPos ≤ mapHeight + borderWidth + 50

structure Roams (z : Being) : Prop where
  position : Around z.position
  destination : Around z.destination
  goes : 0 < z.movementSpeed

theorem inland_around {p : Location} (inland : Inland p) : Around p := by
  obtain ⟨left,right,top,bottom⟩ := inland
  have border : (0 : ℚ) ≤ borderWidth := by decide +kernel
  exact ⟨by linarith,by linarith,by linarith,by linarith⟩

theorem beside_around {player p : Location} (onMap : OnMap player) (beside : Beside player p) : Around p := by
  obtain ⟨left,right,top,bottom⟩ := onMap
  obtain ⟨⟨from_left,from_right⟩,from_top,from_bottom⟩ := beside
  exact ⟨by linarith,by linarith,by linarith,by linarith⟩

theorem update_roams (roams : Roams z) : Roams z.updateMovement := by
  obtain ⟨position,destination,goes⟩ := roams
  have across := (toward_nears goes).within ⟨position.left,position.right⟩ ⟨destination.left,destination.right⟩
  have down := (toward_nears goes).within ⟨position.top,position.bottom⟩ ⟨destination.top,destination.bottom⟩
  refine ⟨?_,?_,?_⟩
  · rw [update_position]
    exact ⟨across.1,across.2,down.1,down.2⟩
  · rw [update_destination]
    exact destination
  · rw [update_speed]
    exact goes

theorem halt_roams (g : Page) (roams : Roams z) : Roams (halt g z) := by
  unfold halt
  split
  · exact ⟨roams.position,roams.position,roams.goes⟩
  · exact roams

def Ranged : PageEvent → Prop
  | .zombieDestinationAndCreateBase draws => InRange draws
  | _ => True

theorem turn_roams {event : PageEvent} (player : OnMap g.player.position) (ranged : Ranged event) (roams : Roams z)
    (turn : Turn g z event z') : Roams z' := by
  cases turn with
  | click => exact roams
  | resize => exact roams
  | moves => exact update_roams (halt_roams _ roams)
  | seeks draws p goal =>
    refine ⟨roams.position,?_,roams.goes⟩
    rcases goal ranged with same | inland | beside
    · show Around p
      rw [same]
      exact roams.destination
    · exact inland_around inland
    · exact beside_around player beside

def Regular (g : Page) (event : PageEvent) : Prop := Permitted g event ∧ Covered g event ∧ Ranged event

theorem roaming_step (g : Page) (event : PageEvent) (t : Page) (kept : (Sized g ∧ InView g) ∧ ∀ z ∈ g.zombies, Roams z)
    (regular : Regular g event) (one : g.step event = .ok t) : (Sized t ∧ InView t) ∧ ∀ z ∈ t.zombies, Roams z := by
  obtain ⟨⟨sized,view⟩,roam⟩ := kept
  obtain ⟨permitted,covered,ranged⟩ := regular
  refine ⟨⟨step_sized sized permitted one,(step_inView_iff sized permitted view one).mpr covered⟩,?_⟩
  exact zombies_keep (fun _ _ => turn_roams view.position ranged) roam one

theorem zombies_around {width height : ℕ} (wide : (width : ℚ) ≤ mapWidth) (high : (height : ℚ) ≤ mapHeight) {draws : Draws}
    (range : InRange draws) {events : List PageEvent} (regular : Runs.Steps Page.step Regular (init width height draws) events)
    (ran : Runs.run Page.step (init width height draws) events = .ok g) :
    ∀ z ∈ g.zombies, Around z.position ∧ Around z.destination := by
  have start : ∀ z ∈ (init width height draws).zombies, Roams z := by
    rw [init_zombies]
    intro z member
    obtain ⟨p,place,rfl⟩ := List.mem_map.mp member
    have inland := inland_around ((places_inland range numberOfZombies).1 p place)
    exact ⟨inland,inland,(by decide +kernel : (0 : ℚ) < 2)⟩
  have both : (Sized g ∧ InView g) ∧ ∀ z ∈ g.zombies, Roams z := by
    apply Runs.run_among roaming_step _ regular ran
    exact ⟨⟨init_sized wide high draws,init_inView wide high range⟩,start⟩
  exact fun z member => ⟨(both.2 z member).position,(both.2 z member).destination⟩

def huntEvents : List PageEvent := [.click 700 300,.movement,.zombieDestinationAndCreateBase fun _ => 0.7,.movement]

theorem hunt_around : ∃ g, Runs.run Page.step (init 1000 800 fun _ => 0.7) huntEvents = .ok g ∧
    ∀ z ∈ g.zombies, Around z.position ∧ Around z.destination := by
  have range : InRange fun _ => 0.7 := fun _ => by norm_num
  have regular : Runs.Steps Page.step Regular (init 1000 800 fun _ => 0.7) huntEvents := by
    refine ⟨⟨?_,trivial,trivial⟩,⟨trivial,trivial,trivial⟩,⟨trivial,trivial,range⟩,⟨trivial,trivial,trivial⟩,trivial⟩
    unfold Permitted
    decide +kernel
  exact ⟨_,rfl,zombies_around (by decide +kernel) (by decide +kernel) range regular rfl⟩

end Geoff.GameScript.Beings
