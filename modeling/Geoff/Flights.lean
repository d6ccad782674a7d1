import Geoff.LonePlayer
import Geoff.Magazine
import Geoff.ScanMeaning

-- The bullets of every gun of the server with the timer ticks since their shots: how
-- long a bullet stays in its gun.
namespace Geoff.Flights
open Collision Collisions Magazine PlayerEvents PlayerStore World

structure Since where
  ticks : Nat
  seen : Nat
  suspended : Nat

namespace Since

def fired : Since := ⟨0,0,0⟩

def aged (n : Since) : Since := {n with seen := n.seen + 1}

def counted (dead : Bool) (n : Since) : Since :=
  {n with ticks := n.ticks + 1, suspended := n.suspended + if dead then 1 else 0}

end Since

section
variable (A : Arith) (u : Size)

-- The bullets of the player's gun in one of its events. Player::TickEvent ticks no dead
-- ship.
def follow (p : Player) (shots : List (Shot Since)) : PlayerEvent → List (Shot Since)
  | .key code isDown => if code = 32 ∧ isDown = true then fire A .fired p.ship shots else shots
  | .resize _ _ => shots
  | .collide rocks _ => shots.filter fun s => !rocks.any fun node => bulletHit A node.rock s.bullet
  | .tick => if p.ship.dead then shots else tick A u Since.aged shots

def follows (p : Player) (shots : List (Shot Since)) : List PlayerEvent → List (Shot Since)
  | [] => shots
  | event :: rest => follows (play A u p event) (follow A u p shots event) rest

def note (w : World) (event : Event) (_ : World) (shots : Nat → List (Shot Since)) (address : Nat) : List (Shot Since) :=
  let p := w.game.memory address
  let flown := follows A w.game.gUniverse.toSize p (shots address) (w.eventsOf A event address)
  match event with
  | .tick => flown.map fun s => ⟨s.bullet,s.note.counted p.ship.dead⟩
  | _ => flown

end

variable {A : Arith} {u : Size} {w t : World} {event : Event} {shots : List (Shot Since)}

theorem keyEvent_gun (s : Ship) (code : Nat) (isDown : Bool) :
    (s.keyEvent A code isDown).gun = if code = 32 ∧ isDown = true then s.gun.fire A s else s.gun := by
  unfold Ship.keyEvent
  by_cases space : code = 32
  · subst space
    cases isDown <;> rfl
  · simp only [space,false_and,if_false]
    split
    · rfl
    · split
      · rfl
      · split <;> rfl

theorem newLife_gun (s : Ship) : (s.newLife A).gun = s.gun := by
  unfold Ship.newLife
  split <;> rfl

theorem keyed_gun (p : Player) (code : Nat) (isDown : Bool) :
    (p.keyEvent A code isDown).ship.gun = (p.ship.keyEvent A code isDown).gun := by
  unfold Player.keyEvent
  dsimp only
  split
  · split
    · exact newLife_gun _
    · rfl
  · rfl

theorem tickEvent_gun (s : Ship) : (s.tickEvent A u).gun = s.gun.tickEvent A u := by
  have moved : (s.moveShip A u).gun = s.gun := by
    obtain ⟨_,_,_,_,_,steered⟩ := Ship.moveShip_steered A u s
    rw [steered]
  unfold Ship.tickEvent
  dsimp only
  rw [moved]
  split
  · split
    · exact newLife_gun _
    · rfl
  · split
    · split
      · rfl
      · exact ShipBounds.blink_gun _
    · rfl

theorem scanned_gun (rocks : List RockNode) (ship : Ship) :
    (scanRocks A rocks ship).1.gun.bullets = ScanMeaning.survivors A rocks ship.gun.bullets := by
  rw [ScanMeaning.scanRocks_ship]
  split <;> rfl

theorem play_followed {p : Player} (held : bullets shots = p.ship.gun.bullets) (event : PlayerEvent) :
    bullets (follow A u p shots event) = (play A u p event).ship.gun.bullets := by
  cases event with
  | key code isDown =>
    simp only [play,keyed_gun,keyEvent_gun,follow]
    split
    · rw [fire_bullets,held]
    · exact held
  | resize w h => exact held
  | collide rocks score =>
    simp only [play,scanned_gun,follow]
    rw [ScanMeaning.survivors,← held,bullets,bullets,List.filter_map]
    rfl
  | tick =>
    simp only [play,follow]
    cases life : p.ship.dead with
    | true =>
      rw [tick_dead u life]
      exact held
    | false =>
      rw [tick_alive u life,tickEvent_gun]
      simp only [Bool.false_eq_true,if_false,tick_bullets,held]

theorem plays_followed {p : Player} (held : bullets shots = p.ship.gun.bullets) (events : List PlayerEvent) :
    bullets (follows A u p shots events) = (plays A u p events).ship.gun.bullets := by
  induction events generalizing p shots with
  | nil => exact held
  | cons event rest ih => exact ih (play_followed held event)

def Lined (shots : List (Shot Since)) : Prop := ∃ line, Tracks Since.seen shots line

theorem play_lined (p : Player) (lined : Lined shots) (event : PlayerEvent) : Lined (follow A u p shots event) := by
  obtain ⟨line,tracks⟩ := lined
  cases event with
  | key code isDown =>
    simp only [follow]
    split
    · exact ⟨_,tracks_fire (show Since.fired.seen = 0 from rfl) tracks p.ship⟩
    · exact ⟨line,tracks⟩
  | resize w h => exact ⟨line,tracks⟩
  | collide rocks score => exact tracks_sublist tracks List.filter_sublist
  | tick =>
    simp only [follow]
    split
    · exact ⟨line,tracks⟩
    · exact ⟨_,tracks_tick (fun _ => rfl) tracks⟩

theorem plays_lined (p : Player) (lined : Lined shots) (events : List PlayerEvent) : Lined (follows A u p shots events) := by
  induction events generalizing p shots with
  | nil => exact lined
  | cons event rest ih => exact ih (play A u p event) (play_lined p lined event)

theorem counted_lined (dead : Bool) (lined : Lined shots) : Lined (shots.map fun s => ⟨s.bullet,s.note.counted dead⟩) := by
  obtain ⟨line,ages,left⟩ := lined
  refine ⟨line,?_,fun s member => ?_⟩
  · rw [List.map_map]
    exact ages
  · obtain ⟨before,there,rfl⟩ := List.mem_map.mp member
    exact left before there

theorem lined_age (lined : Lined shots) {s : Shot Since} (member : s ∈ shots) : s.note.seen ≤ 184 := by
  obtain ⟨line,tracks⟩ := lined
  have inside : s.note.seen ∈ line.ages := by
    rw [← tracks.ages]
    exact List.mem_map_of_mem member
  have bound := line.age_bound inside
  simp only [Consts.gunMagSize] at bound
  omega

theorem follows_append (p : Player) (first rest : List PlayerEvent) :
    follows A u p shots (first ++ rest) = follows A u (plays A u p first) (follows A u p shots first) rest := by
  induction first generalizing p shots with
  | nil => rfl
  | cons event first ih => exact ih (play A u p event)

theorem tick_note {older : Since → Since} {s : Shot Since} (member : s ∈ tick A u older shots) :
    ∃ before ∈ shots, s.note = older before.note := by
  have inside : s ∈ aged A u older shots := by
    unfold tick at member
    split at member
    · exact List.mem_of_mem_tail member
    · exact member
  obtain ⟨before,there,rfl⟩ := List.mem_map.mp inside
  exact ⟨before,there,rfl⟩

theorem collided_shots (p : Player) (shots : List (Shot Since)) {events : List PlayerEvent}
    (rounds : ∀ event ∈ events, ∃ rocks score, event = .collide rocks score) :
    (follows A u p shots events).Sublist shots ∧ (plays A u p events).ship.dead = p.ship.dead := by
  induction events generalizing p shots with
  | nil => exact ⟨.refl _,rfl⟩
  | cons event rest ih =>
    obtain ⟨here,later⟩ := List.forall_mem_cons.mp rounds
    obtain ⟨rocks,score,rfl⟩ := here
    obtain ⟨fewer,same⟩ := ih (play A u p (.collide rocks score)) (follow A u p shots (.collide rocks score)) later
    exact ⟨fewer.trans List.filter_sublist,same.trans (scanRocks_dead rocks p.ship)⟩

theorem follow_untimed (p : Player) {event : PlayerEvent} (untimed : event ≠ .tick) {s : Shot Since}
    (member : s ∈ follow A u p shots event) : s ∈ shots ∨ s.note = .fired := by
  cases event with
  | key code isDown =>
    simp only [follow] at member
    split at member
    · rcases List.mem_append.mp member with old | new
      · exact .inl old
      · obtain ⟨_,_,rfl⟩ := List.mem_map.mp new
        exact .inr rfl
    · exact .inl member
  | resize w h => exact .inl member
  | collide rocks score => exact .inl (List.mem_of_mem_filter member)
  | tick => exact absurd rfl untimed

theorem follows_untimed (p : Player) {events : List PlayerEvent} (untimed : ∀ event ∈ events, event ≠ .tick) {s : Shot Since}
    (member : s ∈ follows A u p shots events) : s ∈ shots ∨ s.note = .fired := by
  induction events generalizing p shots with
  | nil => exact .inl member
  | cons event rest ih =>
    obtain ⟨here,later⟩ := List.forall_mem_cons.mp untimed
    rcases ih (play A u p event) later member with old | new
    · exact follow_untimed p here old
    · exact .inr new

-- A timer tick of the server is one more for every bullet, and reaches the gun unless the
-- ship is dead.
theorem tick_counts (running : w.game.gUniverse.timer.runTimer = true) {flown : Nat → List (Shot Since)} {address : Nat}
    {s : Shot Since} (member : s ∈ note A w .tick t flown address) : ∃ before ∈ flown address,
      s.note.ticks = before.note.ticks + 1 ∧ (w.owned address = true →
        s.note.seen + s.note.suspended = before.note.seen + before.note.suspended + 1) := by
  have rounds := detection_rounds (A := A) address (w.game.moveRocks A w.game.gUniverse.timer.tick)
    w.game.gUniverse.players.toList
  simp only [note,eventsOf,running,if_true,follows_append] at member
  generalize detectionEvents A address _ _ = events at rounds member
  obtain ⟨after,there,rfl⟩ := List.mem_map.mp member
  obtain ⟨fewer,same⟩ := collided_shots (A := A) (u := w.game.gUniverse.toSize) (w.game.memory address) (flown address) rounds
  unfold tickEvents at there
  split at there
  · simp only [follows,follow,same] at there
    split at there
    · rename_i life
      refine ⟨after,fewer.subset there,rfl,fun _ => ?_⟩
      simp only [Since.counted,life,if_true]
      omega
    · rename_i life
      obtain ⟨before,present,noted⟩ := tick_note there
      refine ⟨before,fewer.subset present,by simp only [Since.counted,noted,Since.aged],fun _ => ?_⟩
      simp only [Since.counted,life,noted,Since.aged,Bool.false_eq_true,if_false]
      omega
  · rename_i free
    exact ⟨after,fewer.subset there,rfl,fun owned => absurd owned free⟩

theorem request_counts (other : event ≠ .tick) {flown : Nat → List (Shot Since)} {address : Nat} {s : Shot Since}
    (member : s ∈ note A w event t flown address) : s ∈ flown address ∨ s.note = .fired := by
  have events := eventsOf_request (A := A) (w := w) other address
  have same : note A w event t flown address =
      follows A w.game.gUniverse.toSize (w.game.memory address) (flown address) (w.requestEvents event address) := by
    cases event with
    | tick => exact absurd rfl other
    | _ => rw [← events]; rfl
  rw [same] at member
  exact follows_untimed _ (request_untimed w event address) member

theorem step_allocates (ran : w.step A event = .ok t) :
    t.game.allocated = w.game.allocated ∨ ∃ id cw ch, t.game = w.game.newPlayer A id cw ch := by
  cases step_turn ran with
  | quiet _ game _ => exact .inl (by rw [game])
  | tick ticked => exact .inl (tick_played ticked).allocated
  | request _ _ effect _ =>
    rcases effect_played effect with played | ⟨cw,ch,made⟩
    · exact .inl played.allocated
    · exact .inr ⟨_,cw,ch,made⟩

theorem step_owned (ran : w.step A event = .ok t) {address : Nat} (held : t.owned address = true) :
    w.owned address = true ∨ address = w.game.allocated := by
  obtain ⟨id,player⟩ := owned_iff.mp held
  cases step_turn ran with
  | quiet _ _ players => exact .inl (owned_iff.mpr ⟨id,players id address player⟩)
  | tick ticked =>
    rcases tickEvent_game ticked with ⟨_,rfl⟩ | ⟨_,_,_,_,_,same⟩
    · exact .inl held
    · rw [same] at player
      exact .inl (owned_iff.mpr ⟨id,player⟩)
  | @request _ _ _ _ c s own _ found effect players =>
    rw [players] at player
    by_cases here : id = c.sessionID
    · subst here
      rw [Function.update_self] at player
      rcases effect_players effect with ⟨kept,_⟩ | ⟨new,_⟩
      · exact .inl (owned_iff.mpr ⟨c.sessionID,(playerOf_found found).trans (kept.symm.trans player)⟩)
      · exact .inr (Option.some.inj (player.symm.trans new))
    · rw [Function.update_of_ne here] at player
      exact .inl (owned_iff.mpr ⟨id,player⟩)

structure Followed (w : World) (flown : Nat → List (Shot Since)) : Prop where
  sessions : w.Owned
  book : DeadPlayer.Book w
  running : w.game.gUniverse.timer.runTimer = true
  held : ∀ address < w.game.allocated, bullets (flown address) = (w.game.memory address).ship.gun.bullets
  unmade : ∀ address, w.game.allocated ≤ address → flown address = []
  lined : ∀ address, Lined (flown address)
  counts : ∀ address, w.owned address = true → ∀ s ∈ flown address, s.note.ticks = s.note.seen + s.note.suspended

section Step
variable {flown : Nat → List (Shot Since)}

theorem owned_made (book : DeadPlayer.Book w) {address : Nat} (held : w.owned address = true) : address < w.game.allocated := by
  obtain ⟨id,player⟩ := owned_iff.mp held
  obtain ⟨_,same,bound⟩ := book.issued id _ (book.own id address player)
  cases same
  exact bound

theorem requested_owned {s : Session} {bytes : List UInt8} {beyond : Nat → UInt8}
    (asked : w.requestOf event = some (s,bytes,beyond)) {address : Nat} (player : s.player = some address) : w.owned address = true := by
  unfold requestOf at asked
  split at asked
  · obtain ⟨session,reached,same⟩ := Option.map_eq_some_iff.mp asked
    cases same
    obtain ⟨c,_,found⟩ := Option.bind_eq_some_iff.mp reached
    exact owned_iff.mpr ⟨c.sessionID,(playerOf_found (sessionAt_some.mp found)).trans player⟩
  · cases asked

theorem note_bullets (w t : World) (event : Event) (address : Nat) : bullets (note A w event t flown address) =
    bullets (follows A w.game.gUniverse.toSize (w.game.memory address) (flown address) (w.eventsOf A event address)) := by
  unfold note
  split
  · simp [bullets,Function.comp_def]
  · rfl

theorem note_lined (w t : World) (event : Event) {address : Nat} (lined : Lined (flown address)) :
    Lined (note A w event t flown address) := by
  unfold note
  split
  · exact counted_lined _ (plays_lined _ lined _)
  · exact plays_lined _ lined _

theorem note_unmade (followed : Followed w flown) {address : Nat} (unmade : w.game.allocated ≤ address) :
    note A w event t flown address = [] := by
  by_contra present
  obtain ⟨s,member⟩ := List.exists_mem_of_ne_nil _ present
  have none := followed.unmade address unmade
  by_cases tick : event = .tick
  · subst tick
    obtain ⟨before,there,_⟩ := tick_counts followed.running member
    rw [none] at there
    cases there
  · have events : w.eventsOf A event address = [] := by
      rw [eventsOf_request tick]
      refine List.eq_nil_iff_forall_not_mem.mpr fun played inside => ?_
      obtain ⟨s,bytes,beyond,_,asked,player,_⟩ := requestEvents_member inside
      exact absurd (owned_made followed.book (requested_owned asked player)) (Nat.not_lt.mpr unmade)
    cases event with
    | tick => exact tick rfl
    | _ =>
      simp only [note,events,follows,none] at member
      cases member

theorem followed_step (followed : Followed w flown) (ran : w.step A event = .ok t) :
    Followed t (note A w event t flown) := by
  have size := (step_universe ran).2.1
  have grows : w.game.allocated ≤ t.game.allocated := by
    rcases step_allocates ran with same | ⟨id,cw,ch,made⟩
    · exact same.ge
    · rw [made]
      exact Nat.le_succ _
  refine ⟨owned_step followed.sessions ran,DeadPlayer.book_step followed.sessions followed.book ran,?_,?_,?_,?_,?_⟩
  · rw [size]
    exact followed.running
  · intro address made
    by_cases old : address < w.game.allocated
    · rw [note_bullets,plays_followed (followed.held address old),step_plays followed.book ran old]
    · rw [note_unmade followed (Nat.le_of_not_lt old)]
      rcases step_allocates ran with same | ⟨id,cw,ch,game⟩
      · omega
      · rw [game] at made ⊢
        have new : address = w.game.allocated := by simp only [Game.newPlayer] at made; omega
        rw [new,Game.newPlayer_memory]
        rfl
  · exact fun address unmade => note_unmade followed (Nat.le_trans grows unmade)
  · exact fun address => note_lined w t event (followed.lined address)
  · intro address held s member
    by_cases old : w.owned address = true
    · by_cases tick : event = .tick
      · subst tick
        obtain ⟨before,there,later,reached⟩ := tick_counts followed.running member
        have kept := followed.counts address old before there
        have added := reached old
        omega
      · rcases request_counts tick member with there | new
        · exact followed.counts address old s there
        · rw [new]
          rfl
    · rcases step_owned ran held with there | new
      · exact absurd there old
      · rw [note_unmade followed new.ge] at member
        cases member

theorem followed_make (A : Arith) (rand : Rand) : Followed (World.make A rand) fun _ => [] := by
  have fresh := Game.make_fresh A rand
  rw [← make_game A rand] at fresh
  refine ⟨owned_make A rand,DeadPlayer.book_make A rand,?_,?_,fun _ _ => rfl,fun _ => ⟨_,tracks_nil⟩,?_⟩
  · rw [fresh.timer]
    rfl
  · intro address made
    rw [fresh.allocated] at made
    exact absurd made (Nat.not_lt_zero _)
  · exact fun _ _ _ member => absurd member List.not_mem_nil

end Step

def Expiring (s : World × (Nat → List (Shot Since))) : Prop :=
  ∀ address, s.1.owned address = true → bullets (s.2 address) = (s.1.game.memory address).ship.gun.bullets ∧
    ∀ shot ∈ s.2 address, shot.note.ticks ≤ 184 + shot.note.suspended

theorem followed_expiring {flown : Nat → List (Shot Since)} (followed : Followed w flown) : Expiring (w,flown) := by
  intro address held
  refine ⟨followed.held address (owned_made followed.book held),fun shot member => ?_⟩
  have age := lined_age (followed.lined address) member
  have count := followed.counts address held shot member
  omega

theorem followed_always (A : Arith) (rand : Rand) (history : List Event) :
    Runs.Always (Runs.annotate (World.step A) (note A)) (fun s => Followed s.1 s.2) (World.make A rand,fun _ => []) history := by
  refine Runs.always_invariant ?_ ?_ history
  · intro s event next followed ran
    obtain ⟨one,noted⟩ := Runs.annotate_ok.mp ran
    rw [noted]
    exact followed_step followed one
  · exact followed_make A rand

theorem bullets_expire (A : Arith) (rand : Rand) (history : List Event) :
    Runs.Always (Runs.annotate (World.step A) (note A)) Expiring (World.make A rand,fun _ => []) history :=
  (followed_always A rand history).imp fun _ => followed_expiring

theorem ticks_counted {n m : Nat} {s s' : World × (Nat → List (Shot Since))}
    (running : s.1.game.gUniverse.timer.runTimer = true)
    (ran : Runs.run (Runs.annotate (World.step A) (note A)) s (List.replicate n .tick) = .ok s')
    (old : ∀ address, ∀ shot ∈ s.2 address, m ≤ shot.note.ticks) :
    ∀ address, ∀ shot ∈ s'.2 address, m + n ≤ shot.note.ticks := by
  induction n generalizing s m with
  | zero => cases ran; exact old
  | succ n ih =>
    obtain ⟨middle,ticked,tail⟩ := Runs.bind_ok.mp ran
    obtain ⟨one,noted⟩ := Runs.annotate_ok.mp ticked
    have timer := (step_universe one).2.1
    have older : ∀ address, ∀ shot ∈ middle.2 address, m + 1 ≤ shot.note.ticks := by
      intro address shot member
      rw [noted] at member
      obtain ⟨before,there,count,_⟩ := tick_counts running member
      have bound := old address before there
      omega
    intro address shot member
    have bound := ih (by rw [timer]; exact running) tail older address shot member
    omega

-- A bullet fired at the end of the last explosion, above a rock at the centre.
section Suspended
open Consts LonePlayer RestingShip

structure Armed (exploding dead : Bool) (shot : Bullet → Prop) (s : Ship) : Prop where
  place : s.toPosition = centre
  radius : s.radius = 10
  exploding : s.exploding = exploding
  dead : s.dead = dead
  vulnerable : s.invulnerable = false
  bullet : ∃ b, s.gun.bullets = [b] ∧ shot b

theorem Armed.each {exploding dead : Bool} {shot : Bullet → Prop} {s : Ship} (armed : Armed exploding dead shot s) {b : Bullet}
    (member : b ∈ s.gun.bullets) : shot b := by
  obtain ⟨only,single,good⟩ := armed.bullet
  rw [single] at member
  rw [List.mem_singleton.mp member]
  exact good

def Fresh (b : Bullet) : Prop := b.ticksLeft = 180 ∧ b.posY = 4086 ∧ b.deltaY = -muzzleVelocity / fps

def Away (b : Bullet) : Prop := b.posY ≤ 4086

def Fired (s : Ship) : Prop := Armed true false Fresh s ∧ s.livesLeft = 0 ∧ s.explosionDuration = 0

def fireRequest : List UInt8 := [0xAB,0x04,1,32]

theorem fire_decoded : Session.requested fireRequest (fun _ => 0) = some (.keyEvent 32 true) := rfl

theorem away_clear {b : Bullet} (away : Away b) : bulletHit .upright (atCentre 8) b = false := by
  have gap : (10 : ℚ) ≤ 4096 - b.posY := by
    unfold Away at away
    linarith
  have apart : (8 : ℚ) ^ 2 ≤ (b.posX - 4096) ^ 2 + (b.posY - 4096) ^ 2 := by nlinarith [sq_nonneg (b.posX - 4096)]
  simp only [bulletHit,Arith.upright,Arith.exact,atCentre,centre,decide_eq_false_iff_not,not_and,not_lt]
  exact fun _ => apart

theorem blast_fires (p : Player) (blast : Blast 0 0 p.ship) (u : Size) : Fired (play .upright u p (.key 32 true)).ship := by
  obtain ⟨rests,timer⟩ := blast
  have same : (play .upright u p (.key 32 true)).ship = p.ship.fireGuns .upright := by
    have keyed : p.ship.keyEvent .upright 32 true = p.ship.fireGuns .upright := rfl
    have alive : (p.ship.fireGuns .upright).dead = false := rests.dead
    simp only [play,Player.keyEvent,keyed,alive,Bool.false_eq_true,if_false]
    split <;> rfl
  rw [same]
  refine ⟨⟨rests.place,rests.radius,rests.exploding,rests.dead,rests.invulnerable,?_⟩,rests.lives,?_⟩
  · show ∃ b, (p.ship.gun.fire .upright p.ship).bullets = [b] ∧ Fresh b
    unfold Gun.fire
    rw [rests.bullets,if_neg (by decide)]
    refine ⟨_,rfl,rfl,?_,?_⟩
    · simp only [Bullet.make,Arith.upright,Arith.exact,rests.place,rests.radius,centre]
      ring
    · simp only [Bullet.make,Arith.upright,Arith.exact]
      norm_num [muzzleVelocity,fps]
  · exact timer.trans (by simp)

theorem fresh_tick {b : Bullet} (fresh : Fresh b) :
    (b.tickEvent .upright space).2 = false ∧ Away (b.tickEvent .upright space).1 := by
  obtain ⟨ticks,high,speed⟩ := fresh
  have flag : (b.tickEvent .upright space).2 = ((b.tickEvent .upright space).1.ticksLeft == 0) := rfl
  obtain ⟨left,up⟩ : (b.tickEvent .upright space).1.ticksLeft = 179 ∧
      (b.tickEvent .upright space).1.posY = wrapCoordinate 8192 (b.posY + b.deltaY) := by
    simp [Bullet.tickEvent,ticks,space,Arith.upright,Arith.exact]
  constructor
  · rw [flag,left]
    rfl
  · rw [Away,up,high,speed]
    norm_num [wrapCoordinate,muzzleVelocity,fps]

theorem fired_tick {s : Ship} (fired : Fired s) : Armed false true Away (s.tickEvent .upright space) := by
  obtain ⟨⟨place,radius,exploding,dead,vulnerable,b,single,fresh⟩,lives,timer⟩ := fired
  obtain ⟨waiting,away⟩ := fresh_tick fresh
  have moved : s.moveShip .upright space = s := by simp [Ship.moveShip,exploding]
  have gun : (s.gun.tickEvent .upright space).bullets = [(b.tickEvent .upright space).1] := by
    simp [Gun.tickEvent,single,waiting]
  have dies : s.tickEvent .upright space =
      {s with gun := s.gun.tickEvent .upright space, explosionDuration := shipExplodeDur, exploding := false, dead := true} := by
    have ended : s.explosionDuration - 1 / fps < 0 := by
      rw [timer]
      norm_num [fps]
    have ended : Arith.upright.fl (s.explosionDuration - Arith.upright.fl (1 / fps)) < 0 := ended
    simp only [Ship.tickEvent,moved,exploding,if_true,ended,Ship.newLife,lives,ne_eq,not_true_eq_false,if_false]
  rw [dies]
  exact ⟨place,radius,rfl,rfl,vulnerable,_,gun,away⟩

theorem armed_reached : ∃ history w, Runs.run (World.step .upright) (World.make .upright .zeros) history = .ok w ∧
    Stands Fired [8] w := by
  obtain ⟨history,w,ran,stands⟩ : ∃ history w,
      Runs.run (World.step .upright) (World.make .upright .zeros) history = .ok w ∧ Stands (Blast 0 0) [8] w :=
    last_blast_reached (fun _ => 0) (fun _ => 1)
  obtain ⟨t,fired,lone,game⟩ := lone_plays (A := .upright) stands.lone fire_decoded rfl
  refine ⟨history ++ [.onRead 0 (.message fireRequest fun _ => 0)],t,?_,lone,?_,?_⟩
  · rw [Runs.run_append _ ran,Runs.run_single]
    exact fired
  · rw [game]
    exact ⟨stands.pile.rocks,stands.pile.size,stands.pile.zeros⟩
  · rw [game,Game.setPlayer_self]
    exact blast_fires _ stands.ship _

structure Kept (w : World) : Prop where
  lone : Lone w
  empty : w.game.gUniverse.rockField.rocks = []
  dead : (w.game.memory 0).ship.dead = true
  bullets : (w.game.memory 0).ship.gun.bullets ≠ []

theorem fired_dies {w : World} (stands : Stands Fired [8] w) :
    ∃ t, w.step .upright .tick = .ok t ∧ Stands (Armed false true Away) [8] t := by
  have moved := pile_moves (fun _ => 0) (fun _ => 1) stands.pile w.game.gUniverse.timer.tick
  have armed := stands.ship.1
  refine round_ticks (fun _ => 0) (fun _ => 1) stands
    (playerRound_missed 0 fun node member => ⟨fun shot inside => ?_,?_⟩) rfl rfl moved armed.dead (fired_tick stands.ship)
  · have rock : node.rock = atCentre 8 := by
      have inside : node.rock ∈ [8].map atCentre := by
        rw [← moved.rocks]
        exact List.mem_map_of_mem member
      exact List.mem_singleton.mp inside
    obtain ⟨_,high,_⟩ : Fresh shot := armed.each inside
    rw [rock]
    exact away_clear high.le
  · exact ScanMeaning.shipHit_exploding armed.exploding node.rock

theorem dead_clears {w : World} (stands : Stands (Armed false true Away) [8] w) :
    ∃ t, w.step .upright .tick = .ok t ∧ Kept t := by
  obtain ⟨place,radius,quiet,dead,vulnerable,b,single,_⟩ := stands.ship
  have clear : ∀ q ∈ [8], ∀ shot ∈ (w.game.memory 0).ship.gun.bullets, bulletHit .upright (atCentre q) shot = false := by
    intro q here shot inside
    rw [List.mem_singleton.mp here]
    exact away_clear (stands.ship.each inside)
  obtain ⟨g,round,pile,exploded,timer,kept⟩ := round_hits (fun _ => 0) (fun _ => 1)
    (pile_moves (fun _ => 0) (fun _ => 1) stands.pile w.game.gUniverse.timer.tick) 0
    (shipHit_centre (fun _ => 0) (fun _ => 1) (by norm_num) place radius quiet vulnerable) clear
  obtain ⟨t,ticked,game,lone⟩ := lone_ticks (A := .upright) stands.lone round timer kept
  have gone : (g.memory 0).ship.dead = true := by
    rw [exploded]
    exact dead
  have ship : (t.game.memory 0).ship = (w.game.memory 0).ship.explode := by
    rw [game,Game.setPlayer_self,tick_dead _ gone]
    exact exploded
  have empty : g.gUniverse.rockField.rocks = [] := by
    have none : shatter [8] = [] := by norm_num [shatter,fragments,rockRadius]
    have rocks := pile.rocks
    rw [none] at rocks
    exact List.map_eq_nil_iff.mp rocks
  refine ⟨t,ticked,lone,by rw [game]; exact empty,?_,?_⟩
  · rw [ship]
    exact dead
  · have gun : (w.game.memory 0).ship.explode.gun.bullets = [b] := single
    rw [ship,gun]
    exact List.cons_ne_nil b []

theorem kept_stays (n : Nat) {w : World} (keeping : Kept w) :
    ∃ t, Runs.run (World.step .upright) w (List.replicate n .tick) = .ok t ∧ Kept t := by
  induction n generalizing w with
  | zero => exact ⟨w,rfl,keeping⟩
  | succ n ih =>
    obtain ⟨next,ticked,lone,empty,game⟩ := lone_drifts (A := .upright) keeping.lone keeping.empty
    have same : (next.game.memory 0).ship = (w.game.memory 0).ship := by
      rw [game,Game.setPlayer_self,tick_dead _ keeping.dead]
    obtain ⟨t,more,ended⟩ := ih ⟨lone,empty,by rw [same]; exact keeping.dead,by rw [same]; exact keeping.bullets⟩
    exact ⟨t,Runs.bind_ok.mpr ⟨next,ticked,more⟩,ended⟩

theorem suspended_bullet_stays : ∃ history, ¬ Runs.Always (Runs.annotate (World.step .upright) (note .upright))
    (fun s => ∀ address, s.1.owned address = true → ∀ shot ∈ s.2 address, shot.note.ticks ≤ 184)
    (World.make .upright .zeros,fun _ => []) history := by
  obtain ⟨first,armed,ran,stands⟩ := armed_reached
  obtain ⟨died,one,stands⟩ := fired_dies stands
  obtain ⟨cleared,two,kept⟩ := dead_clears stands
  obtain ⟨last,more,kept⟩ := kept_stays 185 kept
  refine ⟨first ++ List.replicate 187 .tick,fun expired => ?_⟩
  obtain ⟨flown,flew⟩ := Runs.annotate_run (note .upright) ran fun _ => []
  have ticks : Runs.run (World.step .upright) armed (List.replicate 187 .tick) = .ok last :=
    Runs.bind_ok.mpr ⟨died,one,Runs.bind_ok.mpr ⟨cleared,two,more⟩⟩
  obtain ⟨later,ticked⟩ := Runs.annotate_run (note .upright) ticks flown
  have reached : Runs.run (Runs.annotate (World.step .upright) (note .upright)) (World.make .upright .zeros,fun _ => [])
      (first ++ List.replicate 187 .tick) = .ok (last,later) := by
    rw [Runs.run_append _ flew]
    exact ticked
  have followed := (followed_always .upright .zeros _).last reached
  have running := ((followed_always .upright .zeros first).last flew).running
  have owned := lone_owned kept.lone
  have held : bullets (later 0) = (last.game.memory 0).ship.gun.bullets := followed.held 0 (owned_made followed.book owned)
  obtain ⟨shot,member⟩ := List.exists_mem_of_ne_nil (later 0) fun none => kept.bullets (by rw [← held,none]; rfl)
  have long := ticks_counted running ticked (fun _ _ _ => Nat.zero_le _) 0 shot member
  have short := expired.last reached 0 owned shot member
  omega

end Suspended

end Geoff.Flights
