import Geoff.CollisionBounds
import Geoff.Company
import Geoff.Flights
import Geoff.MessageEvents
import Geoff.TickMessages
import Geoff.Viewport

-- What the pages show against what the server holds: the messages of every tick are read
-- back, whatever has led to it, as long as the counts fit their words.
namespace Geoff.Mirror
open Consts Collision CollisionBounds Messages PlayerEvents RoundTrips World
open ShipBounds (Bounded Fitted Kept Scanned Settled field viewportMiddle)
open ShipRuns (Seaworthy trim)
open Viewport (Fits Framed Lasting Served Windows)

structure Docked (s : Ship) : Prop where
  framed : Framed s.toContext
  fitted : Fitted s
  inside : Inside s.toPosition

theorem middle_inside {s : Ship} (framed : Framed s.toContext) : Inside (viewportMiddle s) := by
  have wide : (s.ctxOX.toNat : ℚ) + (s.ctxW / 2).toNat ≤ 8192 := by
    have half := Viewport.half_toNat s.ctxW
    have across := framed.across
    exact_mod_cast show s.ctxOX.toNat + (s.ctxW / 2).toNat ≤ 8192 by omega
  have high : (s.ctxOY.toNat : ℚ) + (s.ctxH / 2).toNat ≤ 8192 := by
    have half := Viewport.half_toNat s.ctxH
    have down := framed.down
    exact_mod_cast show s.ctxOY.toNat + (s.ctxH / 2).toNat ≤ 8192 by omega
  obtain ⟨left,top⟩ := ShipBounds.middle_placed s
  exact ⟨⟨left,wide⟩,top,high⟩

variable {cos sin : ℚ → ℚ} (ideal : (Arith.exact cos sin).Ideal)
include ideal

theorem docked_seaworthy : Seaworthy (.exact cos sin) Fits Docked where
  made := by
    intro cw ch fits
    refine ⟨(Viewport.framed_seaworthy cos sin).made cw ch fits,(ShipBounds.make_kept ideal cw ch).bounded.fitted,?_⟩
    simp only [Player.make,Ship.make,ideal.fl,field,Inside]
    norm_num
  trimmed := by
    intro s s' same docked
    have place : (trim s').toPosition = (trim s).toPosition := congrArg Ship.toPosition same
    have hulls : ShipBounds.hull (trim s') = ShipBounds.hull (trim s) := congrArg ShipBounds.hull same
    refine ⟨(Viewport.framed_seaworthy cos sin).trimmed s s' same docked.framed,hulls.trans docked.fitted,?_⟩
    show Inside (trim s').toPosition
    rw [place]
    exact docked.inside
  resized := fun s w h fits docked =>
    ⟨(Viewport.framed_seaworthy cos sin).resized s w h fits docked.framed,docked.fitted,docked.inside⟩
  stopped := fun _ docked => ⟨docked.framed,docked.fitted,docked.inside⟩
  reborn := by
    intro s docked left
    refine ⟨(Viewport.framed_seaworthy cos sin).reborn s docked.framed left,?_,?_⟩
    · unfold Ship.newLife
      rw [if_pos left]
      exact docked.fitted
    · unfold Ship.newLife
      rw [if_pos left]
      exact middle_inside docked.framed
  moved := fun s docked moves alive =>
    ⟨(Viewport.framed_seaworthy cos sin).moved s docked.framed moves alive,docked.fitted.steered (s.moveShip_steered _ field),
      (ShipBounds.moveShip_inside ideal docked.fitted moves alive).1⟩
  shielded := by
    intro s docked shields
    refine ⟨(Viewport.framed_seaworthy cos sin).shielded s docked.framed shields,?_,?_⟩
    · obtain ⟨_,_,_,_,_,shielded⟩ := ShipRuns.shield_writes (A := .exact cos sin) s
      rw [shielded]
      exact docked.fitted
    · obtain ⟨_,_,_,_,_,shielded⟩ := ShipRuns.shield_writes (A := .exact cos sin) s
      rw [shielded]
      exact docked.inside

structure Charted (p : Player) : Prop where
  docked : Docked p.ship
  kept : Kept p
  lives : 0 ≤ p.ship.livesLeft ∧ p.ship.livesLeft ≤ numLives
  few : p.ship.gun.bullets.length ≤ gunMagSize
  near : ∀ b ∈ p.ship.gun.bullets, Legible b

omit ideal in
theorem scanned_lives {s s' : Ship} (scanned : Scanned s s') : s'.livesLeft = s.livesLeft := by
  obtain ⟨bullets,_,rfl | ⟨_,_,rfl⟩⟩ := scanned
  · rfl
  · rfl

omit ideal in
theorem key_lives {A : Arith} (p : Player) (code : Nat) (isDown : Bool) :
    (p.keyEvent A code isDown).ship.livesLeft = p.ship.livesLeft ∨ (p.keyEvent A code isDown).ship.livesLeft = numLives := by
  have keyed := congrArg Lives.Vitals.livesLeft (Lives.keyEvent_vitals (A := A) p.ship code isDown)
  unfold Player.keyEvent
  dsimp only
  split
  · split
    · exact .inr rfl
    · exact .inl keyed
  · exact .inl keyed

omit ideal in
theorem tickEvent_lives {A : Arith} {u : Size} (s : Ship) : (s.tickEvent A u).livesLeft = s.livesLeft ∨
    s.livesLeft ≠ 0 ∧ (s.tickEvent A u).livesLeft = s.livesLeft - 1 := by
  rcases Lives.tickEvent_vitals (A := A) (u := u) s with ⟨_,_,_,same⟩ | ⟨_,same | ended⟩
  · exact .inl (congrArg Lives.Vitals.livesLeft same)
  · exact .inl (congrArg Lives.Vitals.livesLeft same)
  · split at ended
    · rename_i left
      exact .inr ⟨left,congrArg Lives.Vitals.livesLeft ended⟩
    · exact .inl (congrArg Lives.Vitals.livesLeft ended)

omit ideal in
theorem play_lives {A : Arith} {p : Player} (event : PlayerEvent) (lives : 0 ≤ p.ship.livesLeft ∧ p.ship.livesLeft ≤ numLives) :
    0 ≤ (play A field p event).ship.livesLeft ∧ (play A field p event).ship.livesLeft ≤ numLives := by
  cases event with
  | key code isDown =>
    rw [play]
    rcases key_lives (A := A) p code isDown with same | full
    · rw [same]
      exact lives
    · rw [full]
      decide
  | resize w h => exact lives
  | collide rocks score =>
    rw [play,scanned_lives (ShipBounds.scanRocks_scanned rocks p.ship)]
    exact lives
  | tick =>
    show 0 ≤ (p.tick A field).ship.livesLeft ∧ (p.tick A field).ship.livesLeft ≤ numLives
    cases dead : p.ship.dead with
    | true =>
      rw [tick_dead field dead]
      exact lives
    | false =>
      rw [tick_alive field dead]
      rcases tickEvent_lives (A := A) (u := field) p.ship with same | ⟨left,less⟩
      · rw [same]
        exact lives
      · rw [less]
        omega

omit ideal in
theorem gunTick_few {A : Arith} {u : Size} (gun : Gun) : (gun.tickEvent A u).bullets.length ≤ gun.bullets.length := by
  unfold Gun.tickEvent
  split
  · exact le_refl _
  · dsimp only
    split
    · simp
    · simp

omit ideal in
theorem fire_few {A : Arith} {gun : Gun} (s : Ship) (few : gun.bullets.length ≤ gunMagSize) :
    (gun.fire A s).bullets.length ≤ gunMagSize := by
  obtain ⟨new,grows,⟨_,rfl⟩ | ⟨room,b,rfl,_⟩⟩ := Magazine.fire_grows (A := A) gun s
  · rw [grows,List.append_nil]
    exact few
  · rw [grows,List.length_append]
    exact Nat.lt_of_le_of_ne few room

omit ideal in
theorem play_few {A : Arith} {p : Player} (event : PlayerEvent) (few : p.ship.gun.bullets.length ≤ gunMagSize) :
    (play A field p event).ship.gun.bullets.length ≤ gunMagSize := by
  cases event with
  | key code isDown =>
    rw [play,Flights.keyed_gun,Flights.keyEvent_gun]
    split
    · exact fire_few p.ship few
    · exact few
  | resize w h => exact few
  | collide rocks score =>
    rw [play,Flights.scanned_gun]
    exact (List.length_filter_le _ _).trans few
  | tick =>
    show (p.tick A field).ship.gun.bullets.length ≤ gunMagSize
    cases dead : p.ship.dead with
    | true =>
      rw [tick_dead field dead]
      exact few
    | false =>
      rw [tick_alive field dead,Flights.tickEvent_gun]
      exact (gunTick_few _).trans few

theorem tick_settled {p : Player} (kept : Kept p) : Settled (p.tick (.exact cos sin) field).ship := by
  cases dead : p.ship.dead with
  | true =>
    rw [tick_dead field dead]
    exact (kept.resting dead).2
  | false =>
    rw [tick_alive field dead]
    exact (ShipBounds.tickEvent_bounded ideal kept.bounded dead).2.1

-- A muzzle is ten away from the middle of its ship.
theorem fire_near {s : Ship} (docked : Docked s) (near : ∀ b ∈ s.gun.bullets, Legible b) :
    ∀ b ∈ (s.gun.fire (.exact cos sin) s).bullets, Legible b := by
  unfold Gun.fire
  split
  · exact near
  · intro b member
    rcases List.mem_append.mp member with old | new
    · exact near b old
    · rw [List.mem_singleton.mp new]
      obtain ⟨⟨left,right⟩,top,bottom⟩ := docked.inside
      obtain ⟨back,forth⟩ := ideal.cos s.angle
      obtain ⟨down,up⟩ := ideal.sin s.angle
      simp only [Legible,Bullet.make,ideal.fl,docked.fitted.radius]
      refine ⟨⟨?_,?_⟩,?_,?_⟩ <;> linarith

theorem play_near {p : Player} (charted : Charted p) (event : PlayerEvent) :
    ∀ b ∈ (play (.exact cos sin) field p event).ship.gun.bullets, Legible b := by
  cases event with
  | key code isDown =>
    rw [play,Flights.keyed_gun,Flights.keyEvent_gun]
    split
    · exact fire_near ideal charted.docked charted.near
    · exact charted.near
  | resize w h => exact charted.near
  | collide rocks score =>
    rw [play,Flights.scanned_gun]
    exact fun b member => charted.near b (List.mem_of_mem_filter member)
  | tick => exact fun b member => Inside.legible (tick_settled ideal charted.kept b member)

theorem charted_lasting : Lasting (.exact cos sin) Fits Charted where
  made := fun cw ch fits => {
    docked := (docked_seaworthy ideal).lasting.made cw ch fits
    kept := ShipBounds.make_kept ideal cw ch
    lives := by
      show 0 ≤ numLives ∧ numLives ≤ numLives
      decide
    few := Nat.zero_le _
    near := fun _ member => absurd member List.not_mem_nil }
  played := fun p event sized charted => {
    docked := (docked_seaworthy ideal).lasting.played p event sized charted.docked
    kept := ShipBounds.play_kept ideal charted.kept event
    lives := play_lives event charted.lives
    few := play_few event charted.few
    near := play_near ideal charted event }

omit ideal in
theorem bulletsOf_few {ships : List Ship} {n : ℕ} (few : ∀ s ∈ ships, s.gun.bullets.length ≤ n) :
    (bulletsOf ships).length ≤ ships.length * n := by
  induction ships with
  | nil => exact Nat.zero_le _
  | cons s rest ih =>
    obtain ⟨here,later⟩ := List.forall_mem_cons.mp few
    have more := ih later
    rw [bulletsOf,List.flatMap_cons,List.length_append,List.length_cons,Nat.succ_mul]
    rw [bulletsOf] at more
    omega

omit ideal in
theorem otherShips_few (g : Game) (sessionID : UInt32) (m : SessionMap) : (otherShips g sessionID m.toList).length ≤ m.size := by
  rw [otherShips_owners]
  refine (List.length_filterMap_le _ _).trans ?_
  rw [Std.TreeMap.length_toList]
  exact Std.TreeMap.size_filterMap_le_size

variable {w t : World} {g : Game}

omit ideal in
theorem otherShips_owned (book : DeadPlayer.Book w) {sessionID : UInt32} {s : Ship}
    (member : s ∈ otherShips g sessionID w.gSessions.sessions.toList) :
    ∃ address < w.game.allocated, s = (g.memory address).ship := by
  rw [otherShips_owners] at member
  obtain ⟨⟨id,address⟩,listed,shown⟩ := List.mem_filterMap.mp member
  split at shown
  · cases shown
  · cases shown
    have stored := Std.TreeMap.mem_toList_iff_getElem?_eq_some.mp listed
    have held : w.playerOf id = some address := (owners_playerOf _ id).symm.trans stored
    exact ⟨address,Flights.owned_made book (owned_iff.mpr ⟨id,held⟩),rfl⟩

theorem collided_charted (served : Served Charted w)
    (collided : (w.game.moveRocks (.exact cos sin) w.game.gUniverse.timer.tick).collisionDetection (.exact cos sin) = .ok g)
    {address : Nat} (old : address < w.game.allocated) : Charted (g.memory address) := by
  have detected := detection_plays collided field address
  rw [detected]
  refine (charted_lasting ideal).plays (fun event member => ?_) (served.players address old)
  obtain ⟨rocks,score,rfl⟩ := detection_rounds _ _ _ event member
  trivial

theorem tick_readable (served : Served Charted w) (sized : Rocks Sized w.game)
    (collided : (w.game.moveRocks (.exact cos sin) w.game.gUniverse.timer.tick).collisionDetection (.exact cos sin) = .ok g)
    (rocks : g.gUniverse.rockField.rocks.length < 65536) (sessions : w.gSessions.sessions.size ≤ 10922) (sessionID : UInt32) :
    Readable (.exact cos sin) g (otherShips g sessionID w.gSessions.sessions.toList) := by
  have size : g.gUniverse.toSize = field := (rounds_run collided).size.trans served.size
  have wide : g.gUniverse.sizeW = 8192 := congrArg Size.sizeW size
  have high : g.gUniverse.sizeH = 8192 := congrArg Size.sizeH size
  obtain ⟨fits,_⟩ := detection_collided ideal (moved_rocks served.size sized) collided
  have ships : ∀ s ∈ otherShips g sessionID w.gSessions.sessions.toList, ∃ p : Player, Charted p ∧ s = p.ship := by
    intro s member
    obtain ⟨address,old,same⟩ := otherShips_owned served.book member
    exact ⟨g.memory address,collided_charted ideal served collided old,same⟩
  have few := otherShips_few g sessionID w.gSessions.sessions
  have bullets : (bulletsOf (otherShips g sessionID w.gSessions.sessions.toList)).length ≤ _ :=
    bulletsOf_few fun s member => by
      obtain ⟨p,charted,rfl⟩ := ships s member
      exact charted.few
  have six : gunMagSize = 6 := rfl
  rw [six] at bullets
  constructor
  · rw [wide]
    norm_num
  · rw [high]
    norm_num
  · exact rocks
  · exact fun node member => (fits node member).1
  · intro node member
    obtain ⟨_,least,most⟩ := fits node member
    exact ⟨least,by linarith⟩
  · omega
  · intro s member
    obtain ⟨p,charted,rfl⟩ := ships s member
    exact charted.docked.inside
  · intro s member
    obtain ⟨p,charted,rfl⟩ := ships s member
    obtain ⟨least,most⟩ := charted.kept.bounded.turned
    have turn : mPi * 2 < 16 := by norm_num [mPi]
    exact ⟨least,lt_of_le_of_lt most turn,ideal.fl _⟩
  · omega
  · intro b member
    obtain ⟨s,listed,held⟩ := List.mem_flatMap.mp member
    obtain ⟨p,charted,rfl⟩ := ships s listed
    exact charted.near b held

theorem ticked_fits {p : Player} (charted : Charted p) : PlayerFits (.exact cos sin) (p.tick (.exact cos sin) field) := by
  have ticked : Charted (p.tick (.exact cos sin) field) := (charted_lasting ideal).played p .tick trivial charted
  have settled := tick_settled ideal charted.kept
  obtain ⟨docked,kept,lives,few,_⟩ := ticked
  obtain ⟨least,most⟩ := kept.bounded.turned
  have turn : mPi * 2 < 16 := by norm_num [mPi]
  have five : numLives = 5 := rfl
  have six : gunMagSize = 6 := rfl
  constructor
  · exact ⟨docked.inside.1.1,by linarith [docked.inside.1.2]⟩
  · exact ⟨docked.inside.2.1,by linarith [docked.inside.2.2]⟩
  · exact ⟨least,lt_of_le_of_lt most turn,ideal.fl _⟩
  · omega
  · omega
  · intro b member
    obtain ⟨⟨left,right⟩,top,bottom⟩ := settled b member
    exact ⟨⟨left,by linarith⟩,top,by linarith⟩

omit ideal in
theorem shown_same {sessionID : UInt32} {ships : List Ship} {c : Client.Globals} (still : t.game.gUniverse = g.gUniverse)
    (shown : UniverseShown g sessionID ships c) : UniverseShown t.game sessionID ships c := by
  obtain ⟨own,ticks,wide,high,rocks,others,bullets⟩ := shown
  rw [← still] at ticks wide high rocks
  exact ⟨own,ticks,wide,high,rocks,others,bullets⟩

theorem tick_wires (served : Served Charted w) (sized : Rocks Sized w.game)
    (running : w.game.gUniverse.timer.runTimer = true) (ticked : w.step (.exact cos sin) .tick = .ok t)
    (rocks : t.game.gUniverse.rockField.rocks.length < 65536) (sessions : w.gSessions.sessions.size ≤ 10922) :
    ∃ g, (w.game.moveRocks (.exact cos sin) w.game.gUniverse.timer.tick).collisionDetection (.exact cos sin) = .ok g ∧
      t.game.gUniverse = g.gUniverse ∧
      ∀ id s address, w.sessionAt id = some s → s.player = some address → s.isLittleEndian = true →
        t.game.memory address = (g.memory address).tick (.exact cos sin) field ∧
        Readable (.exact cos sin) g (otherShips g id w.gSessions.sessions.toList) ∧
        PlayerFits (.exact cos sin) (t.game.memory address) ∧
        ∃ first second, (t.sessionAt id).map (fun s' => s'.txQue) = some (s.txQue ++ [first,second]) ∧
          first.wire = universeTick (.exact cos sin) true g w.gSessions.sessions id ∧
          second.wire = playerTick (.exact cos sin) true (t.game.memory address) id g.gUniverse.ticks := by
  obtain ⟨g,collided,still,told⟩ := tick_exact served.book running ticked
  have size : g.gUniverse.toSize = field := (rounds_run collided).size.trans served.size
  refine ⟨g,collided,still,fun id s address found player announced => ?_⟩
  obtain ⟨moved,entered⟩ := told id s address found player
  rw [size] at moved
  have own : s.sessionID = id := PlayerStore.session_id served.owned (sessionAt_some.mp found)
  have held : w.playerOf id = some address := (playerOf_found (sessionAt_some.mp found)).trans player
  have old : address < w.game.allocated := Flights.owned_made served.book (owned_iff.mpr ⟨id,held⟩)
  rw [still] at rocks
  have charted := ticked_fits ideal (collided_charted ideal served collided old)
  rw [← moved] at charted
  refine ⟨moved,tick_readable ideal served sized collided rocks sessions id,charted,
    s.universeBuffer (.exact cos sin) g w.gSessions.sessions,
    s.playerBuffer (.exact cos sin) (t.game.memory address) g.gUniverse.ticks,?_,?_,?_⟩
  · rw [entered]
    exact congrArg some (List.append_assoc s.txQue [_] [_])
  · rw [Session.universeBuffer,AppBuffer.wire_filled,announced,own]
  · rw [Session.playerBuffer,AppBuffer.wire_filled,announced,own]

-- What a tick commits for a session makes any page show the rocks and the session's own
-- player as the server leaves them, and the other ships as they were before they moved.
theorem tick_mirrors (served : Served Charted w) (sized : Rocks Sized w.game)
    (running : w.game.gUniverse.timer.runTimer = true) (ticked : w.step (.exact cos sin) .tick = .ok t)
    (rocks : t.game.gUniverse.rockField.rocks.length < 65536) (sessions : w.gSessions.sessions.size ≤ 10922) :
    ∃ g, (w.game.moveRocks (.exact cos sin) w.game.gUniverse.timer.tick).collisionDetection (.exact cos sin) = .ok g ∧
      ∀ id s address, w.sessionAt id = some s → s.player = some address → s.isLittleEndian = true →
        t.game.memory address = (g.memory address).tick (.exact cos sin) field ∧
        ∃ first second, (t.sessionAt id).map (fun s' => s'.txQue) = some (s.txQue ++ [first,second]) ∧
          ∀ c, ∃ c', Client.handleMessages c [first.wire,second.wire] = some c' ∧
            UniverseShown t.game id (otherShips g id w.gSessions.sessions.toList) c' ∧
            PlayerShown (t.game.memory address) id t.game.gUniverse.ticks c' := by
  obtain ⟨g,collided,still,told⟩ := tick_wires ideal served sized running ticked rocks sessions
  refine ⟨g,collided,fun id s address found player announced => ?_⟩
  obtain ⟨moved,fits,own,first,second,queued,universal,mine⟩ := told id s address found player announced
  refine ⟨moved,first,second,queued,fun c => ?_⟩
  obtain ⟨c',handled,shown,own_shown,_⟩ := Client.tick_shows c fits own
  rw [universal,mine]
  exact ⟨c',handled,shown_same still shown,by rw [still]; exact own_shown⟩

-- So it is after every run of the server, whoever plays.
theorem pages_mirror {rand : Rand} {history : List Event}
    (windows : Runs.Steps (World.step (.exact cos sin)) (Windows Fits) (World.make (.exact cos sin) rand) history)
    (ran : Runs.run (World.step (.exact cos sin)) (World.make (.exact cos sin) rand) history = .ok w)
    (ticked : w.step (.exact cos sin) .tick = .ok t) (rocks : t.game.gUniverse.rockField.rocks.length < 65536)
    (sessions : w.gSessions.sessions.size ≤ 10922) :
    ∃ g, (w.game.moveRocks (.exact cos sin) w.game.gUniverse.timer.tick).collisionDetection (.exact cos sin) = .ok g ∧
      ∀ id s address, w.sessionAt id = some s → s.player = some address → s.isLittleEndian = true →
        t.game.memory address = (g.memory address).tick (.exact cos sin) field ∧
        ∃ first second, (t.sessionAt id).map (fun s' => s'.txQue) = some (s.txQue ++ [first,second]) ∧
          ∀ c, ∃ c', Client.handleMessages c [first.wire,second.wire] = some c' ∧
            UniverseShown t.game id (otherShips g id w.gSessions.sessions.toList) c' ∧
            PlayerShown (t.game.memory address) id t.game.gUniverse.ticks c' := by
  have served := Viewport.served_run (charted_lasting ideal) windows ran
  have sized := reachable_sized ideal ran
  have running : w.game.gUniverse.timer.runTimer = true := by
    rw [(timer_run ran).1]
    rfl
  exact tick_mirrors ideal served sized running ticked rocks sessions

omit ideal

theorem turn_decoded : Session.requested Company.turnRequest (fun _ => 0) = some (.keyEvent 37 true) := rfl

theorem turned_started {A : Arith} {u : Size} (p : Player) : ((p.keyEvent A 37 true).tick A u).phase ≠ .inLobby := by
  have playing : (p.keyEvent A 37 true).phase = .playing := by
    unfold Player.keyEvent
    dsimp only
    split
    · split <;> rfl
    · rename_i started
      simpa using started
  generalize p.keyEvent A 37 true = q at playing
  simp only [Player.tick]
  generalize ticked : (if q.ship.dead = true then q else _) = r
  have kept : r.phase = .playing := by
    rw [← ticked]
    split <;> exact playing
  split
  · exact GamePhase.noConfusion
  · rw [kept]
    exact GamePhase.noConfusion

-- Two browsers play beside a rock, and then the timer ticks.
structure Turned (v t : World) (s : Session) : Prop where
  run : Runs.run (World.step .upright) (World.make .upright .zeros) Company.playEvents = .ok v
  windows : Runs.Steps (World.step .upright) (Windows Fits) (World.make .upright .zeros) Company.playEvents
  ticked : v.step .upright .tick = .ok t
  held : v.sessionAt 0 = some s
  own : s.player = some 0
  announced : s.isLittleEndian = true
  rock : t.game.gUniverse.rockField.rocks.length = 1
  others : ∀ g : Game, otherShips g 0 v.gSessions.sessions.toList ≠ []
  sessions : v.gSessions.sessions.size ≤ 10922
  started : (t.game.memory 0).phase ≠ .inLobby

theorem play_windows : ∀ event ∈ Company.playEvents, ∀ w, Windows Fits w event := by
  have joins : ∀ conn, ∀ event ∈ Company.joins conn, ∀ w, Windows Fits w event := by
    intro conn event member w
    rcases List.mem_cons.mp member with rfl | registered
    · exact fun _ _ _ _ asked => by cases asked
    · rw [List.mem_singleton.mp registered]
      exact Viewport.windows_register ⟨by decide,by decide⟩ conn w
  intro event member w
  rcases List.mem_append.mp member with joined | played
  · rcases List.mem_append.mp joined with first | second
    · exact joins 0 event first w
    · exact joins 1 event second w
  · rcases List.mem_cons.mp played with rfl | clicked
    · refine Viewport.windows_message (fun x known => ?_) w
      cases turn_decoded.symm.trans known
      trivial
    · rw [List.mem_singleton.mp clicked]
      refine Viewport.windows_message (fun x known => ?_) w
      have decoded : Session.requested RestingShip.clickRequest (fun _ => 0) = some (.clickEvent 400 300) := rfl
      cases decoded.symm.trans known
      trivial

theorem turned_tick : ∃ v t s, Turned v t s := by
  obtain ⟨v,played⟩ := Company.played .upright .zeros
  obtain ⟨t,ticked⟩ := Company.played_ticks played
  obtain ⟨_,s,found,_,own,announced,_⟩ := played.first
  obtain ⟨_,other,found',_,own',_⟩ := played.second
  have held : v.sessionAt 0 = some s := sessionAt_some.mpr found
  have running : v.game.gUniverse.timer.runTimer = true := by
    rw [(timer_run played.run).1]
    rfl
  obtain ⟨g,collided,still,told⟩ := tick_exact (DeadPlayer.book_run played.run).2 running ticked
  cases (Company.clear_collides (Company.played_clear played _)).symm.trans collided
  obtain ⟨node,rock⟩ := played.rock
  obtain ⟨p,turned⟩ := played.turned
  refine ⟨v,t,s,played.run,Runs.steps_each play_windows _,ticked,held,own,announced,?_,?_,?_,?_⟩
  · rw [still]
    simp [Game.moveRocks,RockField.tickEvent,rock]
  · intro g none_other
    have listed : (1,some other) ∈ v.gSessions.sessions.toList := Std.TreeMap.mem_toList_iff_getElem?_eq_some.mpr found'
    have ship : otherShip g 0 (1,some other) = some (g.memory 1).ship := by simp [otherShip,own']
    have shown := List.mem_filterMap.mpr ⟨_,listed,ship⟩
    rw [otherShips] at none_other
    rw [none_other] at shown
    cases shown
  · exact (Company.played_few played).trans (by decide)
  · rw [(told 0 s 0 held own).1]
    show (((v.game.memory 0).tick .upright _)).phase ≠ .inLobby
    rw [turned]
    exact turned_started p

theorem turned_mirrored : ∃ v t g s c', Turned v t s ∧
    (∃ first second, (t.sessionAt 0).map (fun s' => s'.txQue) = some (s.txQue ++ [first,second]) ∧
      Client.handleMessages loaded [first.wire,second.wire] = some c') ∧
    UniverseShown t.game 0 (otherShips g 0 v.gSessions.sessions.toList) c' ∧
    PlayerShown (t.game.memory 0) 0 t.game.gUniverse.ticks c' ∧ c'.universeRocks.length = 1 ∧ c'.universeShips ≠ [] := by
  obtain ⟨v,t,s,turned⟩ := turned_tick
  have ideal : (Arith.exact (fun _ => 0) fun _ => 1).Ideal := upright_ideal
  obtain ⟨g,_,told⟩ := pages_mirror ideal turned.windows turned.run turned.ticked (by rw [turned.rock]; decide) turned.sessions
  obtain ⟨_,first,second,queued,shown⟩ := told 0 s 0 turned.held turned.own turned.announced
  obtain ⟨c',handled,universal,mine⟩ := shown loaded
  refine ⟨v,t,g,s,c',turned,⟨first,second,queued,handled⟩,universal,mine,?_,?_⟩
  · rw [universal.universeRocks,List.length_map]
    exact turned.rock
  · rw [universal.universeShips]
    exact fun none_shown => turned.others g (List.map_eq_nil_iff.mp none_shown)

end Geoff.Mirror
