import Geoff.CollisionBounds
import Geoff.DeadPlayer

-- Every conversion to an integer a step of the server performs, and when all of them
-- are given numbers that fit.
namespace Geoff
open Consts

section
variable (A : Arith)

def Session.messageConversions (g : Game) (bytes : List UInt8) (beyond : Nat → UInt8) : List Conversion :=
  if Session.asked bytes beyond = some .registerSession then
    Ship.makeConversions A g.gUniverse.toSize ((rxBuffer bytes beyond).uint16 3) ((rxBuffer bytes beyond).uint16 5)
  else []

-- The loop of Universe::TickEvent over the sessions. Where a null session ends a
-- message before its ships, they are listed all the same.
def Game.sessionConversions (g : Game) : List UInt32 → SessionMap → List Conversion
  | [],_ => []
  | id :: rest,m =>
    (match m[id]? with
      | some (some session) => if session.player = none then [] else PerSession.conversions A g m session
      | _ => []) ++
    match g.tickSession A m id with
    | .ok next => g.sessionConversions rest next
    | .error _ => []

namespace World

def timerConversions : List UInt32 → World → List Conversion
  | [],_ => []
  | id :: rest,w =>
    (match w.playerOf id with
      | some address => (w.game.memory address).tickConversions A w.game.gUniverse.toSize
      | none => []) ++
    match w.timerRound A id with
    | .ok next => timerConversions rest next
    | .error _ => []

def tickConversions (w : World) : List Conversion :=
  if w.game.gUniverse.timer.runTimer = false then [] else
  match (w.game.moveRocks A w.game.gUniverse.timer.tick).collisionDetection A with
  | .error _ => []
  | .ok g =>
    g.sessionConversions A w.gSessions.sessions.keys w.gSessions.sessions ++
    match w.game.tickEvent A w.gSessions.sessions w.game.gUniverse.timer.tick with
    | .error _ => []
    | .ok (game,sessions) =>
      timerConversions A sessions.keys {w with game := game, gSessions := {w.gSessions with sessions := sessions}}

def conversions (w : World) : Event → List Conversion
  | .onRead conn (.message bytes beyond) =>
    match w.conns[conn]? with
    | none => []
    | some c =>
      if c.reading = true ∧ w.sessionAt c.sessionID ≠ none then Session.messageConversions A w.game bytes beyond else []
  | .tick => w.tickConversions A
  | _ => []

end World
end

namespace EncodedNumbers
open World Collision PlayerStore DeadPlayer ShipBounds CollisionBounds

variable {A : Arith} {w t : World}

-- The window of a registration is no wider or higher than the universe and one.
def WindowFits (bytes : List UInt8) (beyond : Nat → UInt8) : Prop :=
  Session.asked bytes beyond = some .registerSession →
    ((Session.rxBuffer bytes beyond).uint16 3).toNat ≤ 8193 ∧ ((Session.rxBuffer bytes beyond).uint16 5).toNat ≤ 8193

def Told (s : Ship) : Prop := (s.posX < 65536 ∧ s.posY < 65536) ∧ ∀ b ∈ s.gun.bullets, Near b

-- Before a tick: the place the ship respawns at, if it does, and its own where there
-- is another session to be told.
structure ShipFits (w : World) (id : UInt32) (s : Ship) : Prop where
  reborn : Respawns s → (viewportMiddle s).posX < 65536 ∧ (viewportMiddle s).posY < 65536
  told : (∃ other, other ≠ id ∧ w.playerOf other ≠ none) → Told s

def InRange (w : World) : Event → Prop
  | .onRead conn (.message bytes beyond) => ∀ c, w.conns[conn]? = some c → c.reading = true →
      w.sessionAt c.sessionID ≠ none → WindowFits bytes beyond
  | .tick => w.game.gUniverse.timer.runTimer = true →
      ∀ id address, w.playerOf id = some address → ShipFits w id (w.game.memory address).ship
  | _ => True

theorem register_fit {A : Arith} (ideal : A.Ideal) (cw ch : UInt16) :
    (∀ c ∈ Ship.makeConversions A field cw ch, c.Fits) ↔ cw.toNat ≤ 8193 ∧ ch.toNat ≤ 8193 := by
  have side : ∀ side : UInt16, (Conversion.toUint16 (A.fl (A.fl (8192 / 2) - (side / 2).toNat))).Fits ↔ side.toNat ≤ 8193 := by
    intro side
    rw [Conversion.toUint16_fits,ideal.fl,ideal.fl]
    have half : (side / 2).toNat = side.toNat / 2 := by simp
    constructor
    · rintro ⟨low,_⟩
      by_contra wide
      have most : 4097 ≤ (side / 2).toNat := by omega
      have most : (4097 : ℚ) ≤ ((side / 2).toNat : ℚ) := by exact_mod_cast most
      linarith
    · intro narrow
      have most : (side / 2).toNat ≤ 4096 := by omega
      have most : ((side / 2).toNat : ℚ) ≤ 4096 := by exact_mod_cast most
      have least : (0 : ℚ) ≤ ((side / 2).toNat : ℚ) := Nat.cast_nonneg _
      constructor <;> linarith
  simp only [Ship.makeConversions,List.forall_mem_cons,field,side]
  simp

theorem otherShip_member {g : Game} {m : SessionMap} {id : UInt32} {s : Ship}
    (member : s ∈ Messages.otherShips g id m.toList) :
    ∃ other address, other ≠ id ∧ Geoff.playerOf m other = some address ∧ s = (g.memory address).ship := by
  obtain ⟨⟨other,v⟩,present,seen⟩ := List.mem_filterMap.mp member
  have found := Std.TreeMap.mem_toList_iff_getElem?_eq_some.mp present
  unfold Messages.otherShip at seen
  split at seen
  · cases seen
  · rename_i differs
    split at seen
    · cases seen
    · rename_i sess here
      obtain ⟨address,player,rfl⟩ := Option.map_eq_some_iff.mp seen
      refine ⟨other,address,differs,?_,rfl⟩
      have held : v = some sess := here
      rw [held] at found
      exact (playerOf_found found).trans player

theorem rock_fit {rock : Rock} (fits : RockFits rock) : ∀ c ∈ rock.conversions, c.Fits := by
  obtain ⟨⟨⟨left,right⟩,top,bottom⟩,least,most⟩ := fits
  simp only [Rock.conversions,List.forall_mem_cons,Conversion.toInt16_fits,Conversion.toUint16_fits]
  refine ⟨⟨?_,?_⟩,⟨?_,?_⟩,⟨?_,?_⟩,fun _ member => absurd member List.not_mem_nil⟩ <;> linarith

theorem otherBullet_fit {b : Bullet} (known : Inside b.toPosition ∨ Loaded b) :
    (∀ c ∈ b.otherConversions, c.Fits) ↔ Near b := by
  have low : -10 ≤ b.posX ∧ -10 ≤ b.posY := by
    rcases known with ⟨⟨left,_⟩,top,_⟩ | ⟨_,left,top⟩
    · constructor <;> linarith
    · exact ⟨left,top⟩
  simp only [Bullet.otherConversions,List.forall_mem_cons,Conversion.toInt16_fits]
  constructor
  · rintro ⟨⟨_,across⟩,⟨_,down⟩,_⟩
    exact ⟨across,down⟩
  · rintro ⟨across,down⟩
    refine ⟨⟨?_,across⟩,⟨?_,down⟩,fun _ member => absurd member List.not_mem_nil⟩ <;> linarith

theorem perSession_fit (ideal : A.Ideal) {g : Game} {m : SessionMap} {session : Session} (size : g.gUniverse.toSize = field)
    (rocks : ∀ node ∈ g.gUniverse.rockField.rocks, RockFits node.rock)
    (others : ∀ other address, other ≠ session.sessionID → Geoff.playerOf m other = some address →
      Bounded (g.memory address).ship ∧ Told (g.memory address).ship) :
    ∀ c ∈ PerSession.conversions A g m session, c.Fits := by
  have width : g.gUniverse.sizeW = 8192 := congrArg Size.sizeW size
  have height : g.gUniverse.sizeH = 8192 := congrArg Size.sizeH size
  have ships : ∀ s ∈ Messages.otherShips g session.sessionID m.toList, Bounded s ∧ Told s := by
    intro s member
    obtain ⟨other,address,differs,player,rfl⟩ := otherShip_member member
    exact others other address differs player
  intro c member
  simp only [PerSession.conversions,List.mem_append,List.mem_flatMap] at member
  rcases member with ((header | ⟨node,present,here⟩) | ⟨s,present,here⟩) | ⟨b,shot,here⟩
  · simp only [width,height,List.mem_cons,List.not_mem_nil,or_false,or_self] at header
    rw [header,Conversion.toUint16_fits]
    norm_num
  · exact rock_fit (rocks node present) c here
  · obtain ⟨bounded,near,_⟩ := ships s present
    exact (places_fit ideal bounded.placed bounded.turned).mpr near c here
  · obtain ⟨s,present,shot⟩ := List.mem_flatMap.mp shot
    obtain ⟨bounded,_,near⟩ := ships s present
    exact (otherBullet_fit (bounded.bullets b shot)).mpr (near b shot) c here

def Keyed (m : SessionMap) : Prop := ∀ (id : UInt32) (s : Session), m[id]? = some (some s) → s.sessionID = id

theorem tickSession_keyed {g : Game} {m m' : SessionMap} {id : UInt32} (keyed : Keyed m)
    (ran : g.tickSession A m id = .ok m') : Keyed m' := by
  unfold Game.tickSession at ran
  split at ran
  · cases ran; exact keyed
  · cases ran
  · rename_i sess found
    split at ran
    · cases ran; exact keyed
    · obtain ⟨txBuff,_,result⟩ := Runs.bind_ok.mp ran
      cases result
      intro other s here
      rw [Std.TreeMap.getElem?_insert] at here
      split at here
      · rename_i same
        cases here
        exact (keyed id sess found).trans (by simpa using same)
      · exact keyed other s here

-- The messages only lengthen the queues of their receivers, so that every round of the
-- loop meets the same ships.
theorem sessions_fit (ideal : A.Ideal) {g : Game} (size : g.gUniverse.toSize = field)
    (rocks : ∀ node ∈ g.gUniverse.rockField.rocks, RockFits node.rock) (keys : List UInt32) {m : SessionMap} (keyed : Keyed m)
    (others : ∀ id other address, Geoff.playerOf m id ≠ none → other ≠ id → Geoff.playerOf m other = some address →
      Bounded (g.memory address).ship ∧ Told (g.memory address).ship) :
    ∀ c ∈ g.sessionConversions A keys m, c.Fits := by
  induction keys generalizing m with
  | nil => exact fun _ member => absurd member List.not_mem_nil
  | cons id rest ih =>
    intro c member
    simp only [Game.sessionConversions] at member
    rcases List.mem_append.mp member with own | later
    · split at own
      · rename_i session found
        split at own
        · exact absurd own List.not_mem_nil
        · rename_i registered
          have player := playerOf_found found
          refine perSession_fit ideal size rocks (fun other address differs held => ?_) c own
          rw [keyed id session found] at differs
          exact others id other address (by rw [player]; exact registered) differs held
      · exact absurd own List.not_mem_nil
    · split at later
      · rename_i next ran
        refine ih (tickSession_keyed keyed ran) ?_ c later
        rw [tickSession_players ran]
        exact others
      · exact absurd later List.not_mem_nil

theorem otherShip_listed {g : Game} {m : SessionMap} {id other : UInt32} {address : Nat} (differs : other ≠ id)
    (player : Geoff.playerOf m other = some address) : (g.memory address).ship ∈ Messages.otherShips g id m.toList := by
  obtain ⟨session,found,known⟩ := playerOf_some.mp player
  refine List.mem_filterMap.mpr ⟨(other,some session),Std.TreeMap.mem_toList_iff_getElem?_eq_some.mpr found,?_⟩
  simp [Messages.otherShip,differs,known]

theorem sessions_told {g : Game} {keys : List UInt32} {m m' : SessionMap} (keyed : Keyed m)
    (ran : keys.foldlM (g.tickSession A) m = .ok m') {id other : UInt32} {address : Nat} (receiver : id ∈ keys)
    (registered : Geoff.playerOf m id ≠ none) (differs : other ≠ id) (player : Geoff.playerOf m other = some address) :
    (∀ c ∈ (g.memory address).ship.places A, c ∈ g.sessionConversions A keys m) ∧
      ∀ b ∈ (g.memory address).ship.gun.bullets, ∀ c ∈ b.otherConversions, c ∈ g.sessionConversions A keys m := by
  induction keys generalizing m with
  | nil => exact absurd receiver List.not_mem_nil
  | cons first rest ih =>
    obtain ⟨next,one,ran⟩ := Runs.bind_ok.mp ran
    have whole : g.sessionConversions A (first :: rest) m = (match m[first]? with
        | some (some session) => if session.player = none then [] else PerSession.conversions A g m session
        | _ => []) ++ g.sessionConversions A rest next := by
      simp only [Game.sessionConversions,one]
    rw [whole]
    rcases List.mem_cons.mp receiver with rfl | later
    · obtain ⟨owner,known⟩ := Option.ne_none_iff_exists'.mp registered
      obtain ⟨session,found,mine⟩ := playerOf_some.mp known
      have listed : (g.memory address).ship ∈ Messages.otherShips g session.sessionID m.toList :=
        otherShip_listed (by rw [keyed id session found]; exact differs) player
      simp only [found,mine,reduceCtorEq,if_false]
      refine ⟨fun c place => List.mem_append_left _ ?_,fun b shot c place => List.mem_append_left _ ?_⟩
      · simp only [PerSession.conversions,List.mem_append,List.mem_flatMap]
        exact .inl (.inr ⟨_,listed,place⟩)
      · simp only [PerSession.conversions,List.mem_append,List.mem_flatMap]
        exact .inr ⟨b,List.mem_flatMap.mpr ⟨_,listed,shot⟩,place⟩
    · have same := tickSession_players one
      obtain ⟨places,bullets⟩ := ih (tickSession_keyed keyed one) ran later (by rw [same]; exact registered)
        (by rw [same]; exact player)
      exact ⟨fun c place => List.mem_append_right _ (places c place),
        fun b shot c place => List.mem_append_right _ (bullets b shot c place)⟩

def ticks (A : Arith) (g : Game) : Option Nat → List Conversion
  | some address => (g.memory address).tickConversions A g.gUniverse.toSize
  | none => []

theorem timer_listed {keys : List UInt32} (distinct : keys.Nodup)
    (apart : ∀ id other address, w.playerOf id = some address → w.playerOf other = some address → id = other) :
    (∀ c ∈ timerConversions A keys w, c ∈ keys.flatMap fun id => ticks A w.game (w.playerOf id)) ∧
      ∀ t, keys.foldlM (timerRound A) w = .ok t →
        timerConversions A keys w = keys.flatMap fun id => ticks A w.game (w.playerOf id) := by
  induction keys generalizing w with
  | nil => exact ⟨fun _ member => member,fun _ _ => rfl⟩
  | cons id rest ih =>
    obtain ⟨fresh,distinct⟩ := List.nodup_cons.mp distinct
    have later : ∀ next, w.timerRound A id = .ok next →
        (rest.flatMap fun id => ticks A next.game (next.playerOf id)) =
          (rest.flatMap fun id => ticks A w.game (w.playerOf id)) ∧
        ∀ id other address, next.playerOf id = some address → next.playerOf other = some address → id = other := by
      intro next ran
      obtain ⟨players,universal,memory⟩ := timerRound_players ran
      refine ⟨List.flatMap_congr fun other inside => ?_,by rw [players]; exact apart⟩
      rw [players]
      cases player : w.playerOf other with
      | none => rfl
      | some address =>
        have mine : w.playerOf id ≠ some address := fun same => fresh (by rwa [apart id other address same player])
        rw [ticks,ticks,universal,memory address mine]
    have first : timerConversions A (id :: rest) w = ticks A w.game (w.playerOf id) ++
        (match w.timerRound A id with | .ok next => timerConversions A rest next | .error _ => []) := by
      cases player : w.playerOf id <;> simp only [timerConversions,player,ticks]
    rw [first,List.flatMap_cons]
    constructor
    · intro c member
      rcases List.mem_append.mp member with own | others
      · exact List.mem_append_left _ own
      · split at others
        · rename_i next ran
          obtain ⟨same,apart⟩ := later next ran
          rw [← same]
          exact List.mem_append_right _ ((ih distinct apart).1 c others)
        · exact absurd others List.not_mem_nil
    · intro t ran
      obtain ⟨next,one,ran⟩ := Runs.bind_ok.mp ran
      obtain ⟨same,apart⟩ := later next one
      rw [one,← same]
      dsimp only
      rw [(ih distinct apart).2 t ran]

structure Orderly (w : World) : Prop where
  owned : w.Owned
  book : Book w
  size : w.game.gUniverse.toSize = field
  sized : Rocks Sized w.game
  kept : ∀ address < w.game.allocated, Kept (w.game.memory address)

theorem orderly_run (ideal : A.Ideal) {rand : Rand} {history : List Event}
    (ran : Runs.run (World.step A) (World.make A rand) history = .ok w) : Orderly w := by
  obtain ⟨owned,book⟩ := book_run ran
  have careers := PlayerEvents.careers_run ran
  exact ⟨owned,book,careers.size,reachable_sized ideal ran,fun address old => reachable_kept ideal ran old⟩

theorem playerOf_kept (orderly : Orderly w) {id : UInt32} {address : Nat} (player : w.playerOf id = some address) :
    Kept (w.game.memory address) := by
  obtain ⟨same,own,bound⟩ := orderly.book.issued id _ (orderly.book.own id address player)
  cases own
  exact orderly.kept _ bound

theorem message_fit (ideal : A.Ideal) (orderly : Orderly w) {bytes : List UInt8} {beyond : Nat → UInt8} :
    (∀ c ∈ Session.messageConversions A w.game bytes beyond, c.Fits) ↔ WindowFits bytes beyond := by
  unfold Session.messageConversions WindowFits
  split
  · rename_i asked
    rw [orderly.size,register_fit ideal]
    exact ⟨fun fits _ => fits,fun fits => fits asked⟩
  · rename_i other
    exact ⟨fun _ asked => absurd asked other,fun _ _ member => absurd member List.not_mem_nil⟩

-- Before and after the collisions of a tick a ship respawns at the same place or not
-- at all: an explosion that starts now lasts.
theorem scanned_respawns {s s' : Ship} (bounded : Bounded s) (scanned : Scanned s s') :
    (Respawns s' ↔ Respawns s) ∧ viewportMiddle s' = viewportMiddle s := by
  obtain ⟨bullets,_,rfl | ⟨quiet,_,rfl⟩⟩ := scanned
  · exact ⟨Iff.rfl,rfl⟩
  · refine ⟨⟨fun respawns => ?_,fun respawns => absurd (quiet.symm.trans respawns.1) (by simp)⟩,rfl⟩
    have fuse : s.explosionDuration < 1 / fps := respawns.2.2.1
    rw [bounded.fuse quiet] at fuse
    norm_num [shipExplodeDur,fps] at fuse

theorem scanned_place {s s' : Ship} (scanned : Scanned s s') :
    s'.toPosition = s.toPosition ∧ ∀ b ∈ s'.gun.bullets, b ∈ s.gun.bullets := by
  obtain ⟨bullets,fewer,rfl | ⟨_,_,rfl⟩⟩ := scanned
  · exact ⟨rfl,fewer⟩
  · exact ⟨rfl,fewer⟩

theorem scanned_told {s s' : Ship} (scanned : Scanned s s')
    (spared : ∀ b ∈ s.gun.bullets, b ∈ s'.gun.bullets ∨ Near b) : Told s' ↔ Told s := by
  obtain ⟨place,fewer⟩ := scanned_place scanned
  have across : s'.posX = s.posX := congrArg Position.posX place
  have down : s'.posY = s.posY := congrArg Position.posY place
  unfold Told
  rw [across,down]
  constructor
  · rintro ⟨near,each⟩
    exact ⟨near,fun b member => (spared b member).elim (each b) id⟩
  · rintro ⟨near,each⟩
    exact ⟨near,fun b member => each b (fewer b member)⟩

structure Struck (A : Arith) (w : World) (g : Game) : Prop where
  detected : (w.game.moveRocks A w.game.gUniverse.timer.tick).collisionDetection A = .ok g
  size : g.gUniverse.toSize = field
  rocks : Rocks RockFits g
  kept : ∀ id address, w.playerOf id = some address → Kept (g.memory address)
  told : ∀ id address, w.playerOf id = some address → (Told (g.memory address).ship ↔ Told (w.game.memory address).ship)
  fit : ∀ id, (∀ c ∈ ticks A g (w.playerOf id), c.Fits) ↔ ∀ address, w.playerOf id = some address →
    Respawns (w.game.memory address).ship → (viewportMiddle (w.game.memory address).ship).posX < 65536 ∧
      (viewportMiddle (w.game.memory address).ship).posY < 65536

theorem struck_tick (ideal : A.Ideal) (orderly : Orderly w) {g : Game}
    (detected : (w.game.moveRocks A w.game.gUniverse.timer.tick).collisionDetection A = .ok g) : Struck A w g := by
  have moved : Rocks RockFits (w.game.moveRocks A w.game.gUniverse.timer.tick) := moved_rocks orderly.size orderly.sized
  obtain ⟨rocks,collided⟩ := detection_collided ideal moved detected
  have collided : Collided w.game g := ⟨collided.ships,collided.phases,collided.spared⟩
  have size : g.gUniverse.toSize = field := (rounds_run detected).size.trans orderly.size
  have kept : ∀ id address, w.playerOf id = some address → Kept (g.memory address) := fun id address player =>
    scanned_kept (playerOf_kept orderly player) (collided.ships address) (collided.phases address)
  refine ⟨detected,size,rocks,kept,fun id address player =>
    scanned_told (collided.ships address) (collided.spared address),fun id => ?_⟩
  cases player : w.playerOf id with
  | none => exact ⟨fun _ address same => (by cases same),fun _ c member => absurd member List.not_mem_nil⟩
  | some address =>
    obtain ⟨same,middle⟩ := scanned_respawns (playerOf_kept orderly player).bounded (collided.ships address)
    rw [ticks,size,tick_fit ideal (kept id address player),same,middle]
    exact ⟨fun fits other here => by cases here; exact fits,fun fits => fits address rfl⟩

theorem timer_struck (orderly : Orderly w) {later : World} (players : later.playerOf = w.playerOf) :
    (∀ c ∈ timerConversions A later.gSessions.sessions.keys later, ∃ id, c ∈ ticks A later.game (w.playerOf id)) ∧
      ∀ t, later.gSessions.sessions.keys.foldlM (timerRound A) later = .ok t →
        ∀ id, ∀ c ∈ ticks A later.game (w.playerOf id), c ∈ timerConversions A later.gSessions.sessions.keys later := by
  have distinct : later.gSessions.sessions.keys.Nodup := Std.TreeMap.nodup_keys
  have apart : ∀ id other address, later.playerOf id = some address → later.playerOf other = some address → id = other := by
    rw [players]
    exact fun id other address here there =>
      orderly.book.distinct id other address (orderly.book.own id address here) (orderly.book.own other address there)
  obtain ⟨inside,whole⟩ := timer_listed (A := A) distinct apart
  rw [players] at inside whole
  constructor
  · intro c member
    obtain ⟨id,_,here⟩ := List.mem_flatMap.mp (inside c member)
    exact ⟨id,here⟩
  · intro t ran id c member
    rw [whole t ran]
    refine List.mem_flatMap.mpr ⟨id,playerOf_key ?_,member⟩
    rw [show Geoff.playerOf later.gSessions.sessions = w.playerOf from players]
    intro unregistered
    rw [unregistered] at member
    exact absurd member List.not_mem_nil

theorem tick_fits (ideal : A.Ideal) (orderly : Orderly w) (reach : InRange w .tick) : ∀ c ∈ w.tickConversions A, c.Fits := by
  intro c member
  unfold World.tickConversions at member
  split at member
  · exact absurd member List.not_mem_nil
  · rename_i running
    have fits := reach (by simpa using running)
    split at member
    · exact absurd member List.not_mem_nil
    · rename_i g detected
      have struck := struck_tick ideal orderly detected
      have keyed : Keyed w.gSessions.sessions := fun id s found => session_id orderly.owned found
      rcases List.mem_append.mp member with sent | ticked
      · refine sessions_fit ideal struck.size struck.rocks _ keyed (fun id other address registered differs player => ?_) c sent
        exact ⟨(struck.kept other address player).bounded,
          (struck.told other address player).mpr ((fits other address player).told ⟨id,Ne.symm differs,registered⟩)⟩
      · split at ticked
        · exact absurd ticked List.not_mem_nil
        · rename_i game sessions ran
          have same : game = g := Except.ok.inj ((gameTick_ok ran).symm.trans detected)
          subst same
          have players : World.playerOf {w with game := game, gSessions := {w.gSessions with sessions := sessions}} =
              w.playerOf := gameTick_players ran
          obtain ⟨id,here⟩ := (timer_struck orderly players).1 c ticked
          exact (struck.fit id).mpr (fun address player => (fits id address player).reborn) c here

theorem fits_tick (ideal : A.Ideal) (orderly : Orderly w) (ran : w.step A .tick = .ok t)
    (fits : ∀ c ∈ w.tickConversions A, c.Fits) : InRange w .tick := by
  intro running
  have ran : w.tickEvent A = .ok t := ran
  rw [World.tickEvent,if_neg (by simp [running])] at ran
  obtain ⟨⟨g,sessions⟩,ticked,ran⟩ := Runs.bind_ok.mp ran
  have detected := gameTick_ok ticked
  have struck := struck_tick ideal orderly detected
  have keyed : Keyed w.gSessions.sessions := fun id s found => session_id orderly.owned found
  have players : World.playerOf {w with game := g, gSessions := {w.gSessions with sessions := sessions}} = w.playerOf :=
    gameTick_players ticked
  obtain ⟨_,listed⟩ := timer_struck (A := A) orderly players
  unfold World.tickConversions at fits
  rw [if_neg (by simp [running]),detected] at fits
  simp only [ticked,List.forall_mem_append] at fits
  obtain ⟨sent,own⟩ := fits
  intro id address player
  constructor
  · exact (struck.fit id).mp (fun c member => own c (listed t ran id c member)) address player
  · rintro ⟨other,differs,registered⟩
    obtain ⟨game,collided,ticked⟩ := Runs.bind_ok.mp ticked
    obtain ⟨m,rounds,result⟩ := Runs.bind_ok.mp ticked
    cases result
    obtain ⟨places,bullets⟩ := sessions_told keyed rounds (playerOf_key registered) registered (Ne.symm differs) player
    have bounded := (struck.kept id address player).bounded
    refine (struck.told id address player).mp ⟨?_,fun b shot => ?_⟩
    · exact (places_fit ideal bounded.placed bounded.turned).mp fun c here => sent c (places c here)
    · exact (otherBullet_fit (bounded.bullets b shot)).mp fun c here => sent c (bullets b shot c here)

-- In every reachable state, an event that meets the condition converts nothing that
-- does not fit, and one that misses it does, unless it fails before.
theorem encoded_in_range_iff (ideal : A.Ideal) {rand : Rand} {history : List Event}
    (ran : Runs.run (World.step A) (World.make A rand) history = .ok w) (event : Event) :
    (InRange w event → ∀ c ∈ w.conversions A event, c.Fits) ∧
      ((∃ t, w.step A event = .ok t) → (∀ c ∈ w.conversions A event, c.Fits) → InRange w event) := by
  have orderly := orderly_run ideal ran
  have nothing : ∀ c ∈ ([] : List Conversion), c.Fits := fun _ member => absurd member List.not_mem_nil
  match event with
  | .tick => exact ⟨tick_fits ideal orderly,fun ⟨t,one⟩ => fits_tick ideal orderly one⟩
  | .accept => exact ⟨fun _ => nothing,fun _ _ => trivial⟩
  | .onRead _ (.error _) => exact ⟨fun _ => nothing,fun _ _ => trivial⟩
  | .onWrite _ _ => exact ⟨fun _ => nothing,fun _ _ => trivial⟩
  | .posted _ => exact ⟨fun _ => nothing,fun _ _ => trivial⟩
  | .onRead conn (.message bytes beyond) =>
    simp only [World.conversions,InRange]
    cases member : w.conns[conn]? with
    | none => exact ⟨fun _ => nothing,fun _ _ c same => (by cases same)⟩
    | some c =>
      by_cases handled : c.reading = true ∧ w.sessionAt c.sessionID ≠ none
      · dsimp only
        rw [if_pos handled,message_fit ideal orderly]
        refine ⟨fun reach => reach c rfl handled.1 handled.2,fun _ fits other same _ _ => ?_⟩
        exact fits
      · dsimp only
        rw [if_neg handled]
        refine ⟨fun _ => nothing,fun _ _ other same reading found => ?_⟩
        cases same
        exact absurd ⟨reading,found⟩ handled

theorem window_in_range : ∃ w, Runs.run (World.step .upright) (World.make .upright .zeros) joinEvents = .ok w ∧
    ∀ c ∈ w.conversions .upright (.onRead 0 (.message registerRequest fun _ => 0)), c.Fits := by
  obtain ⟨w,join⟩ := joined .upright .zeros
  have narrow : WindowFits registerRequest fun _ => 0 := fun _ => by decide
  exact ⟨w,join.run,(encoded_in_range_iff upright_ideal join.run _).1 fun _ _ _ _ => narrow⟩

-- A registration with a window 8194 wide: the offset is 4096 - 4097.
def wideRequest : List UInt8 := [0xAB,0x00,0,0,32,2,2,88]

theorem wide_window_misfits : Arith.upright.Ideal ∧
    ∃ w, Runs.run (World.step .upright) (World.make .upright .zeros) [.accept] = .ok w ∧
      ∃ c ∈ w.conversions .upright (.onRead 0 (.message wideRequest fun _ => 0)), ¬ c.Fits := by
  obtain ⟨first,made,conns,size⟩ : ∃ first, World.make .upright .zeros = first ∧ first.conns = [] ∧
      first.game.gUniverse.toSize = field :=
    ⟨_,rfl,rfl,by rw [World.make_game]; exact (Game.make_fresh .upright .zeros).size⟩
  obtain ⟨w,accepted,opened,id,game⟩ : ∃ w, first.onAccept = .ok w ∧ w.conns = [.accepted first.gSessions.sessionId] ∧
      w.entry first.gSessions.sessionId = some (some first.acceptedSession) ∧ w.game = first.game :=
    ⟨_,first.onAccept_ok,by rw [conns]; rfl,accept_own first.onAccept_ok,rfl⟩
  refine ⟨upright_ideal,w,?_,?_⟩
  · rw [made,Runs.run_single]
    exact accepted
  · by_contra fits
    have all : ∀ c ∈ w.conversions .upright (.onRead 0 (.message wideRequest fun _ => 0)), c.Fits :=
      fun c member => by_contra fun misfit => fits ⟨c,member,misfit⟩
    have held : w.sessionAt first.gSessions.sessionId ≠ none := by rw [sessionAt_some.mpr id]; simp
    simp only [World.conversions,opened,List.getElem?_cons_zero] at all
    rw [if_pos ⟨rfl,held⟩,Session.messageConversions,if_pos (by decide),game,size] at all
    exact absurd ((register_fit upright_ideal _ _).mp all).1 (by decide)

end EncodedNumbers
end Geoff
