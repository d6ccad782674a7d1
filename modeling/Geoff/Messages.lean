import Geoff.Session

-- The bytes of the messages the server commits, and that each builder builds
-- exactly these, with no store outside its buffers.
namespace Geoff.Messages
open Consts AppBuffer

variable (A : Arith) (le : Bool)

def starBytes (star : Position) : List UInt8 :=
  bytes16 le (A.toUint16 star.posX) ++ bytes16 le (A.toUint16 star.posY)

def sessionRegistered (stars : List Position) (sessionID : UInt32) : List UInt8 :=
  [0xBB] ++ [MessageType.sessionRegistered.toUInt8] ++ bytes32 le sessionID ++ bytes16 le gameAppVersion ++
    bytes16 le (UInt16.ofNat stars.length) ++ stars.flatMap (starBytes A le)

def bulletBytes (b : Bullet) : List UInt8 := bytes16 le (A.toUint16 b.posX) ++ bytes16 le (A.toUint16 b.posY)

def gunBytes (bullets : List Bullet) : List UInt8 :=
  bytes16 le (UInt16.ofNat bullets.length) ++ bullets.flatMap (bulletBytes A le)

def playerHeader (p : Player) (sessionID ticks : UInt32) : List UInt8 :=
  [0xBB] ++ [MessageType.playerTickMessage.toUInt8] ++ bytes32 le sessionID ++ bytes32 le ticks ++
    bytes16 le p.ctxW ++ bytes16 le p.ctxH ++ bytes16 le p.ctxOX ++ bytes16 le p.ctxOY ++ bytes32 le p.score ++
    bytes16 le p.phase.toUInt16

def livesByte (s : Ship) : UInt8 := UInt8.ofNat (s.livesLeft % 256).toNat

def shipState (s : Ship) : List UInt8 :=
  bytes16 le (A.toUint16 s.posX) ++ bytes16 le (A.toUint16 s.posY) ++ bytes16 le (A.toUint16 (A.fl (s.angle * fp412))) ++
    [s.flags] ++ [livesByte s]

-- The room of the gun's own count is kept behind the copied records.
def slack (bullets : List Bullet) : List UInt8 := if bullets = [] then [] else [0,0]

def shipBytes (s : Ship) : List UInt8 := shipState A le s ++ gunBytes A le s.gun.bullets ++ slack s.gun.bullets

def playerTick (p : Player) (sessionID ticks : UInt32) : List UInt8 :=
  playerHeader le p sessionID ticks ++ shipBytes A le p.ship

def universeHeader (g : Game) (sessionID : UInt32) : List UInt8 :=
  [0xBB] ++ [MessageType.universeTickMessage.toUInt8] ++ bytes32 le sessionID ++ bytes32 le g.gUniverse.ticks ++
    bytes16 le (A.toUint16 g.gUniverse.sizeW) ++ bytes16 le (A.toUint16 g.gUniverse.sizeH)

def rockBytes (node : RockNode) : List UInt8 :=
  bytes16 le (A.toInt16 node.rock.posX).toUInt16 ++ bytes16 le (A.toInt16 node.rock.posY).toUInt16 ++
    bytes16 le (A.toUint16 node.rock.radius)

def rocksBytes (nodes : List RockNode) : List UInt8 :=
  bytes16 le (UInt16.ofNat nodes.length) ++ nodes.flatMap (rockBytes A le)

def otherShipBytes (s : Ship) : List UInt8 :=
  bytes16 le (A.toUint16 s.posX) ++ bytes16 le (A.toUint16 s.posY) ++ bytes16 le (A.toUint16 (A.fl (s.angle * fp412)))

def otherShipsBytes (ships : List Ship) : List UInt8 :=
  if ships = [] then [] else bytes16 le (UInt16.ofNat ships.length) ++ ships.flatMap (otherShipBytes A le)

def otherBulletBytes (b : Bullet) : List UInt8 :=
  bytes16 le (A.toInt16 b.posX).toUInt16 ++ bytes16 le (A.toInt16 b.posY).toUInt16

def otherBulletsBytes (bullets : List Bullet) : List UInt8 :=
  if bullets = [] then [] else bytes16 le (UInt16.ofNat bullets.length) ++ bullets.flatMap (otherBulletBytes A le)

def otherShip (g : Game) (sessionID : UInt32) (pair : UInt32 × Option Session) : Option Ship :=
  if pair.1 = sessionID then none else
  match pair.2 with
  | none => none
  | some sess => sess.player.map (fun address => (g.memory address).ship)

def otherShips (g : Game) (sessionID : UInt32) (pairs : List (UInt32 × Option Session)) : List Ship :=
  pairs.filterMap (otherShip g sessionID)

def bulletsOf (ships : List Ship) : List Bullet := ships.flatMap (fun s => s.gun.bullets)

def universeTick (g : Game) (sessions : SessionMap) (sessionID : UInt32) : List UInt8 :=
  universeHeader A le g sessionID ++ rocksBytes A le g.gUniverse.rockField.rocks ++
    otherShipsBytes A le (otherShips g sessionID sessions.toList) ++
    otherBulletsBytes A le (bulletsOf (otherShips g sessionID sessions.toList))

variable {A le}

theorem writeStar_filled (star : Position) (bytes : List UInt8) (room : Nat) (fits : 4 ≤ room) :
    Session.writeStar A (filled le bytes room) star = .ok (filled le (bytes ++ starBytes A le star) (room - 4)) := by
  simp (disch := omega) only [Session.writeStar,setUint16_filled,Runs.ok_bind,List.append_assoc,starBytes,Nat.sub_sub]

theorem sessionRegistered_built (stars : List Position) (sessionID : UInt32) :
    Session.sessionRegistered A stars sessionID le =
      .ok (filled le (sessionRegistered A le stars sessionID) 0) := by
  simp (disch := omega) only [Session.sessionRegistered,make_filled,setUint8_filled,setUint16_filled,setUint32_filled,
    Runs.ok_bind]
  rw [foldlM_filled writeStar_filled _ _ (by omega)]
  simp only [sessionRegistered,List.nil_append]
  congr 2
  omega

theorem getPlayerById_new (A : Arith) (g : Game) (sessionID : UInt32) (w h : UInt16) :
    (g.newPlayer A sessionID w h).getPlayerById sessionID = (some g.allocated,g.newPlayer A sessionID w h) := by
  simp [Game.getPlayerById,Game.newPlayer]

theorem register_built (A : Arith) (le : Bool) (s : Session) (g : Game) (w h : UInt16) : s.register A g w h le =
    .ok (({s with player := some g.allocated} : Session).commit
      (filled le (sessionRegistered A le g.gUniverse.stars s.sessionID) 0),g.newPlayer A s.sessionID w h) := by
  simp only [Session.register,getPlayerById_new,sessionRegistered_built,Runs.ok_bind]
  rfl

theorem bullet_filled (b : Bullet) (bytes : List UInt8) (room : Nat) (fits : 4 ≤ room) :
    (do let tx ← (filled le bytes room).setUint16 (A.toUint16 b.posX); tx.setUint16 (A.toUint16 b.posY)) =
      .ok (filled le (bytes ++ bulletBytes A le b) (room - 4)) := by
  simp (disch := omega) only [setUint16_filled,Runs.ok_bind,List.append_assoc,bulletBytes,Nat.sub_sub]

theorem gun_built (gun : Gun) : gun.makeBuffer A le =
    .ok (if gun.bullets = [] then none else some (filled le (gunBytes A le gun.bullets) 0)) := by
  by_cases empty : gun.bullets = []
  · simp [Gun.makeBuffer,empty]
  · have some_bullets : gun.bullets.length ≠ 0 := by simpa using empty
    simp (disch := omega) only [Gun.makeBuffer,some_bullets,empty,if_false,make_filled,setUint16_filled,Runs.ok_bind]
    rw [foldlM_filled bullet_filled _ _ (by omega)]
    simp only [Runs.ok_bind,Runs.pure_ok,gunBytes,List.nil_append]
    congr 3
    omega

@[simp] theorem shipState_length (s : Ship) : (shipState A le s).length = 8 := by simp [shipState]

-- Ship::MakeBuffer's way of taking over a counted buffer: its count goes over the
-- zero written for it, its records behind, and two bytes of the room stay zero.
theorem counted_embedded (le : Bool) (head records : List UInt8) (count : UInt16) :
    (do
      let txBuff ← setUint16At
        ⟨head ++ bytes16 le 0 ++ List.replicate (2 + records.length) 0,le,0,head.length + 2 + (2 + records.length)⟩
        head.length ((filled le (bytes16 le count ++ records) 0).getUint16At (fun _ => 0) 0)
      let copied ← (filled le (bytes16 le count ++ records) 0).load 2 records.length
      txBuff.store (head.length + 2) copied) =
      .ok (filled le (head ++ (bytes16 le count ++ records) ++ [0,0]) 0) := by
  have copied : (filled le (bytes16 le count ++ records) 0).load 2 records.length = .ok records := by
    have inside : 2 + records.length ≤ (filled le (bytes16 le count ++ records) 0).size := by simp
    rw [load,if_pos inside]
    simp [filled]
  have room : List.replicate (2 + records.length) (0 : UInt8) = List.replicate records.length 0 ++ [0,0] := by
    rw [Nat.add_comm,← List.replicate_append_replicate]; rfl
  have stored := store_over le (head ++ bytes16 le count) (List.replicate records.length 0) [0,0] records (by simp)
    0 (head.length + 2 + (2 + records.length))
  simp only [List.length_append,bytes16_length,List.append_assoc] at stored
  rw [getUint16At_filled,setUint16At_over le head (bytes16 le 0) _ (by simp),Runs.ok_bind,copied,Runs.ok_bind,room]
  simp only [List.append_assoc]
  rw [stored]
  simp [filled]
  omega

theorem ship_built (s : Ship) : s.makeBuffer A le = .ok (filled le (shipBytes A le s) 0) := by
  by_cases empty : s.gun.bullets = []
  · simp (disch := omega) only [Ship.makeBuffer,gun_built,empty,if_true,Runs.ok_bind,make_filled,setUint16_filled,
      setUint8_filled]
    simp [shipBytes,shipState,livesByte,gunBytes,slack,empty]
  · have records : (gunBytes A le s.gun.bullets).length = 2 + (s.gun.bullets.flatMap (bulletBytes A le)).length := by
      simp [gunBytes]
    have header : [] ++ bytes16 le (A.toUint16 s.posX) ++ bytes16 le (A.toUint16 s.posY) ++
        bytes16 le (A.toUint16 (A.fl (s.angle * fp412))) ++ [s.flags] ++ [UInt8.ofNat (s.livesLeft % 256).toNat] ++
        bytes16 le 0 = shipState A le s ++ bytes16 le 0 := rfl
    have room : 10 + ((gunBytes A le s.gun.bullets).length + 0) - 2 - 2 - 2 - 1 - 1 - 2 =
        2 + (s.gun.bullets.flatMap (bulletBytes A le)).length := by omega
    have rest : (gunBytes A le s.gun.bullets).length + 0 - 2 = (s.gun.bullets.flatMap (bulletBytes A le)).length := by
      omega
    have embedded := counted_embedded le (shipState A le s) (s.gun.bullets.flatMap (bulletBytes A le))
      (UInt16.ofNat s.gun.bullets.length)
    simp (disch := omega) only [Ship.makeBuffer,gun_built,empty,if_false,Runs.ok_bind,make_filled,setUint16_filled,
      setUint8_filled,size_filled,allocate]
    simp only [header,room,rest,shipBytes,slack,empty,if_false]
    simp only [filled,List.length_append,shipState_length,bytes16_length,records,Nat.add_zero] at embedded ⊢
    exact embedded

theorem playerHeader_built (p : Player) (sessionID ticks : UInt32) :
    p.makeBuffer sessionID ticks le = .ok (filled le (playerHeader le p sessionID ticks) 0) := by
  simp (disch := omega) only [Player.makeBuffer,make_filled,setUint8_filled,setUint16_filled,setUint32_filled,
    Runs.ok_bind]
  rfl

theorem playerTick_built (u : Size) (p : Player) (sessionID ticks : UInt32) :
    p.tickEvent A u sessionID ticks le =
      .ok (p.tick A u,filled le (playerTick A le (p.tick A u) sessionID ticks) 0) := by
  rw [Player.tickEvent,ship_built,Runs.ok_bind,playerHeader_built,Runs.ok_bind,concat_filled]
  rfl

theorem sessionTick_built {s : Session} {address : Nat} (registered : s.player = some address) (g : Game) :
    s.tickEvent A g = .ok
      (s.commit (filled s.isLittleEndian (playerTick A s.isLittleEndian
        ((g.memory address).tick A g.gUniverse.toSize) s.sessionID g.gUniverse.ticks) 0),
      g.setPlayer address ((g.memory address).tick A g.gUniverse.toSize)) := by
  simp only [Session.tickEvent,registered,playerTick_built,Runs.ok_bind]
  rfl

theorem sessionTick_unregistered {s : Session} (unregistered : s.player = none) (g : Game) :
    s.tickEvent A g = .ok (s,g) := by
  simp only [Session.tickEvent,unregistered]

theorem universeHeader_built (g : Game) (session : Session) : PerSession.header A g session =
    .ok (filled session.isLittleEndian (universeHeader A session.isLittleEndian g session.sessionID) 0) := by
  simp (disch := omega) only [PerSession.header,make_filled,setUint8_filled,setUint16_filled,setUint32_filled,
    Runs.ok_bind]
  rfl

theorem writeRock_filled (node : RockNode) (bytes : List UInt8) (room : Nat) (fits : 6 ≤ room) :
    PerSession.writeRock A (filled le bytes room) node =
      .ok (filled le (bytes ++ rockBytes A le node) (room - 6)) := by
  simp (disch := omega) only [PerSession.writeRock,setUint16_filled,Runs.ok_bind,List.append_assoc,rockBytes,Nat.sub_sub]

theorem rocks_built (g : Game) (session : Session) (bytes : List UInt8) (room : Nat) :
    PerSession.rocks A g session (filled session.isLittleEndian bytes room) =
      .ok (filled session.isLittleEndian
        (bytes ++ rocksBytes A session.isLittleEndian g.gUniverse.rockField.rocks) 0) := by
  simp (disch := omega) only [PerSession.rocks,grow_filled,Runs.ok_bind,setUint16_filled]
  rw [foldlM_filled writeRock_filled _ _ (by omega),rocksBytes,List.append_assoc]
  congr 2
  omega

-- The three loops over g_sessions, each with its own test, pick the same ships.
section Others
variable (g : Game) (session : Session)

def Present (pairs : List (UInt32 × Option Session)) : Prop := ∀ pair ∈ pairs, pair.2 ≠ none

theorem countShip_round {pair : UInt32 × Option Session} (present : pair.2 ≠ none) (numShips : Nat) :
    PerSession.countShip session numShips pair =
      .ok (numShips + (otherShip g session.sessionID pair).toList.length) := by
  obtain ⟨id,_ | sess⟩ := pair
  · exact absurd rfl present
  · by_cases own : id = session.sessionID
    · simp [PerSession.countShip,otherShip,own]
    · cases player : sess.player <;> simp [PerSession.countShip,otherShip,own,player]

theorem writeShip_round {pair : UInt32 × Option Session} (present : pair.2 ≠ none) (bytes : List UInt8)
    {room : Nat} (total : Nat) (fits : 6 * (otherShip g session.sessionID pair).toList.length ≤ room) :
    PerSession.writeShip A g session (filled le bytes room,total) pair =
      .ok (filled le (bytes ++ (otherShip g session.sessionID pair).toList.flatMap (otherShipBytes A le))
          (room - 6 * (otherShip g session.sessionID pair).toList.length),
        total + (bulletsOf (otherShip g session.sessionID pair).toList).length) := by
  obtain ⟨id,_ | sess⟩ := pair
  · exact absurd rfl present
  · by_cases own : id = session.sessionID
    · cases player : sess.player <;> simp [PerSession.writeShip,otherShip,own,player,bulletsOf]
    · cases player : sess.player with
      | none => simp [PerSession.writeShip,otherShip,own,player,bulletsOf]
      | some address =>
        simp only [otherShip,own,player,if_false,Option.map_some,Option.toList_some,List.length_singleton] at fits ⊢
        simp (disch := omega) only [PerSession.writeShip,player,own,if_false,setUint16_filled,Runs.ok_bind]
        simp [otherShipBytes,bulletsOf,Nat.sub_sub]

theorem writeBullet_filled (b : Bullet) (bytes : List UInt8) (room : Nat) (fits : 4 ≤ room) :
    PerSession.writeBullet A (filled le bytes room) b =
      .ok (filled le (bytes ++ otherBulletBytes A le b) (room - 4)) := by
  simp (disch := omega) only [PerSession.writeBullet,setUint16_filled,Runs.ok_bind,List.append_assoc,otherBulletBytes,
    Nat.sub_sub]

theorem writeBullets_round {pair : UInt32 × Option Session} (present : pair.2 ≠ none) (bytes : List UInt8)
    {room : Nat} (fits : 4 * (bulletsOf (otherShip g session.sessionID pair).toList).length ≤ room) :
    PerSession.writeBullets A g session (filled le bytes room) pair =
      .ok (filled le (bytes ++ (bulletsOf (otherShip g session.sessionID pair).toList).flatMap (otherBulletBytes A le))
        (room - 4 * (bulletsOf (otherShip g session.sessionID pair).toList).length)) := by
  obtain ⟨id,_ | sess⟩ := pair
  · exact absurd rfl present
  · by_cases own : id = session.sessionID
    · simp [PerSession.writeBullets,otherShip,own,bulletsOf]
    · cases player : sess.player with
      | none => simp [PerSession.writeBullets,otherShip,own,player,bulletsOf]
      | some address =>
        have alone : bulletsOf (otherShip g session.sessionID (id,some sess)).toList =
            (g.memory address).ship.gun.bullets := by simp [otherShip,own,player,bulletsOf]
        rw [alone] at fits ⊢
        simp only [PerSession.writeBullets,own,player,if_false]
        exact foldlM_filled writeBullet_filled _ _ fits

theorem otherShips_cons (pair : UInt32 × Option Session) (pairs : List (UInt32 × Option Session)) :
    otherShips g session.sessionID (pair :: pairs) =
      (otherShip g session.sessionID pair).toList ++ otherShips g session.sessionID pairs := by
  cases here : otherShip g session.sessionID pair <;> simp [otherShips,here]

theorem countShip_loop {pairs : List (UInt32 × Option Session)} (present : Present pairs) (numShips : Nat) :
    pairs.foldlM (PerSession.countShip session) numShips =
      .ok (numShips + (otherShips g session.sessionID pairs).length) := by
  induction pairs generalizing numShips with
  | nil => rfl
  | cons pair pairs ih =>
    rw [List.foldlM_cons,countShip_round g session (present pair (by simp)),Runs.ok_bind,
      ih (fun other member => present other (by simp [member])),otherShips_cons,List.length_append,Nat.add_assoc]

theorem writeShip_loop {pairs : List (UInt32 × Option Session)} (present : Present pairs) (bytes : List UInt8)
    {room : Nat} (total : Nat) (fits : 6 * (otherShips g session.sessionID pairs).length ≤ room) :
    pairs.foldlM (PerSession.writeShip A g session) (filled le bytes room,total) =
      .ok (filled le (bytes ++ (otherShips g session.sessionID pairs).flatMap (otherShipBytes A le))
          (room - 6 * (otherShips g session.sessionID pairs).length),
        total + (bulletsOf (otherShips g session.sessionID pairs)).length) := by
  induction pairs generalizing bytes room total with
  | nil => simp [otherShips,bulletsOf]
  | cons pair pairs ih =>
    rw [otherShips_cons,List.length_append] at fits
    rw [List.foldlM_cons,writeShip_round g session (present pair (by simp)) bytes total (by omega),Runs.ok_bind,
      ih (fun other member => present other (by simp [member])) _ _ (by omega),otherShips_cons]
    simp only [List.flatMap_append,List.append_assoc,List.length_append,bulletsOf,Nat.sub_sub,Nat.mul_add,Nat.add_assoc]

theorem writeBullets_loop {pairs : List (UInt32 × Option Session)} (present : Present pairs) (bytes : List UInt8)
    {room : Nat} (fits : 4 * (bulletsOf (otherShips g session.sessionID pairs)).length ≤ room) :
    pairs.foldlM (PerSession.writeBullets A g session) (filled le bytes room) =
      .ok (filled le (bytes ++ (bulletsOf (otherShips g session.sessionID pairs)).flatMap (otherBulletBytes A le))
        (room - 4 * (bulletsOf (otherShips g session.sessionID pairs)).length)) := by
  induction pairs generalizing bytes room with
  | nil => simp [otherShips,bulletsOf]
  | cons pair pairs ih =>
    have split : bulletsOf (otherShips g session.sessionID (pair :: pairs)) =
        bulletsOf (otherShip g session.sessionID pair).toList ++ bulletsOf (otherShips g session.sessionID pairs) := by
      rw [otherShips_cons,bulletsOf,List.flatMap_append]; rfl
    rw [split,List.length_append] at fits
    rw [List.foldlM_cons,writeBullets_round g session (present pair (by simp)) bytes (by omega),Runs.ok_bind,
      ih (fun other member => present other (by simp [member])) _ (by omega),split]
    simp only [List.flatMap_append,List.append_assoc,List.length_append,Nat.sub_sub,Nat.mul_add]

variable {session} {sessions : SessionMap} (present : Present sessions.toList)
include present

theorem bullets_built (flag : session.isLittleEndian = le) (bytes : List UInt8) :
    PerSession.bullets A g sessions session (filled le bytes 0)
        (bulletsOf (otherShips g session.sessionID sessions.toList)).length =
      .ok (filled le
        (bytes ++ otherBulletsBytes A le (bulletsOf (otherShips g session.sessionID sessions.toList))) 0) := by
  by_cases empty : bulletsOf (otherShips g session.sessionID sessions.toList) = []
  · simp [PerSession.bullets,otherBulletsBytes,empty]
  · have count : (bulletsOf (otherShips g session.sessionID sessions.toList)).length ≠ 0 := by simpa using empty
    simp (disch := omega) only [PerSession.bullets,count,if_false,flag,grow_filled,Runs.ok_bind,setUint16_filled]
    rw [writeBullets_loop g session present _ (by omega)]
    simp only [otherBulletsBytes,empty,if_false,List.append_assoc]
    congr 2
    omega

theorem ships_built (flag : session.isLittleEndian = le) (bytes : List UInt8) :
    PerSession.ships A g sessions session (filled le bytes 0) =
      .ok (filled le (bytes ++ otherShipsBytes A le (otherShips g session.sessionID sessions.toList) ++
        otherBulletsBytes A le (bulletsOf (otherShips g session.sessionID sessions.toList))) 0) := by
  rw [PerSession.ships,countShip_loop g session present 0,Runs.ok_bind,Nat.zero_add]
  by_cases empty : otherShips g session.sessionID sessions.toList = []
  · simp [empty,otherShipsBytes,otherBulletsBytes,bulletsOf]
  · have count : (otherShips g session.sessionID sessions.toList).length ≠ 0 := by simpa using empty
    have full : 2 + (otherShips g session.sessionID sessions.toList).length * (3 * 2) - 2 -
        6 * (otherShips g session.sessionID sessions.toList).length = 0 := by omega
    simp (disch := omega) only [count,if_false,flag,grow_filled,Runs.ok_bind,setUint16_filled]
    rw [writeShip_loop g session present _ 0 (by omega)]
    simp only [Runs.ok_bind,Nat.zero_add,full]
    rw [bullets_built g present flag]
    simp only [otherShipsBytes,empty,if_false,List.append_assoc]

theorem universeTick_built : g.perSessionTickEvent A sessions session =
    .ok (filled session.isLittleEndian (universeTick A session.isLittleEndian g sessions session.sessionID) 0) := by
  rw [Game.perSessionTickEvent,universeHeader_built,Runs.ok_bind,rocks_built,Runs.ok_bind,ships_built g present rfl]
  rfl

end Others
end Geoff.Messages
