import Geoff.RoundTrips
import Geoff.SessionSteps

-- The stores of the message builders and the buffers they make: nothing lands
-- outside, and a finished message fills its buffer.
namespace Geoff.Builders
open AppBuffer Messages ByteCursor

def Full (ab : AppBuffer) : Prop := ab.bytesWritten = ab.size

theorem filled_full (le : Bool) (bytes : List UInt8) : Full (filled le bytes 0) := by simp [Full]

def allocateInside (ab : AppBuffer) (bytes : Nat) : Except Fault (Nat × AppBuffer) :=
  if ab.writeOffset + bytes ≤ ab.size then .ok (ab.allocate bytes) else .error .bufferOverrun

def shipBuffer (allocate : AppBuffer → Nat → Except Fault (Nat × AppBuffer)) (A : Arith) (s : Ship)
    (isLittleEndian : Bool) : Except Fault AppBuffer := do
  let minHeaderSize := 10
  let bulletsBuffer ← s.gun.makeBuffer A isLittleEndian
  let outSize := match bulletsBuffer with
    | some bullets => minHeaderSize + bullets.size
    | none => minHeaderSize
  let txBuff := AppBuffer.make outSize isLittleEndian
  let txBuff ← txBuff.setUint16 (A.toUint16 s.posX)
  let txBuff ← txBuff.setUint16 (A.toUint16 s.posY)
  let txBuff ← txBuff.setUint16 (A.toUint16 (A.fl (s.angle * Consts.fp412)))
  let txBuff ← txBuff.setUint8 s.flags
  let txBuff ← txBuff.setUint8 (UInt8.ofNat (s.livesLeft % 256).toNat)
  let txBuff ← txBuff.setUint16 0
  match bulletsBuffer with
  | none => return txBuff
  | some bullets =>
    let (offset,txBuff) ← allocate txBuff bullets.size
    let txBuff ← txBuff.setUint16At (minHeaderSize - 2) (bullets.getUint16At (fun _ => 0) 0)
    let records ← bullets.load 2 (bullets.size - 2)
    txBuff.store offset records

variable {A : Arith} {le : Bool}

theorem shipBuffer_allocate (s : Ship) : shipBuffer (fun ab bytes => .ok (ab.allocate bytes)) A s le = s.makeBuffer A le :=
  rfl

theorem shipBuffer_inside (s : Ship) : shipBuffer allocateInside A s le = s.makeBuffer A le := by
  rw [← shipBuffer_allocate]
  unfold shipBuffer
  rw [gun_built]
  by_cases empty : s.gun.bullets = []
  · simp only [empty,if_true,Runs.ok_bind]
  · simp (disch := omega) only [empty,if_false,Runs.ok_bind,make_filled,setUint16_filled,setUint8_filled,size_filled]
    have inside : ∀ head : List UInt8, head.length = 10 → ∀ room bytes, bytes ≤ room →
        allocateInside (filled le head room) bytes = .ok ((filled le head room).allocate bytes) := by
      intro head header room bytes fits
      rw [allocateInside,if_pos]
      simpa [filled,size] using fits
    rw [inside _ (by simp) _ _ (by omega)]
    rfl

theorem counts_inside (session : Session) (pairs : List (UInt32 × Option Session)) (numShips : Nat) :
    pairs.foldlM (PerSession.countShip session) numShips ≠ .error .bufferOverrun := by
  induction pairs generalizing numShips with
  | nil => exact fun impossible => nomatch impossible
  | cons pair pairs ih =>
    apply Runs.bind_avoids
    · unfold PerSession.countShip
      split
      · exact fun other => nomatch other
      · split <;> exact fun impossible => nomatch impossible
    · exact fun next _ => ih next

theorem universeTick_inside (g : Game) (m : SessionMap) (session : Session) :
    g.perSessionTickEvent A m session ≠ .error .bufferOverrun := by
  rw [Game.perSessionTickEvent,universeHeader_built,Runs.ok_bind,rocks_built,Runs.ok_bind]
  apply Runs.bind_avoids
  · exact counts_inside session m.toList 0
  · intro numShips counted
    have present := countShips_present counted
    have order : session.isLittleEndian = session.isLittleEndian := rfl
    have built := ships_built (A := A) g present order
      (universeHeader A session.isLittleEndian g session.sessionID ++
        rocksBytes A session.isLittleEndian g.gUniverse.rockField.rocks)
    rw [PerSession.ships,counted,Runs.ok_bind] at built
    rw [built]
    intro impossible
    cases impossible

-- Each builder in turn: it runs to its end, and the message it has finished is full.
theorem builders_write_inside (A : Arith) (le : Bool) (u : Size) (g : Game) (m : SessionMap) (session : Session) :
    (∀ rx, ∃ ab, Full ab ∧ (session.handleNewSession A g rx).1 =
      .ok (({session with player := some g.allocated} : Session).commit ab,
        g.newPlayer A session.sessionID (rx.uint16 3) (rx.uint16 5))) ∧
    (∀ gun : Gun, ∃ built, gun.makeBuffer A le = .ok built ∧ ∀ ab, built = some ab → Full ab) ∧
    (∀ s : Ship, ∃ ab, s.makeBuffer A le = .ok ab ∧ shipBuffer allocateInside A s le = .ok ab ∧ Full ab) ∧
    (∀ (p : Player) sessionID ticks, ∃ ab, p.makeBuffer sessionID ticks le = .ok ab ∧ Full ab) ∧
    (∀ (p : Player) sessionID ticks, ∃ ab, p.tickEvent A u sessionID ticks le = .ok (p.tick A u,ab) ∧ Full ab) ∧
    g.perSessionTickEvent A m session ≠ .error .bufferOverrun ∧
    (∀ ab, g.perSessionTickEvent A m session = .ok ab → Full ab) ∧
    (Present m.toList → ∃ ab, g.perSessionTickEvent A m session = .ok ab) := by
  refine ⟨fun rx => ?_,fun gun => ?_,fun s => ?_,fun p sessionID ticks => ?_,fun p sessionID ticks => ?_,
    universeTick_inside g m session,fun ab built => ?_,fun present => ?_⟩
  · exact ⟨_,filled_full _ _,by rw [Session.handleNewSession_run,register_built]⟩
  · refine ⟨_,gun_built gun,fun ab some_bullets => ?_⟩
    split at some_bullets
    · cases some_bullets
    · rw [← Option.some.inj some_bullets]
      exact filled_full _ _
  · exact ⟨_,ship_built s,(shipBuffer_inside s).trans (ship_built s),filled_full _ _⟩
  · exact ⟨_,playerHeader_built p sessionID ticks,filled_full _ _⟩
  · exact ⟨_,playerTick_built u p sessionID ticks,filled_full _ _⟩
  · rw [universeTick_buffer built]
    exact filled_full _ _
  · exact ⟨_,universeTick_built g present⟩

-- Ship::MakeBuffer sizes its buffer for the whole buffer of the gun and copies that
-- without its count, which its own header has already.
def NoSlack (A : Arith) (le : Bool) (s : Ship) : Prop := ∃ ab, s.makeBuffer A le = .ok ab ∧
  ab.bytesWritten = 10 + 4 * s.gun.bullets.length ∧
  ab.wire = shipState A le s ++ (bytes16 le (UInt16.ofNat s.gun.bullets.length) ++ s.gun.bullets.flatMap (bulletBytes A le)) ∧
  ∀ (p : Player) (sessionID ticks : UInt32) (c : Client.Globals), ∃ shown,
    Client.onPlayerTickMessage c (playerHeader le p sessionID ticks ++ ab.wire) 0 =
      some (shown,(playerHeader le p sessionID ticks ++ ab.wire).length)

theorem bullets_length (bullets : List Bullet) : (bullets.flatMap (bulletBytes A le)).length = 4 * bullets.length :=
  RoundTrips.flatMap_width (bulletBytes A le) 4 (fun b => by simp [bulletBytes]) bullets

theorem ship_written {s : Ship} {ab : AppBuffer} (built : s.makeBuffer A le = .ok ab) :
    ab.bytesWritten = 10 + 4 * s.gun.bullets.length + (slack s.gun.bullets).length := by
  rw [ship_built] at built
  rw [← Except.ok.inj built]
  simp only [written_filled,shipBytes,gunBytes,List.length_append,shipState_length,bytes16_length,bullets_length]
  omega

theorem noSlack_empty {s : Ship} (exact : NoSlack A le s) : s.gun.bullets = [] := by
  obtain ⟨ab,built,written,_⟩ := exact
  by_contra some_bullets
  have more := ship_written built
  rw [written,slack,if_neg some_bullets] at more
  simp at more

-- The part of a player tick the browser reads before the ship's flags, whatever the
-- byte order it was written in.
theorem readView_takes (c : Client.Globals) : Takes (Client.readView c) (4+(4+(2+(2+(2+(2+(4+(2+0)))))))) := by
  refine takes_u32.bind fun _ => takes_u32.bind fun _ => takes_u16.bind fun _ => takes_u16.bind fun _ => ?_
  exact takes_u16.bind fun _ => takes_u16.bind fun _ => takes_u32.bind fun _ => takes_u16.bind fun _ => takes_pure _

theorem readGun_none (c : Client.Globals) : Reads (Client.readGun c) [0,0] {c with ship := {c.ship with bullets := []}} :=
  (reads_u16 0).bind (reads_pure _)

theorem bytes16_takes (le : Bool) (v : UInt16) : ∃ w, Reads u16 (bytes16 le v) w := takes_u16 _ (by simp)

theorem header_read (c : Client.Globals) (p : Player) (sessionID ticks : UInt32) (s : Ship) : ∃ shown,
    Client.onPlayerTickMessage c (playerHeader le p sessionID ticks ++ (shipState A le s ++ bytes16 le 0)) 0 =
      some (shown,(playerHeader le p sessionID ticks ++ (shipState A le s ++ bytes16 le 0)).length) := by
  let view := bytes32 le sessionID ++ bytes32 le ticks ++ bytes16 le p.ctxW ++ bytes16 le p.ctxH ++
    bytes16 le p.ctxOX ++ bytes16 le p.ctxOY ++ bytes32 le p.score ++ bytes16 le p.phase.toUInt16
  obtain ⟨viewed,readView⟩ := readView_takes c view (by simp [view])
  obtain ⟨x,readX⟩ := bytes16_takes le (A.toUint16 s.posX)
  obtain ⟨y,readY⟩ := bytes16_takes le (A.toUint16 s.posY)
  obtain ⟨angle,readAngle⟩ := bytes16_takes le (A.toUint16 (A.fl (s.angle * Consts.fp412)))
  have zero : bytes16 le 0 = [0,0] := by cases le <;> rfl
  have split : playerHeader le p sessionID ticks ++ (shipState A le s ++ bytes16 le 0) = [0xBB,0x07] ++ (view ++
      (bytes16 le (A.toUint16 s.posX) ++ (bytes16 le (A.toUint16 s.posY) ++
        (bytes16 le (A.toUint16 (A.fl (s.angle * Consts.fp412))) ++ (([s.flags] ++ ([livesByte s] ++ [])) ++ [0,0]))))) := by
    simp [playerHeader,shipState,view,zero,MessageType.toUInt8]
  rw [split]
  exact ⟨_,Finishes.seek (Reads.finishes (readView.bind <| readX.bind <| readY.bind <| readAngle.bind <|
    Reads.notAtEnd ((RoundTrips.readFlags_reads _ s).bind (readGun_none _)) (by simp))) [0xBB,0x07] 0⟩

theorem empty_noSlack {s : Ship} (empty : s.gun.bullets = []) : NoSlack A le s := by
  have bytes : shipBytes A le s = shipState A le s ++ bytes16 le 0 := by
    simp [shipBytes,gunBytes,slack,empty]
  refine ⟨_,ship_built s,?_,?_,fun p sessionID ticks c => ?_⟩
  · rw [ship_written (ship_built s),slack,if_pos empty]
    rfl
  · rw [wire_filled,bytes,empty]
    simp
  · rw [wire_filled,bytes]
    exact header_read c p sessionID ticks s

theorem ship_message_exact_iff (A : Arith) (le : Bool) (s : Ship) : NoSlack A le s ↔ s.gun.bullets = [] :=
  ⟨noSlack_empty,empty_noSlack⟩

theorem first_bullet_slack :
    ¬ NoSlack .upright true ((Ship.make .upright ⟨8192,8192⟩ 800 600 4096 4096 0).fireGuns .upright) := by
  intro exact
  have empty := noSlack_empty exact
  simp [Ship.fireGuns,Ship.make,Gun.fire,Consts.gunMagSize] at empty

end Geoff.Builders
