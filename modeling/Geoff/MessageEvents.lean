import Geoff.OutgoingStream
import Geoff.RoundTrips

-- HandleMessageEvent of www/js/GameFace.js, with the handlers of asteroids.js behind it:
-- what a message of the server makes of the page. Without a result a handler has thrown.
namespace Geoff.Client
open ByteCursor RoundTrips Messages

-- The key and whether it is down are kept in globals that nothing reads.
def onKeyMessage (c : Globals) : Cursor Globals := do
  seek 2
  let sessionID ← u32
  let _isDown ← u8
  let _key ← u8
  return {c with sessionID := sessionID}

def handleMessageEvent (c : Globals) (data : List UInt8) : Option Globals := do
  let header ← getUint8 data 0
  if header ≠ 0xBB then return c
  let messageType ← getUint8 data 1
  match OutgoingStream.ofUInt8 messageType with
  | some .sessionRegistered => (onSessionRegistered c data 0).map Prod.fst
  | some .keyMessage => (onKeyMessage c data 0).map Prod.fst
  | some .clickMessage => return c
  | some .playerTickMessage => (onPlayerTickMessage c data 0).map Prod.fst
  | some .universeTickMessage => (onUniverseTickMessage c data 0).map Prod.fst
  | none => return c

def handleMessages (c : Globals) (messages : List (List UInt8)) : Option Globals := messages.foldlM handleMessageEvent c

variable {A : Arith}

theorem handle_universeTick (c : Globals) (g : Game) (sessions : SessionMap) (sessionID : UInt32) :
    handleMessageEvent c (universeTick A true g sessions sessionID) =
      (onUniverseTickMessage c (universeTick A true g sessions sessionID) 0).map Prod.fst := by
  rw [universeTick_split]
  rfl

theorem handle_playerTick (c : Globals) (p : Player) (sessionID ticks : UInt32) :
    handleMessageEvent c (playerTick A true p sessionID ticks) =
      (onPlayerTickMessage c (playerTick A true p sessionID ticks) 0).map Prod.fst := by
  rw [playerTick_split]
  rfl

theorem universeTick_shows (c : Globals) {g : Game} {sessions : SessionMap} {sessionID : UInt32}
    (fits : Readable A g (otherShips g sessionID sessions.toList)) :
    ∃ c', handleMessageEvent c (universeTick A true g sessions sessionID) = some c' ∧
      UniverseShown g sessionID (otherShips g sessionID sessions.toList) c' ∧ c'.universeStars = c.universeStars := by
  have long : ¬ (universeTick A true g sessions sessionID).length < 14 := by
    rw [universeTick_length,tickLength]
    omega
  have decoded := ((readUniverse_reads (A := A) _ g sessionID).bind_finishes
    (readRocks_readable _ rfl rfl fits)).seek (f := fun _ => readUniverse {c with
      universeRocks := [], universeShips := [], universeBullets := []} >>= readRocks) [0xBB,0x09] 0
  rw [← universeTick_split] at decoded
  have guarded : onUniverseTickMessage c (universeTick A true g sessions sessionID) 0 = _ :=
    (bind_run _ _ _ _).trans (by simp only [byteLength,Option.bind_some,if_neg long]; exact decoded)
  rw [handle_universeTick,guarded]
  exact ⟨_,rfl,{
    sessionID := rfl
    tickCount := rfl
    universeWidth := number_toUint16 fits.sizeW.1 fits.sizeW.2
    universeHeight := number_toUint16 fits.sizeH.1 fits.sizeH.2
    universeRocks := rfl
    universeShips := rfl
    universeBullets := rfl },rfl⟩

structure Surroundings where
  universeWidth : UInt16
  universeHeight : UInt16
  universeRocks : List ClientRock
  universeShips : List OtherShip
  universeBullets : List OtherBullet

def surroundings (c : Globals) : Surroundings :=
  ⟨c.universeWidth,c.universeHeight,c.universeRocks,c.universeShips,c.universeBullets⟩

def Aside (c c' : Globals) : Prop := surroundings c' = surroundings c ∧ c'.universeStars = c.universeStars

theorem Aside.trans {c c' c'' : Globals} (first : Aside c c') (second : Aside c' c'') : Aside c c'' :=
  ⟨second.1.trans first.1,second.2.trans first.2⟩

theorem readView_aside (c : Globals) : Yields (readView c) (Aside c) := by
  refine (yields_any _).bind fun sessionID _ => (yields_any _).bind fun tickCount _ => ?_
  refine (yields_any _).bind fun contextWidth _ => (yields_any _).bind fun contextHeight _ => ?_
  refine (yields_any _).bind fun contextOffsetX _ => (yields_any _).bind fun contextOffsetY _ => ?_
  refine (yields_any _).bind fun score _ => (yields_any _).bind fun phase _ => ?_
  exact yields_pure ⟨rfl,rfl⟩

theorem readFlags_aside (c : Globals) : Yields (readFlags c) (Aside c) := by
  refine (yields_any _).bind fun shipsFlags _ => (yields_any _).bind fun lives _ => ?_
  exact yields_pure ⟨rfl,rfl⟩

theorem readGun_aside (c : Globals) : Yields (readGun c) (Aside c) := by
  refine (yields_any _).bind fun numBullets _ => ?_
  split
  · exact (yields_any _).bind fun bullets _ => yields_pure ⟨rfl,rfl⟩
  · exact yields_pure ⟨rfl,rfl⟩

theorem onPlayerTickMessage_aside (c : Globals) : Yields (onPlayerTickMessage c) (Aside c) := by
  refine (yields_any _).bind fun _ _ => (readView_aside c).bind fun view same => ?_
  refine (yields_any _).bind fun shipX _ => (yields_any _).bind fun shipY _ => (yields_any _).bind fun shipAngle _ => ?_
  refine (yields_any _).bind fun ended _ => ?_
  split
  · exact yields_pure same
  · refine (readFlags_aside _).bind fun flags kept => ?_
    exact (readGun_aside flags).imp fun c' still => (same.trans kept).trans still

-- A page that has handled the two messages of a tick shows both, under the same stars.
theorem tick_shows (c : Globals) {g : Game} {sessions : SessionMap} {sessionID : UInt32} {p : Player}
    (fits : Readable A g (otherShips g sessionID sessions.toList)) (own : PlayerFits A p) :
    ∃ c', handleMessages c [universeTick A true g sessions sessionID,playerTick A true p sessionID g.gUniverse.ticks] = some c' ∧
      UniverseShown g sessionID (otherShips g sessionID sessions.toList) c' ∧ PlayerShown p sessionID g.gUniverse.ticks c' ∧
      c'.universeStars = c.universeStars := by
  obtain ⟨first,handled,shown,sky⟩ := universeTick_shows c fits
  obtain ⟨second,offset,decoded,player⟩ := onPlayerTickMessage_shows first own sessionID g.gUniverse.ticks
  obtain ⟨aside,stars⟩ := onPlayerTickMessage_aside first _ _ _ _ decoded
  simp only [surroundings,Surroundings.mk.injEq] at aside
  obtain ⟨wide,high,rocks,ships,bullets⟩ := aside
  refine ⟨second,?_,{
    sessionID := player.sessionID
    tickCount := player.tickCount
    universeWidth := ?_
    universeHeight := ?_
    universeRocks := rocks.trans shown.universeRocks
    universeShips := ships.trans shown.universeShips
    universeBullets := bullets.trans shown.universeBullets },player,stars.trans sky⟩
  · simp only [handleMessages,List.foldlM_cons,List.foldlM_nil,handled,Option.bind_eq_bind,Option.bind_some,
      handle_playerTick,decoded,Option.map_some]
    rfl
  · rw [wide]
    exact shown.universeWidth
  · rw [high]
    exact shown.universeHeight

end Geoff.Client
