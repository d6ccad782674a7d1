import Geoff.Messages
import Geoff.Client

-- The server's messages read by the browser, for a client that announced itself
-- with 0xAB: every word is on the wire with its high byte first.
namespace Geoff.RoundTrips
open ByteCursor AppBuffer Client Messages

variable {A : Arith}

theorem number_toUint16 {x : ℚ} (low : 0 ≤ x) (high : x < 65536) : number (A.toUint16 x) = trunc x :=
  A.toUint16_fits x (by linarith) high

theorem signed_toInt16 {x : ℚ} (low : -32769 < x) (high : x < 32768) : signed (A.toInt16 x).toUInt16 = trunc x := by
  rw [signed,Int16.toInt16_toUInt16]
  exact A.toInt16_fits x low high

theorem trunc_nonneg {x : ℚ} (low : 0 ≤ x) : 0 ≤ trunc x := by
  rw [trunc,if_pos low]; exact Int.floor_nonneg.mpr low

theorem number_toInt16 {x : ℚ} (low : 0 ≤ x) (high : x < 32768) : number (A.toInt16 x).toUInt16 = trunc x := by
  have fits := A.toInt16_fits x (by linarith) high
  have nonneg := trunc_nonneg low
  have positive : 0 ≤ A.toInt16 x := Int16.le_iff_toInt_le.mpr (by rw [fits]; exact nonneg)
  have same : ((A.toInt16 x).toInt.toNat : ℤ) = (A.toInt16 x).toInt := Int.toNat_of_nonneg (by rw [fits]; exact nonneg)
  rw [number,Int16.toNat_toUInt16_of_le positive,Int16.toNatClampNeg,same,fits]

theorem number_angle {angle : ℚ} (low : 0 ≤ angle) (high : angle < 16) (double : A.fl angle = angle) :
    number (A.toUint16 (A.fl (angle * Consts.fp412))) = ⌊angle * 4096⌋ := by
  have scaled : A.fl (angle * Consts.fp412) = angle * 4096 := A.fl_scale angle low high double
  have nonneg : 0 ≤ angle * 4096 := by linarith
  rw [scaled,number_toUint16 nonneg (by linarith),trunc,if_pos nonneg]

theorem count_read {n : Nat} (few : n < 65536) : (UInt16.ofNat n).toNat = n := by
  simp; omega

theorem count_zero {α : Type} {xs : List α} (few : xs.length < 65536) : UInt16.ofNat xs.length = 0 ↔ xs = [] := by
  rw [← UInt16.toNat_inj,count_read few]
  simp

section SessionRegistered

-- The star list OnSessionRegistered builds: it never steps over the count it has
-- peeked at, so each star is read one word early, `word` being the first of them.
def shifted (A : Arith) (word : UInt16) : List Position → List Point
  | [] => []
  | star :: rest => ⟨number word,number (A.toUint16 star.posX)⟩ :: shifted A (A.toUint16 star.posY) rest

theorem readStar_reads (x y : UInt16) : Reads readStar (be16 x ++ (be16 y ++ [])) ⟨number x,number y⟩ :=
  (reads_u16 _).bind <| (reads_u16 _).bind <| reads_pure _

theorem stars_shifted (stars : List Position) (word : UInt16) (before : List UInt8) :
    many stars.length readStar (before ++ (be16 word ++ stars.flatMap (starBytes A true))) before.length =
      some (shifted A word stars,before.length + 4 * stars.length) := by
  induction stars generalizing word before with
  | nil => rfl
  | cons star rest ih =>
    have one := readStar_reads word (A.toUint16 star.posX) before
      (be16 (A.toUint16 star.posY) ++ rest.flatMap (starBytes A true))
    have more := ih (A.toUint16 star.posY) (before ++ (be16 word ++ (be16 (A.toUint16 star.posX) ++ [])))
    have behind : (before ++ (be16 word ++ (be16 (A.toUint16 star.posX) ++ []))).length = before.length + 4 := by simp
    rw [behind] at more one
    have bytes : before ++ (be16 word ++ (star :: rest).flatMap (starBytes A true)) =
        before ++ (be16 word ++ (be16 (A.toUint16 star.posX) ++ [])) ++
          (be16 (A.toUint16 star.posY) ++ rest.flatMap (starBytes A true)) := by
      simp [starBytes]
    have width : before.length + 4 * (rest.length + 1) = before.length + 4 + 4 * rest.length := by omega
    rw [bytes,List.length_cons,width,many,bind_run,one,Option.bind_some,bind_run,more,Option.bind_some]
    rfl

-- Every star read one word early is right only if all the words are one value.
theorem shifted_right (stars : List Position) (word : UInt16) :
    shifted A word stars = stars.map (fun star => ⟨number (A.toUint16 star.posX),number (A.toUint16 star.posY)⟩) ↔
      ∀ star ∈ stars, number (A.toUint16 star.posX) = number word ∧ number (A.toUint16 star.posY) = number word := by
  induction stars generalizing word with
  | nil => simp [shifted]
  | cons star rest ih =>
    simp only [shifted,List.map_cons,List.cons.injEq,Point.mk.injEq,ih,List.forall_mem_cons]
    constructor
    · rintro ⟨⟨first,second⟩,others⟩
      rw [← second,← first] at others
      exact ⟨⟨first.symm,second.symm.trans first.symm⟩,others⟩
    · rintro ⟨⟨first,second⟩,others⟩
      rw [first,second]
      exact ⟨⟨rfl,rfl⟩,others⟩

theorem sessionRegistered_split (stars : List Position) (sessionID : UInt32) :
    sessionRegistered A true stars sessionID = [0xBB,0x01] ++ (be32 sessionID ++ (be16 gameAppVersion ++ [])) ++
      (be16 (UInt16.ofNat stars.length) ++ stars.flatMap (starBytes A true)) := by
  simp [sessionRegistered,MessageType.toUInt8]

theorem readIds_reads (c : Globals) (sessionID : UInt32) (version : UInt16) :
    Reads (readIds c) (be32 sessionID ++ (be16 version ++ []))
      {c with sessionID := sessionID, serverAppVersion := version, isConnected := true} :=
  (reads_u32 _).bind <| (reads_u16 _).bind <| reads_pure _

theorem onSessionRegistered_reads (c : Globals) (stars : List Position) (sessionID : UInt32)
    (few : stars.length < 65536) :
    onSessionRegistered c (sessionRegistered A true stars sessionID) 0 =
      some ({c with
          sessionID := sessionID, serverAppVersion := gameAppVersion, isConnected := true,
          universeStars := c.universeStars ++ shifted A (UInt16.ofNat stars.length) stars},
        8 + 4 * stars.length) := by
  have long : (sessionRegistered A true stars sessionID).length ≥ 8 := by
    rw [sessionRegistered_split]; simp; omega
  have ids := readIds_reads c sessionID gameAppVersion [0xBB,0x01]
    (be16 (UInt16.ofNat stars.length) ++ stars.flatMap (starBytes A true))
  have peek := peek16_word (UInt16.ofNat stars.length) ([0xBB,0x01] ++ (be32 sessionID ++ (be16 gameAppVersion ++ [])))
    (stars.flatMap (starBytes A true))
  have loop := stars_shifted (A := A) stars (UInt16.ofNat stars.length)
    ([0xBB,0x01] ++ (be32 sessionID ++ (be16 gameAppVersion ++ [])))
  rw [← sessionRegistered_split] at ids peek loop
  have behind : ([0xBB,0x01] ++ (be32 sessionID ++ (be16 gameAppVersion ++ []))).length = 8 := by simp
  rw [behind] at ids peek loop
  have start : ([0xBB,0x01] : List UInt8).length = 2 := rfl
  rw [start] at ids
  simp only [onSessionRegistered,bind_run,seek,byteLength,Option.bind_some,if_pos long,ids,peek,count_read few,loop]
  rfl

def starShown (star : Position) : Point := ⟨trunc star.posX,trunc star.posY⟩

def InWords (star : Position) : Prop := (0 ≤ star.posX ∧ star.posX < 65536) ∧ (0 ≤ star.posY ∧ star.posY < 65536)

def Delivered (A : Arith) (s : Session) (g : Game) (rx : Rx) (c : Globals) : Prop :=
  ∃ s' g' txBuff c' offset, (s.handleNewSession A g rx).1 = .ok (s',g') ∧ s'.txQue = s.txQue ++ [txBuff] ∧
    onSessionRegistered c txBuff.wire 0 = some (c',offset) ∧ c'.sessionID = s.sessionID ∧
    c'.serverAppVersion = gameAppVersion ∧ c'.universeStars = g.gUniverse.stars.map starShown

theorem delivered_shifted (A : Arith) (s : Session) (g : Game) {rx : Rx} {c : Globals}
    (le : rx.buffer.isLittleEndian = true) (few : g.gUniverse.stars.length < 65536) (fresh : c.universeStars = []) :
    Delivered A s g rx c ↔
      shifted A (UInt16.ofNat g.gUniverse.stars.length) g.gUniverse.stars = g.gUniverse.stars.map starShown := by
  have committed := register_built A true s g (rx.uint16 3) (rx.uint16 5)
  have handled : (s.handleNewSession A g rx).1 = s.register A g (rx.uint16 3) (rx.uint16 5) true := by
    rw [Session.handleNewSession_run,le]
  rw [← handled] at committed
  have decoded := onSessionRegistered_reads (A := A) c g.gUniverse.stars s.sessionID few
  rw [fresh,List.nil_append] at decoded
  constructor
  · rintro ⟨s',g2,txBuff,c',offset,ran,queued,read,_,_,stars⟩
    rw [committed] at ran
    cases ran
    have sent := List.append_cancel_left queued
    rw [← List.singleton_injective sent,wire_filled,decoded] at read
    cases read
    exact stars
  · intro stars
    exact ⟨_,_,_,_,_,committed,rfl,by rw [wire_filled]; exact decoded,rfl,rfl,stars⟩

theorem registration_delivered_iff (A : Arith) (s : Session) (g : Game) (rx : Rx) (c : Globals)
    (le : rx.buffer.isLittleEndian = true) (few : g.gUniverse.stars.length < 65536)
    (fits : ∀ star ∈ g.gUniverse.stars, InWords star) (fresh : c.universeStars = []) :
    Delivered A s g rx c ↔ ∀ star ∈ g.gUniverse.stars,
      trunc star.posX = g.gUniverse.stars.length ∧ trunc star.posY = g.gUniverse.stars.length := by
  have right := shifted_right (A := A) g.gUniverse.stars (UInt16.ofNat g.gUniverse.stars.length)
  have count : number (UInt16.ofNat g.gUniverse.stars.length) = g.gUniverse.stars.length := by
    rw [number,count_read few]
  have words : ∀ star ∈ g.gUniverse.stars,
      number (A.toUint16 star.posX) = trunc star.posX ∧ number (A.toUint16 star.posY) = trunc star.posY :=
    fun star member => ⟨number_toUint16 (fits star member).1.1 (fits star member).1.2,
      number_toUint16 (fits star member).2.1 (fits star member).2.2⟩
  have shown : g.gUniverse.stars.map (fun star => (⟨number (A.toUint16 star.posX),number (A.toUint16 star.posY)⟩ : Point)) =
      g.gUniverse.stars.map starShown :=
    List.map_congr_left fun star member => by rw [(words star member).1,(words star member).2]; rfl
  have all : (∀ star ∈ g.gUniverse.stars, number (A.toUint16 star.posX) = g.gUniverse.stars.length ∧
      number (A.toUint16 star.posY) = g.gUniverse.stars.length) ↔ ∀ star ∈ g.gUniverse.stars,
      trunc star.posX = g.gUniverse.stars.length ∧ trunc star.posY = g.gUniverse.stars.length :=
    forall₂_congr fun star member => by rw [(words star member).1,(words star member).2]
  rw [delivered_shifted A s g le few fresh,← all,← count,← right,shown]

def loaded : Globals :=
  ⟨0,0,false,[],0,0,0,0,0,0,0,0,0,⟨0,0,0,0,rfl,[],false,false,false,false⟩,0,0,[],[],[]⟩

def announced : Rx := ⟨.ofBytes (List.replicate 9 0) true,fun _ => 0⟩

def starGame (stars : List Position) : Game :=
  ⟨⟨⟨8192,8192⟩,.make,∅,.make,0,stars⟩,fun _ => default,0,.zeros,[]⟩

theorem single_star_delivered : Delivered .upright (.make 7) (starGame [⟨1,3 / 2⟩]) announced loaded :=
  (registration_delivered_iff .upright (.make 7) (starGame [⟨1,3 / 2⟩]) announced loaded rfl (by decide)
    (by simp [starGame,InWords]; norm_num) rfl).mpr (by simp [starGame,trunc]; norm_num)

-- The browser takes the count for the first star's x and that star's x for its y.
theorem single_star_shifted : ¬ Delivered .upright (.make 7) (starGame [⟨5,7⟩]) announced loaded := by
  rw [delivered_shifted .upright (.make 7) (starGame [⟨5,7⟩]) rfl (by decide) rfl]
  decide

end SessionRegistered

section PlayerTick

structure PlayerFits (A : Arith) (p : Player) : Prop where
  posX : 0 ≤ p.ship.posX ∧ p.ship.posX < 65536
  posY : 0 ≤ p.ship.posY ∧ p.ship.posY < 65536
  angle : 0 ≤ p.ship.angle ∧ p.ship.angle < 16 ∧ A.fl p.ship.angle = p.ship.angle
  lives : 0 ≤ p.ship.livesLeft ∧ p.ship.livesLeft ≤ 255
  few : p.ship.gun.bullets.length < 65536
  bullets : ∀ b ∈ p.ship.gun.bullets, (0 ≤ b.posX ∧ b.posX < 65536) ∧ (0 ≤ b.posY ∧ b.posY < 65536)

structure PlayerShown (p : Player) (sessionID ticks : UInt32) (c : Globals) : Prop where
  sessionID : c.sessionID = sessionID
  tickCount : c.tickCount = ticks
  contextWidth : c.contextWidth = p.ctxW
  contextHeight : c.contextHeight = p.ctxH
  contextOffsetX : c.contextOffsetX = p.ctxOX
  contextOffsetY : c.contextOffsetY = p.ctxOY
  score : c.score = p.score
  phase : c.phase = p.phase.toUInt16
  shipX : c.ship.x = trunc p.ship.posX
  shipY : c.ship.y = trunc p.ship.posY
  angle : c.ship.a = ⌊p.ship.angle * 4096⌋ / 4096
  thrusting : c.ship.thrusting = p.ship.thrusting
  exploding : c.ship.exploding = p.ship.exploding
  visible : c.ship.visible = p.ship.visible
  dead : c.ship.dead = p.ship.dead
  lives : (c.lives.toNat : ℤ) = p.ship.livesLeft
  bullets : c.ship.bullets = p.ship.gun.bullets.map (fun b => ⟨trunc b.posX - p.ctxOX.toNat,trunc b.posY - p.ctxOY.toNat⟩)

def viewBytes (p : Player) (sessionID ticks : UInt32) : List UInt8 :=
  be32 sessionID ++ (be32 ticks ++ (be16 p.ctxW ++ (be16 p.ctxH ++ (be16 p.ctxOX ++ (be16 p.ctxOY ++
    (be32 p.score ++ (be16 p.phase.toUInt16 ++ [])))))))

def viewShown (c : Globals) (p : Player) (sessionID ticks : UInt32) : Globals :=
  {c with
    sessionID := sessionID, tickCount := ticks, contextWidth := p.ctxW, contextHeight := p.ctxH,
    contextOffsetX := p.ctxOX, contextOffsetY := p.ctxOY, score := p.score, phase := p.phase.toUInt16}

theorem readView_reads (c : Globals) (p : Player) (sessionID ticks : UInt32) :
    Reads (readView c) (viewBytes p sessionID ticks) (viewShown c p sessionID ticks) :=
  (reads_u32 _).bind <| (reads_u32 _).bind <| (reads_u16 _).bind <| (reads_u16 _).bind <| (reads_u16 _).bind <|
    (reads_u16 _).bind <| (reads_u32 _).bind <| (reads_u16 _).bind <| reads_pure _

theorem flags_bits (s : Ship) : decide (s.flags &&& 0x01 ≠ 0) = s.thrusting ∧ decide (s.flags &&& 0x02 ≠ 0) = s.exploding ∧
    decide (s.flags &&& 0x04 ≠ 0) = s.visible ∧ decide (s.flags &&& 0x08 ≠ 0) = s.dead := by
  unfold Ship.flags
  cases s.thrusting <;> cases s.exploding <;> cases s.visible <;> cases s.dead <;> decide

theorem livesByte_toNat {s : Ship} (low : 0 ≤ s.livesLeft) (high : s.livesLeft ≤ 255) :
    ((livesByte s).toNat : ℤ) = s.livesLeft := by
  simp [livesByte]; omega

theorem readFlags_reads (c : Globals) (s : Ship) : Reads (readFlags c) ([s.flags] ++ ([livesByte s] ++ []))
    {c with
      shipsFlags := s.flags, lives := livesByte s,
      ship := {c.ship with
        thrusting := s.thrusting, exploding := s.exploding, visible := s.visible, dead := s.dead}} := by
  obtain ⟨thrusting,exploding,visible,dead⟩ := flags_bits s
  have all : Reads (readFlags c) ([s.flags] ++ ([livesByte s] ++ []))
      {c with
        shipsFlags := s.flags, lives := livesByte s,
        ship := {c.ship with
          thrusting := decide (s.flags &&& 0x01 ≠ 0), exploding := decide (s.flags &&& 0x02 ≠ 0),
          visible := decide (s.flags &&& 0x04 ≠ 0), dead := decide (s.flags &&& 0x08 ≠ 0)}} :=
    (reads_u8 _).bind <| (reads_u8 _).bind <| reads_pure _
  rw [thrusting,exploding,visible,dead] at all
  exact all

theorem readBullet_reads {b : Bullet} (ox oy : UInt16) (fitsX : 0 ≤ b.posX ∧ b.posX < 65536)
    (fitsY : 0 ≤ b.posY ∧ b.posY < 65536) :
    Reads (readBullet ox oy) (bulletBytes A true b) ⟨trunc b.posX - number ox,trunc b.posY - number oy⟩ := by
  have x := number_toUint16 (A := A) fitsX.1 fitsX.2
  have y := number_toUint16 (A := A) fitsY.1 fitsY.2
  have all : Reads (readBullet ox oy) (be16 (A.toUint16 b.posX) ++ (be16 (A.toUint16 b.posY) ++ []))
      ⟨number (A.toUint16 b.posX) - number ox,number (A.toUint16 b.posY) - number oy⟩ :=
    (reads_u16 _).bind <| (reads_u16 _).bind <| reads_pure _
  rw [x,y] at all
  simpa only [bulletBytes,bytes16_true,List.append_nil] using all

def bulletShown (ox oy : UInt16) (b : Bullet) : Point := ⟨trunc b.posX - number ox,trunc b.posY - number oy⟩

theorem readGun_reads (c : Globals) {bullets : List Bullet} (few : bullets.length < 65536)
    (fits : ∀ b ∈ bullets, (0 ≤ b.posX ∧ b.posX < 65536) ∧ (0 ≤ b.posY ∧ b.posY < 65536)) :
    Reads (readGun c) (gunBytes A true bullets)
      {c with ship := {c.ship with bullets := bullets.map (bulletShown c.contextOffsetX c.contextOffsetY)}} := by
  have loop := reads_many (fun b member => show Reads _ _ (bulletShown c.contextOffsetX c.contextOffsetY b) from
    readBullet_reads (A := A) c.contextOffsetX c.contextOffsetY (fits b member).1 (fits b member).2)
  rw [gunBytes,bytes16_true]
  refine (reads_u16 _).bind ?_
  by_cases empty : bullets = []
  · subst empty; exact reads_pure _
  · have positive : UInt16.ofNat bullets.length > 0 := by
      rw [gt_iff_lt,UInt16.lt_iff_toNat_lt,count_read few]
      exact List.length_pos_iff.mpr empty
    rw [if_pos positive,count_read few]
    have all := loop.bind (f := fun bullets => pure {c with ship := {c.ship with bullets := bullets}}) (reads_pure _)
    simpa only [List.append_nil] using all

theorem move_ship (s : ClientShip) (x y a : ℚ) : s.move x y a = {s with x := x, y := y, a := a} := by
  rw [ClientShip.move,if_pos s.unset]

theorem playerTick_split (p : Player) (sessionID ticks : UInt32) :
    playerTick A true p sessionID ticks = [0xBB,0x07] ++ (viewBytes p sessionID ticks ++
      (be16 (A.toUint16 p.ship.posX) ++ (be16 (A.toUint16 p.ship.posY) ++
        (be16 (A.toUint16 (A.fl (p.ship.angle * Consts.fp412))) ++ (([p.ship.flags] ++ ([livesByte p.ship] ++ [])) ++
          gunBytes A true p.ship.gun.bullets))))) ++ slack p.ship.gun.bullets := by
  simp [playerTick,playerHeader,viewBytes,shipBytes,shipState,MessageType.toUInt8]

theorem onPlayerTickMessage_shows (c : Globals) {p : Player} (fits : PlayerFits A p) (sessionID ticks : UInt32) :
    ∃ c' offset, onPlayerTickMessage c (playerTick A true p sessionID ticks) 0 = some (c',offset) ∧
      PlayerShown p sessionID ticks c' := by
  have x := number_toUint16 (A := A) fits.posX.1 fits.posX.2
  have y := number_toUint16 (A := A) fits.posY.1 fits.posY.2
  have angle := number_angle fits.angle.1 fits.angle.2.1 fits.angle.2.2
  rw [playerTick_split]
  refine ⟨_,_,Reads.seek ((readView_reads c p sessionID ticks).bind <| (reads_u16 _).bind <| (reads_u16 _).bind <|
    (reads_u16 _).bind <| Reads.notAtEnd ((readFlags_reads _ _).bind (readGun_reads _ fits.few fits.bullets)) (by simp))
    [0xBB,0x07] _ 0,?_⟩
  simp only [move_ship,x,y,angle,viewShown]
  exact {
    sessionID := rfl
    tickCount := rfl
    contextWidth := rfl
    contextHeight := rfl
    contextOffsetX := rfl
    contextOffsetY := rfl
    score := rfl
    phase := rfl
    shipX := rfl
    shipY := rfl
    angle := rfl
    thrusting := rfl
    exploding := rfl
    visible := rfl
    dead := rfl
    lives := livesByte_toNat fits.lives.1 fits.lives.2
    bullets := rfl }

theorem playerTick_roundtrip (A : Arith) (s : Session) (g : Game) (address : Nat) (c : Globals)
    (registered : s.player = some address) (announced : s.isLittleEndian = true)
    (fits : PlayerFits A ((g.memory address).tick A g.gUniverse.toSize)) :
    ∃ txBuff s' g' c' offset, s.tickEvent A g = .ok (s',g') ∧ s'.txQue = s.txQue ++ [txBuff] ∧
      g'.memory address = (g.memory address).tick A g.gUniverse.toSize ∧
      onPlayerTickMessage c txBuff.wire 0 = some (c',offset) ∧
      PlayerShown (g'.memory address) s.sessionID g.gUniverse.ticks c' := by
  obtain ⟨c',offset,decoded,shown⟩ := onPlayerTickMessage_shows c fits s.sessionID g.gUniverse.ticks
  have written : ∀ p, (g.setPlayer address p).memory address = p := fun p => Function.update_self ..
  have ran := sessionTick_built (A := A) registered g
  rw [announced] at ran
  exact ⟨_,_,_,c',offset,ran,rfl,written _,by rw [wire_filled]; exact decoded,by rw [written]; exact shown⟩

def sampleShip : Ship :=
  {(default : Ship) with
    posX := 100, posY := 201 / 2, angle := 3, livesLeft := 2, dead := true, gun := ⟨[.make 10 20 1 1]⟩}

def samplePlayer : Player := {(default : Player) with ship := sampleShip}

def sampleSession (sessionID : UInt32) (player : Option Nat) : Session := ⟨.make sessionID,player⟩

def sampleGame : Game :=
  {starGame [] with
    memory := fun _ => samplePlayer,
    gUniverse := {(starGame []).gUniverse with rockField := RockField.make.pushBack ⟨⟨5 / 2,7⟩,⟨0,0⟩,32⟩}}

theorem sample_player_shown :
    ∃ txBuff s' g' c' offset, (sampleSession 1 (some 0)).tickEvent .upright sampleGame = .ok (s',g') ∧
      s'.txQue = (sampleSession 1 (some 0)).txQue ++ [txBuff] ∧
      g'.memory 0 = (sampleGame.memory 0).tick .upright sampleGame.gUniverse.toSize ∧
      onPlayerTickMessage loaded txBuff.wire 0 = some (c',offset) ∧
      PlayerShown (g'.memory 0) 1 sampleGame.gUniverse.ticks c' := by
  refine playerTick_roundtrip .upright (sampleSession 1 (some 0)) sampleGame 0 loaded rfl rfl ?_
  have same : (sampleGame.memory 0).tick .upright sampleGame.gUniverse.toSize = samplePlayer := rfl
  rw [same]
  refine ⟨?_,?_,?_,?_,?_,?_⟩
  all_goals simp [samplePlayer,sampleShip,Arith.upright,Arith.exact,Bullet.make]
  all_goals norm_num

end PlayerTick

section UniverseTick

def Inside (p : Position) : Prop := (0 ≤ p.posX ∧ p.posX ≤ 8192) ∧ (0 ≤ p.posY ∧ p.posY ≤ 8192)

structure UniverseFits (A : Arith) (g : Game) (ships : List Ship) : Prop where
  sizeW : 0 ≤ g.gUniverse.sizeW ∧ g.gUniverse.sizeW < 65536
  sizeH : 0 ≤ g.gUniverse.sizeH ∧ g.gUniverse.sizeH < 65536
  fewRocks : g.gUniverse.rockField.rocks.length < 65536
  insideRocks : ∀ node ∈ g.gUniverse.rockField.rocks, Inside node.rock.toPosition
  radius : ∀ node ∈ g.gUniverse.rockField.rocks, 0 ≤ node.rock.radius ∧ node.rock.radius < 65536
  fewShips : ships.length < 65536
  insideShips : ∀ s ∈ ships, Inside s.toPosition
  angles : ∀ s ∈ ships, 0 ≤ s.angle ∧ s.angle < 16 ∧ A.fl s.angle = s.angle
  fewBullets : (bulletsOf ships).length < 65536
  insideBullets : ∀ b ∈ bulletsOf ships, Inside b.toPosition

def Legible (b : Bullet) : Prop := (-32769 < b.posX ∧ b.posX < 32768) ∧ (-32769 < b.posY ∧ b.posY < 32768)

theorem Inside.legible {b : Bullet} (inside : Inside b.toPosition) : Legible b := by
  obtain ⟨⟨left,right⟩,top,bottom⟩ := inside
  refine ⟨⟨?_,?_⟩,?_,?_⟩ <;> linarith

structure Readable (A : Arith) (g : Game) (ships : List Ship) : Prop where
  sizeW : 0 ≤ g.gUniverse.sizeW ∧ g.gUniverse.sizeW < 65536
  sizeH : 0 ≤ g.gUniverse.sizeH ∧ g.gUniverse.sizeH < 65536
  fewRocks : g.gUniverse.rockField.rocks.length < 65536
  insideRocks : ∀ node ∈ g.gUniverse.rockField.rocks, Inside node.rock.toPosition
  radius : ∀ node ∈ g.gUniverse.rockField.rocks, 0 ≤ node.rock.radius ∧ node.rock.radius < 65536
  fewShips : ships.length < 65536
  insideShips : ∀ s ∈ ships, Inside s.toPosition
  angles : ∀ s ∈ ships, 0 ≤ s.angle ∧ s.angle < 16 ∧ A.fl s.angle = s.angle
  fewBullets : (bulletsOf ships).length < 65536
  legible : ∀ b ∈ bulletsOf ships, Legible b

theorem UniverseFits.readable {g : Game} {ships : List Ship} (fits : UniverseFits A g ships) : Readable A g ships where
  sizeW := fits.sizeW
  sizeH := fits.sizeH
  fewRocks := fits.fewRocks
  insideRocks := fits.insideRocks
  radius := fits.radius
  fewShips := fits.fewShips
  insideShips := fits.insideShips
  angles := fits.angles
  fewBullets := fits.fewBullets
  legible := fun b member => (fits.insideBullets b member).legible

def rockShown (node : RockNode) : ClientRock :=
  ⟨⟨trunc node.rock.posX,trunc node.rock.posY⟩,trunc node.rock.radius⟩

def shipShown (s : Ship) : OtherShip := ⟨⟨trunc s.posX,trunc s.posY⟩,⌊s.angle * 4096⌋ / 4096⟩

def otherBulletShown (b : Bullet) : OtherBullet := ⟨⟨trunc b.posX,trunc b.posY⟩,2,.red⟩

structure UniverseShown (g : Game) (sessionID : UInt32) (ships : List Ship) (c : Globals) : Prop where
  sessionID : c.sessionID = sessionID
  tickCount : c.tickCount = g.gUniverse.ticks
  universeWidth : number c.universeWidth = trunc g.gUniverse.sizeW
  universeHeight : number c.universeHeight = trunc g.gUniverse.sizeH
  universeRocks : c.universeRocks = g.gUniverse.rockField.rocks.map rockShown
  universeShips : c.universeShips = ships.map shipShown
  universeBullets : c.universeBullets = (bulletsOf ships).map otherBulletShown

theorem readRock_reads {node : RockNode} (inside : Inside node.rock.toPosition)
    (radius : 0 ≤ node.rock.radius ∧ node.rock.radius < 65536) :
    Reads readRock (rockBytes A true node) (rockShown node) := by
  have x := number_toInt16 (A := A) inside.1.1 (by linarith [inside.1.2])
  have y := number_toInt16 (A := A) inside.2.1 (by linarith [inside.2.2])
  have r := number_toUint16 (A := A) radius.1 radius.2
  have all : Reads readRock (be16 (A.toInt16 node.rock.posX).toUInt16 ++ (be16 (A.toInt16 node.rock.posY).toUInt16 ++
      (be16 (A.toUint16 node.rock.radius) ++ [])))
      ⟨⟨number (A.toInt16 node.rock.posX).toUInt16,number (A.toInt16 node.rock.posY).toUInt16⟩,
        number (A.toUint16 node.rock.radius)⟩ :=
    (reads_u16 _).bind <| (reads_u16 _).bind <| (reads_u16 _).bind <| reads_pure _
  rw [x,y,r] at all
  simpa only [rockBytes,rockShown,bytes16_true,List.append_nil,List.append_assoc] using all

theorem readShip_reads {s : Ship} (inside : Inside s.toPosition)
    (angle : 0 ≤ s.angle ∧ s.angle < 16 ∧ A.fl s.angle = s.angle) :
    Reads readShip (otherShipBytes A true s) (shipShown s) := by
  have x := number_toUint16 (A := A) inside.1.1 (by linarith [inside.1.2])
  have y := number_toUint16 (A := A) inside.2.1 (by linarith [inside.2.2])
  have a := number_angle angle.1 angle.2.1 angle.2.2
  have all : Reads readShip (be16 (A.toUint16 s.posX) ++ (be16 (A.toUint16 s.posY) ++
      (be16 (A.toUint16 (A.fl (s.angle * Consts.fp412))) ++ [])))
      ⟨⟨number (A.toUint16 s.posX),number (A.toUint16 s.posY)⟩,
        number (A.toUint16 (A.fl (s.angle * Consts.fp412))) / fp412⟩ :=
    (reads_u16 _).bind <| (reads_u16 _).bind <| (reads_u16 _).bind <| reads_pure _
  rw [x,y,a] at all
  simpa only [otherShipBytes,shipShown,fp412,bytes16_true,List.append_nil,List.append_assoc] using all

theorem readOtherBullet_reads {b : Bullet} (legible : Legible b) :
    Reads readOtherBullet (otherBulletBytes A true b) (otherBulletShown b) := by
  have x := signed_toInt16 (A := A) legible.1.1 legible.1.2
  have y := signed_toInt16 (A := A) legible.2.1 legible.2.2
  have all : Reads readOtherBullet (be16 (A.toInt16 b.posX).toUInt16 ++ (be16 (A.toInt16 b.posY).toUInt16 ++ []))
      ⟨⟨signed (A.toInt16 b.posX).toUInt16,signed (A.toInt16 b.posY).toUInt16⟩,2,.red⟩ :=
    (reads_u16 _).bind <| (reads_u16 _).bind <| reads_pure _
  rw [x,y] at all
  simpa only [otherBulletBytes,otherBulletShown,bytes16_true,List.append_nil,List.append_assoc] using all

-- The sections, from the last one up. A section that is not on the wire leaves the
-- list at what the message's header has set it to.
theorem readBullets_finishes (c : Globals) (none_yet : c.universeBullets = []) {bullets : List Bullet}
    (few : bullets.length < 65536) (legible : ∀ b ∈ bullets, Legible b) :
    Finishes (readBullets c) (otherBulletsBytes A true bullets)
      {c with universeBullets := bullets.map otherBulletShown} := by
  refine Finishes.atEnd ?_
  by_cases empty : bullets = []
  · subst empty
    rw [List.map_nil,← none_yet]
    exact finishes_pure c
  · have loop := reads_many fun b member => readOtherBullet_reads (A := A) (legible b member)
    have some_bullets := mt (count_zero few).mp empty
    have all := loop.bind_finishes (f := fun bullets => pure {c with universeBullets := bullets}) (finishes_pure _)
    rw [otherBulletsBytes,if_neg empty,bytes16_true]
    refine (reads_u16 _).bind_finishes ?_
    rw [if_neg some_bullets,count_read few]
    simpa only [List.append_nil] using all

theorem readShips_finishes (c : Globals) (no_ships : c.universeShips = []) (no_bullets : c.universeBullets = [])
    {ships : List Ship} (few : ships.length < 65536) (inside : ∀ s ∈ ships, Inside s.toPosition)
    (angles : ∀ s ∈ ships, 0 ≤ s.angle ∧ s.angle < 16 ∧ A.fl s.angle = s.angle)
    (fewBullets : (bulletsOf ships).length < 65536) (bullets : ∀ b ∈ bulletsOf ships, Legible b) :
    Finishes (readShips c) (otherShipsBytes A true ships ++ otherBulletsBytes A true (bulletsOf ships))
      {c with universeShips := ships.map shipShown, universeBullets := (bulletsOf ships).map otherBulletShown} := by
  refine Finishes.atEnd ?_
  by_cases empty : ships = []
  · subst empty
    rw [bulletsOf,List.flatMap_nil,List.map_nil,List.map_nil,← no_bullets,← no_ships]
    exact finishes_pure c
  · have loop := reads_many fun s member => readShip_reads (inside s member) (angles s member)
    have some_ships := mt (count_zero few).mp empty
    have rest := readBullets_finishes (A := A) {c with universeShips := ships.map shipShown} no_bullets fewBullets bullets
    rw [otherShipsBytes,if_neg empty,bytes16_true,List.append_assoc]
    refine (reads_u16 _).bind_finishes ?_
    rw [if_neg some_ships,count_read few]
    exact loop.bind_finishes rest

theorem readRocks_readable (c : Globals) (no_ships : c.universeShips = []) (no_bullets : c.universeBullets = [])
    {g : Game} {ships : List Ship} (fits : Readable A g ships) :
    Finishes (readRocks c) (rocksBytes A true g.gUniverse.rockField.rocks ++
      (otherShipsBytes A true ships ++ otherBulletsBytes A true (bulletsOf ships)))
      {c with
        universeRocks := g.gUniverse.rockField.rocks.map rockShown,
        universeShips := ships.map shipShown, universeBullets := (bulletsOf ships).map otherBulletShown} := by
  have loop := reads_many fun node member => readRock_reads (A := A) (fits.insideRocks node member) (fits.radius node member)
  have rest := readShips_finishes (A := A) {c with universeRocks := g.gUniverse.rockField.rocks.map rockShown}
    no_ships no_bullets fits.fewShips fits.insideShips fits.angles fits.fewBullets fits.legible
  refine Finishes.atEnd ?_
  rw [rocksBytes,bytes16_true,List.append_assoc]
  refine (reads_u16 _).bind_finishes ?_
  rw [count_read fits.fewRocks]
  exact loop.bind_finishes rest

theorem readRocks_finishes (c : Globals) (no_ships : c.universeShips = []) (no_bullets : c.universeBullets = [])
    {g : Game} {ships : List Ship} (fits : UniverseFits A g ships) :
    Finishes (readRocks c) (rocksBytes A true g.gUniverse.rockField.rocks ++
      (otherShipsBytes A true ships ++ otherBulletsBytes A true (bulletsOf ships)))
      {c with
        universeRocks := g.gUniverse.rockField.rocks.map rockShown,
        universeShips := ships.map shipShown, universeBullets := (bulletsOf ships).map otherBulletShown} :=
  readRocks_readable c no_ships no_bullets fits.readable

def headerBytes (A : Arith) (g : Game) (sessionID : UInt32) : List UInt8 :=
  be32 sessionID ++ (be32 g.gUniverse.ticks ++ (be16 (A.toUint16 g.gUniverse.sizeW) ++
    (be16 (A.toUint16 g.gUniverse.sizeH) ++ [])))

theorem readUniverse_reads (c : Globals) (g : Game) (sessionID : UInt32) :
    Reads (readUniverse c) (headerBytes A g sessionID)
      {c with
        sessionID := sessionID, tickCount := g.gUniverse.ticks,
        universeWidth := A.toUint16 g.gUniverse.sizeW, universeHeight := A.toUint16 g.gUniverse.sizeH} :=
  (reads_u32 _).bind <| (reads_u32 _).bind <| (reads_u16 _).bind <| (reads_u16 _).bind <| reads_pure _

theorem universeTick_split (g : Game) (sessions : SessionMap) (sessionID : UInt32) :
    universeTick A true g sessions sessionID = [0xBB,0x09] ++ (headerBytes A g sessionID ++
      (rocksBytes A true g.gUniverse.rockField.rocks ++
        (otherShipsBytes A true (otherShips g sessionID sessions.toList) ++
          otherBulletsBytes A true (bulletsOf (otherShips g sessionID sessions.toList))))) := by
  simp [universeTick,universeHeader,headerBytes,MessageType.toUInt8]

theorem flatMap_width {α : Type} (encode : α → List UInt8) (width : Nat) (each : ∀ x, (encode x).length = width)
    (xs : List α) : (xs.flatMap encode).length = width * xs.length := by
  induction xs with
  | nil => rfl
  | cons x xs ih => rw [List.flatMap_cons,List.length_append,each,ih,List.length_cons,Nat.mul_succ,Nat.add_comm]

-- The length of the message: a section without records is not there at all.
def tickLength (rocks : List RockNode) (ships : List Ship) : Nat :=
  14 + (2 + 6 * rocks.length) + (if ships = [] then 0 else 2 + 6 * ships.length) +
    (if bulletsOf ships = [] then 0 else 2 + 4 * (bulletsOf ships).length)

theorem universeTick_length (g : Game) (sessions : SessionMap) (sessionID : UInt32) :
    (universeTick A true g sessions sessionID).length =
      tickLength g.gUniverse.rockField.rocks (otherShips g sessionID sessions.toList) := by
  have rocks := flatMap_width (rockBytes A true) 6 (fun _ => by simp [rockBytes])
  have ships := flatMap_width (otherShipBytes A true) 6 (fun _ => by simp [otherShipBytes])
  have bullets := flatMap_width (otherBulletBytes A true) 4 (fun _ => by simp [otherBulletBytes])
  simp only [universeTick,universeHeader,rocksBytes,otherShipsBytes,otherBulletsBytes,tickLength,List.length_append,
    List.length_singleton,bytes16_length,bytes32_length,rocks,apply_ite List.length,List.length_nil,ships,bullets]

theorem sessions_increasing (sessions : SessionMap) : (sessions.toList.map Prod.fst).Pairwise (· < ·) := by
  rw [Std.TreeMap.map_fst_toList_eq_keys]
  exact Std.TreeMap.ordered_keys.imp fun before => Std.compare_eq_lt.mp before

theorem universeTick_roundtrip (A : Arith) (g : Game) (sessions : SessionMap) (session : Session) (c : Globals)
    (announced : session.isLittleEndian = true) (present : Present sessions.toList)
    (fits : UniverseFits A g (otherShips g session.sessionID sessions.toList)) :
    ∃ txBuff c', g.perSessionTickEvent A sessions session = .ok txBuff ∧
      onUniverseTickMessage c txBuff.wire 0 = some (c',txBuff.wire.length) ∧
      UniverseShown g session.sessionID (otherShips g session.sessionID sessions.toList) c' ∧
      txBuff.wire.length = tickLength g.gUniverse.rockField.rocks (otherShips g session.sessionID sessions.toList) ∧
      (sessions.toList.map Prod.fst).Pairwise (· < ·) := by
  have built : g.perSessionTickEvent A sessions session = _ := universeTick_built g present
  rw [announced] at built
  have length := universeTick_length (A := A) g sessions session.sessionID
  have long : ¬ (universeTick A true g sessions session.sessionID).length < 14 := by
    rw [length,tickLength]; omega
  have decoded := ((readUniverse_reads (A := A) _ g session.sessionID).bind_finishes
    (readRocks_finishes _ rfl rfl fits)).seek (f := fun _ => readUniverse {c with
      universeRocks := [], universeShips := [], universeBullets := []} >>= readRocks) [0xBB,0x09] 0
  rw [← universeTick_split] at decoded
  have guarded : onUniverseTickMessage c (universeTick A true g sessions session.sessionID) 0 = _ :=
    (bind_run _ _ _ _).trans (by simp only [byteLength,Option.bind_some,if_neg long]; exact decoded)
  rw [← wire_filled true (universeTick A true g sessions session.sessionID) 0] at guarded length
  exact ⟨_,_,built,guarded,{
    sessionID := rfl
    tickCount := rfl
    universeWidth := number_toUint16 fits.sizeW.1 fits.sizeW.2
    universeHeight := number_toUint16 fits.sizeH.1 fits.sizeH.2
    universeRocks := rfl
    universeShips := rfl
    universeBullets := rfl },length,sessions_increasing sessions⟩

def sampleSessions : SessionMap :=
  ((∅ : SessionMap).insert 1 (some (sampleSession 1 (some 0)))).insert 2 (some (sampleSession 2 (some 1)))
    |>.insert 3 (some (sampleSession 3 none))

theorem sample_universe_shown :
    ∃ txBuff c', sampleGame.perSessionTickEvent .upright sampleSessions (sampleSession 1 (some 0)) = .ok txBuff ∧
      onUniverseTickMessage loaded txBuff.wire 0 = some (c',txBuff.wire.length) ∧
      UniverseShown sampleGame 1 (otherShips sampleGame 1 sampleSessions.toList) c' ∧
      txBuff.wire.length =
        tickLength sampleGame.gUniverse.rockField.rocks (otherShips sampleGame 1 sampleSessions.toList) ∧
      (sampleSessions.toList.map Prod.fst).Pairwise (· < ·) := by
  have others : otherShips sampleGame 1 sampleSessions.toList = [sampleShip] := by rfl
  refine universeTick_roundtrip .upright sampleGame sampleSessions (sampleSession 1 (some 0)) loaded rfl
    (by unfold Present; decide) ?_
  have same : otherShips sampleGame (sampleSession 1 (some 0)).sessionID sampleSessions.toList = [sampleShip] := others
  rw [same]
  refine ⟨?_,?_,?_,?_,?_,?_,?_,?_,?_,?_⟩
  all_goals simp [sampleGame,starGame,RockField.pushBack,RockField.make,sampleShip,Inside,Arith.upright,Arith.exact,
    Bullet.make,bulletsOf]
  all_goals norm_num

end UniverseTick
end Geoff.RoundTrips
