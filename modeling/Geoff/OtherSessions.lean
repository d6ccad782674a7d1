import Geoff.Company

-- A message received on a connection acts for the session of that connection alone,
-- whatever session id it carries.
namespace Geoff.OtherSessions
open World PlayerStore DeadPlayer

variable {A : Arith} {w t : World}

-- What the message on connection `conn` of the session `own` leaves as it is: the other
-- sessions, their players and connections, and the universe but for a rock at the end
-- of the field.
structure Frame (conn : Nat) (own : UInt32) (w t : World) : Prop where
  sessions : ∀ id, id ≠ own → t.entry id = w.entry id
  held : ∀ id, id ≠ own → ∀ address, w.playerOf id = some address → t.game.memory address = w.game.memory address
  book : ∀ id, id ≠ own → (players t)[id]? = (players w)[id]?
  objects : ∀ id, id ≠ own → ∀ address, (players w)[id]? = some (some address) →
    t.game.memory address = w.game.memory address
  conns : ∀ other, other ≠ conn → t.conns[other]? = w.conns[other]?
  next : t.gSessions.sessionId = w.gSessions.sessionId
  rocks : t.game.gUniverse.rockField.rocks = w.game.gUniverse.rockField.rocks ∨
    ∃ node, t.game.gUniverse.rockField.rocks = w.game.gUniverse.rockField.rocks ++ [node]
  universal : t.game.gUniverse.fixed = w.game.gUniverse.fixed
  destroyed : t.game.destroyed = w.game.destroyed

theorem commsHandler_kept {id : UInt32} {bytes : List UInt8} {beyond : Nat → UInt8}
    (ran : w.commsHandler A id bytes beyond = .ok t) :
    t.conns = w.conns ∧ t.gSessions.sessionId = w.gSessions.sessionId := by
  cases found : w.gSessions.sessions[id]? with
  | none =>
    simp only [commsHandler,WebsockSessionManager.findById_absent found] at ran
    cases ran
    exact ⟨rfl,rfl⟩
  | some v =>
    simp only [commsHandler,WebsockSessionManager.findById_found found] at ran
    cases v with
    | none => cases ran; exact ⟨rfl,rfl⟩
    | some session =>
      obtain ⟨_,_,result⟩ := Runs.bind_ok.mp ran
      cases result
      exact ⟨rfl,rfl⟩

theorem commsHandler_total (A : Arith) (w : World) (id : UInt32) (bytes : List UInt8) (beyond : Nat → UInt8) :
    ∃ t, w.commsHandler A id bytes beyond = .ok t := by
  cases found : w.gSessions.sessions[id]? with
  | none =>
    simp only [commsHandler,WebsockSessionManager.findById_absent found]
    exact ⟨_,rfl⟩
  | some v =>
    simp only [commsHandler,WebsockSessionManager.findById_found found]
    cases v with
    | none => exact ⟨_,rfl⟩
    | some session =>
      obtain ⟨game,answer⟩ := Session.commsHandler_answered A session w.game bytes beyond
      simp only [answer]
      exact ⟨_,rfl⟩

theorem sendNext_kept (w : World) (conn : Nat) (c : WebsocketSession AppBuffer) :
    (w.sendNext conn c).gSessions.sessionId = w.gSessions.sessionId ∧
      ∀ other, other ≠ conn → (w.sendNext conn c).conns[other]? = w.conns[other]? := by
  cases found : w.gSessions.sessions[c.sessionID]? with
  | none =>
    simp only [sendNext,WebsockSessionManager.findById_absent found]
    exact ⟨rfl,fun other differs => List.getElem?_set_ne (Ne.symm differs)⟩
  | some v =>
    simp only [sendNext,WebsockSessionManager.findById_found found]
    cases v with
    | none => exact ⟨rfl,fun other differs => List.getElem?_set_ne (Ne.symm differs)⟩
    | some session => exact ⟨rfl,fun other differs => List.getElem?_set_ne (Ne.symm differs)⟩

structure GameFrame (own : UInt32) (w : World) (g : Game) : Prop where
  book : ∀ id, id ≠ own → g.gUniverse.players[id]? = (players w)[id]?
  objects : ∀ id, id ≠ own → ∀ address, (players w)[id]? = some (some address) →
    g.memory address = w.game.memory address
  rocks : g.gUniverse.rockField.rocks = w.game.gUniverse.rockField.rocks ∨
    ∃ node, g.gUniverse.rockField.rocks = w.game.gUniverse.rockField.rocks ++ [node]
  universal : g.gUniverse.fixed = w.game.gUniverse.fixed
  destroyed : g.destroyed = w.game.destroyed

theorem effect_frame {own : UInt32} {s : Session} {g : Game} {asked : Option RequestType} {down : Bool} {player : Option Nat}
    (book : Book w) (id_same : s.sessionID = own) (mine : ∀ address, s.player = some address → w.playerOf own = some address)
    (effect : Effect A s w.game asked down player g) : GameFrame own w g := by
  -- the object written to is that of the session's own entry of the book
  have apart : ∀ {written : Nat} (p : Player), s.player = some written → ∀ id, id ≠ own → ∀ address,
      (players w)[id]? = some (some address) → (w.game.setPlayer written p).memory address = w.game.memory address := by
    intro written p held id differs address known
    refine Game.setPlayer_other (fun same => differs ?_) _ _
    subst same
    exact book.distinct id own address known (book.own own address (mine address held))
  cases effect with
  | idle => exact ⟨fun _ _ => rfl,fun _ _ _ _ => rfl,.inl rfl,rfl,rfl⟩
  | register type w' h =>
    refine ⟨fun id differs => ?_,fun id differs address known => ?_,.inl rfl,rfl,rfl⟩
    · rw [Game.newPlayer,Std.TreeMap.getElem?_insert,if_neg (by simpa [id_same] using Ne.symm differs)]
      rfl
    · obtain ⟨_,same,bound⟩ := book.issued id _ known
      cases same
      exact Game.newPlayer_other A (by omega) _ _ _
  | key type known code => exact ⟨fun _ _ => rfl,apart _ known,.inl rfl,rfl,rfl⟩
  | click p => exact ⟨fun _ _ => rfl,fun _ _ _ _ => rfl,.inr ⟨_,rfl⟩,rfl,rfl⟩
  | resize known w' h => exact ⟨fun _ _ => rfl,apart _ known,.inl rfl,rfl,rfl⟩

theorem message_game {conn : Nat} {c : WebsocketSession AppBuffer} {bytes : List UInt8} {beyond : Nat → UInt8}
    (owned : w.Owned) (book : Book w) (member : w.conns[conn]? = some c)
    (ran : w.step A (.onRead conn (.message bytes beyond)) = .ok t) : GameFrame c.sessionID w t.game := by
  cases step_turn ran with
  | quiet _ game _ =>
    rw [game]
    exact ⟨fun _ _ => rfl,fun _ _ _ _ => rfl,.inl rfl,rfl,rfl⟩
  | request here found effect _ =>
    cases member.symm.trans here
    exact effect_frame book (session_id owned found) (fun address held => (playerOf_found found).trans held) effect

theorem message_frame (A : Arith) (rand : Rand) (events : List Event) (w : World) (conn : Nat)
    (c : WebsocketSession AppBuffer) (ran : Runs.run (step A) (World.make A rand) events = .ok w)
    (member : w.conns[conn]? = some c) (reading : c.reading = true) (bytes : List UInt8) (beyond : Nat → UInt8) :
    ∃ t, w.step A (.onRead conn (.message bytes beyond)) = .ok t ∧ Frame conn c.sessionID w t := by
  obtain ⟨owned,book⟩ := book_run ran
  obtain ⟨handled,answered⟩ := commsHandler_total A w c.sessionID bytes beyond
  have one : w.step A (.onRead conn (.message bytes beyond)) = .ok (handled.sendNext conn c) := by
    simp only [step,member,reading,if_true,onRead,answered]
    rfl
  have game := message_game owned book member one
  have written := (commsHandler_rewrites answered).trans (sendNext_rewrites handled conn c)
  obtain ⟨conns,next⟩ := commsHandler_kept answered
  obtain ⟨next_same,others⟩ := sendNext_kept handled conn c
  refine ⟨_,one,written.others,fun id differs address held => ?_,game.book,game.objects,fun other differs => ?_,
    next_same.trans next,game.rocks,game.universal,game.destroyed⟩
  · exact game.objects id differs address (book.own id address held)
  · rw [others other differs,conns]

-- A click of the first of two players with the session id of the second in it.
theorem forged_click_framed : ∃ w t, Runs.run (step .upright) (World.make .upright .zeros) (Company.joins 0 ++ Company.joins 1) =
      .ok w ∧ w.playerOf 0 = some 0 ∧ w.playerOf 1 = some 1 ∧
    w.step .upright (.onRead 0 (.message [0xAB,0x02,0,0,0,1,1,144,1,44] fun _ => 0)) = .ok t ∧ Frame 0 0 w t := by
  obtain ⟨w,pair⟩ := Company.paired .upright .zeros
  obtain ⟨⟨c,member,own,reading⟩,s,found,_,held,_⟩ := pair.first
  obtain ⟨_,other,found',_,held',_⟩ := pair.second
  obtain ⟨t,one,frame⟩ := message_frame .upright .zeros _ w 0 c pair.run member reading
    [0xAB,0x02,0,0,0,1,1,144,1,44] fun _ => 0
  rw [own] at frame
  exact ⟨w,t,pair.run,(playerOf_found found).trans held,(playerOf_found found').trans held',one,frame⟩

end Geoff.OtherSessions
