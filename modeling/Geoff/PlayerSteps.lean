import Geoff.PlayerEvents
import Geoff.Journal
import Geoff.Requests
import Geoff.DeadPlayer

-- A step of the server as the events it has for each player, read off the world and
-- the event before the step.
namespace Geoff
open Collision PlayerEvents Requests

def Session.requested (bytes : List UInt8) (beyond : Nat → UInt8) : Option Extracted :=
  (Session.asked bytes beyond).map fun kind => (decode beyond kind (Session.rxBuffer bytes beyond).buffer).1

def Requests.Extracted.events : Extracted → List PlayerEvent
  | .keyEvent key isDown => [.key key.toNat isDown]
  | .resizeEvent width height => [.resize width height]
  | _ => []

variable (A : Arith)

def detectionEvents (address : Nat) : Game → List (UInt32 × Option Nat) → List PlayerEvent
  | _,[] => []
  | g,pair :: rest =>
    match playerRound A g pair with
    | .error _ => []
    | .ok next =>
      (if pair.2 = some address then
        [.collide g.gUniverse.rockField.rocks ((next.memory address).score - (g.memory address).score)] else []) ++
        detectionEvents address next rest

namespace World

def requestOf (w : World) : Event → Option (Session × List UInt8 × (Nat → UInt8))
  | .onRead conn (.message bytes beyond) =>
    (w.conns[conn]?.bind fun c => w.sessionAt c.sessionID).map (·,bytes,beyond)
  | _ => none

def requestEvents (w : World) (event : Event) (address : Nat) : List PlayerEvent :=
  match w.requestOf event with
  | none => []
  | some (s,bytes,beyond) =>
    if s.player = some address then ((Session.requested bytes beyond).map Extracted.events).getD [] else []

def owned (w : World) (address : Nat) : Bool :=
  w.gSessions.sessions.keys.any fun id => decide (w.playerOf id = some address)

def tickEvents (w : World) (address : Nat) : List PlayerEvent := if w.owned address then [.tick] else []

def eventsOf (w : World) (event : Event) (address : Nat) : List PlayerEvent :=
  match event with
  | .tick =>
    if w.game.gUniverse.timer.runTimer then
      detectionEvents A address (w.game.moveRocks A w.game.gUniverse.timer.tick) w.game.gUniverse.players.toList ++
        w.tickEvents address
    else []
  | _ => w.requestEvents event address

end World

variable {A}

theorem commsHandler_requested {s s' : Session} {g g' : Game} {bytes : List UInt8} {beyond : Nat → UInt8}
    (ran : (s.commsHandler A g bytes beyond).1 = .ok (s',g')) :
    (Session.requested bytes beyond = none ∧ g' = g) ∨ ∃ x le, Session.requested bytes beyond = some x ∧
      act A (s.setLittleEndian le) g le x = .ok (s',g') := by
  cases known : Session.asked bytes beyond with
  | some kind =>
    rw [commsHandler_decoded A s g known] at ran
    exact .inr ⟨_,_,by rw [Session.requested,known]; rfl,ran⟩
  | none =>
    refine .inl ⟨by rw [Session.requested,known]; rfl,?_⟩
    unfold Session.asked at known
    unfold Session.commsHandler at ran
    split at known
    · rename_i short
      rw [if_pos short] at ran
      cases ran
      rfl
    · rename_i long
      rw [if_neg long] at ran
      dsimp only at ran
      rw [Session.dispatch_unknown A known] at ran
      cases ran
      rfl

theorem act_plays {s s' : Session} {g g' : Game} {le : Bool} {x : Extracted} (ran : act A s g le x = .ok (s',g'))
    {address : Nat} (old : address < g.allocated) : g'.memory address =
      plays A g.gUniverse.toSize (g.memory address) (if s.player = some address then x.events else []) := by
  have kept : g'.memory address = g.memory address → x.events = [] ∨ s.player ≠ some address → g'.memory address =
      plays A g.gUniverse.toSize (g.memory address) (if s.player = some address then x.events else []) := by
    rintro same (none | other)
    · rw [same,none,ite_self]
      rfl
    · rw [same,if_neg other]
      rfl
  have written : ∀ {own : Nat} (event : PlayerEvent), s.player = some own → x.events = [event] →
      g' = g.setPlayer own (play A g.gUniverse.toSize (g.memory own) event) → g'.memory address =
        plays A g.gUniverse.toSize (g.memory address) (if s.player = some address then x.events else []) := by
    intro own event known single result
    by_cases here : address = own
    · rw [if_pos (by rw [known,here]),single,result,here,Game.setPlayer_self]
      rfl
    · refine kept (by rw [result,Game.setPlayer_other here]) (.inr fun same => here ?_)
      exact Option.some.inj (same.symm.trans known)
  cases x with
  | registerSession w h =>
    rw [act,Messages.register_built] at ran
    cases ran
    exact kept (Game.newPlayer_other A (by omega) ..) (.inl rfl)
  | clickEvent clickX clickY =>
    simp only [act] at ran
    split at ran
    · cases ran; exact kept rfl (.inl rfl)
    · cases ran; exact kept rfl (.inl rfl)
  | keyEvent key isDown =>
    simp only [act] at ran
    split at ran
    · rename_i free
      cases ran
      exact kept rfl (.inr (by rw [free]; simp))
    · rename_i own known
      cases ran
      exact written (.key key.toNat isDown) known rfl rfl
  | resizeEvent width height =>
    simp only [act] at ran
    split at ran
    · rename_i free
      cases ran
      exact kept rfl (.inr (by rw [free]; simp))
    · rename_i own known
      cases ran
      exact written (.resize width height) known rfl rfl

theorem act_made {s s' : Session} {g g' : Game} {le : Bool} {x : Extracted} (ran : act A s g le x = .ok (s',g')) :
    (∃ w h, x = .registerSession w h ∧ g' = g.newPlayer A s.sessionID w h) ∨ g'.allocated = g.allocated := by
  cases x with
  | registerSession w h =>
    rw [act,Messages.register_built] at ran
    cases ran
    exact .inl ⟨w,h,rfl,rfl⟩
  | clickEvent clickX clickY =>
    simp only [act] at ran
    split at ran
    · cases ran; exact .inr rfl
    · cases ran; exact .inr rfl
  | keyEvent key isDown =>
    simp only [act] at ran
    split at ran
    · cases ran; exact .inr rfl
    · cases ran; exact .inr rfl
  | resizeEvent width height =>
    simp only [act] at ran
    split at ran
    · cases ran; exact .inr rfl
    · cases ran; exact .inr rfl

theorem playerRound_plays {g g' : Game} {pair : UInt32 × Option Nat} (ran : playerRound A g pair = .ok g') (u : Size)
    (address : Nat) : g'.memory address = plays A u (g.memory address) (if pair.2 = some address then
      [.collide g.gUniverse.rockField.rocks ((g'.memory address).score - (g.memory address).score)] else []) := by
  obtain ⟨id,_ | own⟩ := pair
  · rw [playerRound_null ran]
    rfl
  · by_cases here : own = address
    · subst here
      obtain ⟨score,total⟩ := scoreRocks_score ran
      rw [scan,Game.setPlayer_self] at total
      have gained : (g'.memory own).score - (g.memory own).score = score := by rw [total]; simp
      rw [if_pos rfl,gained,total]
      rfl
    · rw [if_neg (by simpa using here)]
      exact (playerRound_charged ran).others address fun same => here same.symm

theorem detection_plays {g g' : Game} {pairs : List (UInt32 × Option Nat)} (ran : pairs.foldlM (playerRound A) g = .ok g')
    (u : Size) (address : Nat) : g'.memory address = plays A u (g.memory address) (detectionEvents A address g pairs) := by
  induction pairs generalizing g with
  | nil => cases ran; rfl
  | cons pair rest ih =>
    obtain ⟨next,one,ran⟩ := Runs.bind_ok.mp ran
    have later := ih ran
    rw [playerRound_plays one u address,← plays_append] at later
    rw [later]
    simp only [detectionEvents,one]

theorem detection_rounds (address : Nat) (g : Game) (pairs : List (UInt32 × Option Nat)) :
    ∀ event ∈ detectionEvents A address g pairs, ∃ rocks score, event = .collide rocks score := by
  induction pairs generalizing g with
  | nil => exact fun _ member => absurd member List.not_mem_nil
  | cons pair rest ih =>
    intro event member
    simp only [detectionEvents] at member
    split at member
    · exact absurd member List.not_mem_nil
    · rename_i next _
      rcases List.mem_append.mp member with here | later
      · split at here
        · exact ⟨_,_,List.mem_singleton.mp here⟩
        · exact absurd here List.not_mem_nil
      · exact ih next event later

namespace World
variable {w t : World} {event : Event}

theorem timerRound_plays {id : UInt32} (ran : w.timerRound A id = .ok t) (address : Nat) : t.game.memory address =
    plays A w.game.gUniverse.toSize (w.game.memory address) (if w.playerOf id = some address then [.tick] else []) := by
  by_cases own : w.playerOf id = some address
  · rw [if_pos own]
    obtain ⟨session,found,known⟩ := playerOf_some.mp own
    simp only [timerRound,found] at ran
    rw [Messages.sessionTick_built known] at ran
    obtain ⟨game_same,_⟩ := onTxReady_game ran
    rw [game_same]
    exact Game.setPlayer_self ..
  · rw [if_neg own]
    exact (timerRound_players ran).2.2 address own

theorem timer_plays {keys : List UInt32} (ran : keys.foldlM (timerRound A) w = .ok t) (address : Nat) :
    t.game.memory address = plays A w.game.gUniverse.toSize (w.game.memory address)
      (keys.flatMap fun id => if w.playerOf id = some address then [.tick] else []) := by
  induction keys generalizing w with
  | nil => cases ran; rfl
  | cons id rest ih =>
    obtain ⟨next,one,ran⟩ := Runs.bind_ok.mp ran
    obtain ⟨players,still,_⟩ := timerRound_players one
    have later := ih ran
    rw [timerRound_plays one address,players,still,← plays_append] at later
    rw [later,List.flatMap_cons]

theorem owned_iff {address : Nat} : w.owned address = true ↔ ∃ id, w.playerOf id = some address := by
  simp only [owned,List.any_eq_true,decide_eq_true_eq]
  constructor
  · rintro ⟨id,_,player⟩
    exact ⟨id,player⟩
  · rintro ⟨id,player⟩
    exact ⟨id,playerOf_key (by rw [show Geoff.playerOf w.gSessions.sessions id = some address from player]; simp),player⟩

-- No player is held by two sessions, so the loop over the sessions ticks each at most once.
theorem tick_once (keys : List UInt32) (distinct : keys.Nodup) (listed : ∀ id, w.playerOf id ≠ none → id ∈ keys)
    (apart : ∀ id other address, w.playerOf id = some address → w.playerOf other = some address → id = other)
    (address : Nat) : (keys.flatMap fun id => if w.playerOf id = some address then [.tick] else []) =
      w.tickEvents address := by
  unfold tickEvents
  by_cases own : ∃ id, w.playerOf id = some address
  · obtain ⟨id,player⟩ := own
    rw [if_pos (owned_iff.mpr ⟨id,player⟩)]
    obtain ⟨before,after,rfl⟩ := List.append_of_mem (listed id (by rw [player]; simp))
    obtain ⟨fresh,_⟩ := List.nodup_cons.mp (List.nodup_middle.mp distinct)
    have idle : ∀ part : List UInt32, (∀ other ∈ part, other ∈ before ++ after) →
        (part.flatMap fun id => if w.playerOf id = some address then [PlayerEvent.tick] else []) = [] := by
      intro part inside
      refine List.flatMap_eq_nil_iff.mpr fun other member => if_neg fun same => fresh ?_
      rw [apart id other address player same]
      exact inside other member
    rw [List.flatMap_append,List.flatMap_cons,if_pos player,idle before (fun _ member => List.mem_append_left _ member),
      idle after (fun _ member => List.mem_append_right _ member)]
    rfl
  · rw [if_neg fun held => own (owned_iff.mp held)]
    exact List.flatMap_eq_nil_iff.mpr fun id _ => if_neg fun player => own ⟨id,player⟩

theorem book_apart (book : DeadPlayer.Book w) (id other : UInt32) (address : Nat) (first : w.playerOf id = some address)
    (second : w.playerOf other = some address) : id = other :=
  book.distinct id other address (book.own id address first) (book.own other address second)

theorem tick_plays (book : DeadPlayer.Book w) (running : w.game.gUniverse.timer.runTimer = true)
    (ran : w.tickEvent A = .ok t) (address : Nat) : t.game.memory address =
      plays A w.game.gUniverse.toSize (w.game.memory address) (w.eventsOf A .tick address) := by
  rw [tickEvent,if_neg (by simp [running])] at ran
  obtain ⟨⟨game,sessions⟩,ticked,ran⟩ := Runs.bind_ok.mp ran
  have players := gameTick_players ticked
  have detected := detection_plays (gameTick_ok ticked) w.game.gUniverse.toSize address
  have timed := timer_plays ran address
  have held : ({w with game := game, gSessions := {w.gSessions with sessions := sessions}} : World).playerOf = w.playerOf :=
    players
  have once := tick_once (w := w) sessions.keys Std.TreeMap.nodup_keys
    (fun id registered => playerOf_key (by rw [players]; exact registered)) (book_apart book) address
  dsimp only at timed
  rw [held,(gameTick_rounds ticked).size,once,detected,← plays_append] at timed
  rw [timed]
  simp only [eventsOf,running,if_true]
  rfl

theorem step_request (ran : w.step A event = .ok t) (other : event ≠ .tick) :
    (w.requestOf event = none ∧ t.game = w.game) ∨ ∃ s s' bytes beyond, w.requestOf event = some (s,bytes,beyond) ∧
      (s.commsHandler A w.game bytes beyond).1 = .ok (s',t.game) := by
  cases step_handled ran with
  | tick ticked => exact absurd rfl other
  | accept accepted =>
    rw [onAccept_ok] at accepted
    cases accepted
    exact .inl ⟨rfl,rfl⟩
  | closed => exact .inl ⟨rfl,rfl⟩
  | failed => exact .inl ⟨rfl,rfl⟩
  | unwritten => exact .inl ⟨rfl,rfl⟩
  | @written conn c => exact .inl ⟨rfl,(sendNext_players w conn c.writeDone).1⟩
  | @posted conn c session _ _ _ found =>
    exact .inl ⟨rfl,(sendFrom_players conn (c := {c with posted := c.posted - 1}) (callbackSession_found found)).1⟩
  | @message conn c bytes beyond handled member _ answered =>
    rw [(sendNext_players handled conn c).1]
    cases found : w.gSessions.sessions[c.sessionID]? with
    | none =>
      simp only [commsHandler,WebsockSessionManager.findById_absent found] at answered
      cases answered
      exact .inl ⟨by simp [requestOf,member,sessionAt,entry,found],rfl⟩
    | some v =>
      simp only [commsHandler,WebsockSessionManager.findById_found found] at answered
      cases v with
      | none =>
        cases answered
        exact .inl ⟨by simp [requestOf,member,sessionAt,entry,found],rfl⟩
      | some session =>
        obtain ⟨⟨session',game⟩,done,result⟩ := Runs.bind_ok.mp answered
        cases result
        exact .inr ⟨session,session',bytes,beyond,by simp [requestOf,member,sessionAt,entry,found],done⟩

theorem eventsOf_request (other : event ≠ .tick) (address : Nat) :
    w.eventsOf A event address = w.requestEvents event address := by
  cases event with
  | tick => exact absurd rfl other
  | _ => rfl

theorem requestEvents_member {address : Nat} {played : PlayerEvent} (member : played ∈ w.requestEvents event address) :
    ∃ s bytes beyond x, w.requestOf event = some (s,bytes,beyond) ∧ s.player = some address ∧
      Session.requested bytes beyond = some x ∧ played ∈ x.events := by
  unfold requestEvents at member
  split at member
  · exact absurd member List.not_mem_nil
  · rename_i s bytes beyond asked
    split at member
    · rename_i own
      cases known : Session.requested bytes beyond with
      | none =>
        rw [known] at member
        exact absurd member List.not_mem_nil
      | some x =>
        rw [known] at member
        exact ⟨s,bytes,beyond,x,asked,own,known,member⟩
    · exact absurd member List.not_mem_nil

theorem request_untimed (w : World) (event : Event) (address : Nat) :
    ∀ played ∈ w.requestEvents event address, played ≠ .tick := by
  intro played member
  obtain ⟨s,bytes,beyond,x,_,_,_,inside⟩ := requestEvents_member member
  cases x with
  | keyEvent key isDown =>
    rw [List.mem_singleton.mp inside]
    exact PlayerEvent.noConfusion
  | resizeEvent width height =>
    rw [List.mem_singleton.mp inside]
    exact PlayerEvent.noConfusion
  | registerSession width height => exact absurd inside List.not_mem_nil
  | clickEvent clickX clickY => exact absurd inside List.not_mem_nil

theorem step_plays (book : DeadPlayer.Book w) (ran : w.step A event = .ok t) {address : Nat}
    (old : address < w.game.allocated) : t.game.memory address =
      plays A w.game.gUniverse.toSize (w.game.memory address) (w.eventsOf A event address) := by
  by_cases tick : event = .tick
  · subst tick
    cases running : w.game.gUniverse.timer.runTimer with
    | true => exact tick_plays book running ran address
    | false =>
      rw [tickEvent_stopped running ran]
      simp [eventsOf,running,plays]
  · rw [eventsOf_request tick]
    rcases step_request ran tick with ⟨unasked,same⟩ | ⟨s,s',bytes,beyond,asked,done⟩
    · simp [requestEvents,unasked,same,plays]
    · simp only [requestEvents,asked]
      rcases commsHandler_requested done with ⟨unknown,same⟩ | ⟨x,le,known,acted⟩
      · simp [unknown,same,plays]
      · have played := act_plays acted old
        rw [known]
        exact played

end World
end Geoff
