import Geoff.Journal
import Mathlib.Computability.Language

-- The types of the messages committed to the queue of a session, in their order: a
-- word of a language that only registrations and ticks extend.
namespace Geoff.OutgoingStream
open World
open scoped Computability

def ofUInt8 (b : UInt8) : Option MessageType :=
  if b = 0x01 then some .sessionRegistered
  else if b = 0x05 then some .keyMessage
  else if b = 0x03 then some .clickMessage
  else if b = 0x07 then some .playerTickMessage
  else if b = 0x09 then some .universeTickMessage
  else none

def kindOf (b : AppBuffer) : Option MessageType :=
  match b.wire with
  | header :: messageType :: _ => if header = 0xBB then ofUInt8 messageType else none
  | _ => none

abbrev Word := List (Option MessageType)

def registration : Word := [some .sessionRegistered]
def tickPair : Word := [some .universeTickMessage,some .playerTickMessage]

def grammar : Language (Option MessageType) := ({registration} + {tickPair})∗

def kinds (j : Journal) (id : UInt32) : Word := (j.records id).committed.map kindOf

def due (w : World) (sent : Word) (event : Event) (id : UInt32) : Word :=
  match w.sessionAt id with
  | none => []
  | some _ =>
    match event,w.messageFor event id with
    | .tick,_ => if some .sessionRegistered ∈ sent then tickPair else []
    | _,some (bytes,beyond) => if Session.asked bytes beyond = some .registerSession then registration else []
    | _,none => []

structure Grammatical (A : Arith) (j : Journal) : Prop where
  word : ∀ id, kinds j id ∈ grammar ∧ (kinds j id).head? ≠ some (some .universeTickMessage)
  extended : ∀ event next, j.step A event = .ok next → ∀ id, kinds next id =
    if id ∈ (j.world.storeOp event).opened then [] else kinds j id ++ due j.world (kinds j id) event id

variable {A : Arith}

theorem kind_registered (s : Session) (g : Game) (le : Bool) :
    kindOf (s.registeredBuffer A g le) = some .sessionRegistered := by
  simp [kindOf,Session.registeredBuffer,Messages.sessionRegistered,MessageType.toUInt8,ofUInt8]

theorem kind_universe {g : Game} {s : Session} {txBuff : AppBuffer} (built : UniverseMessage A g s txBuff) :
    kindOf txBuff = some .universeTickMessage := by
  obtain ⟨m,rfl⟩ := built
  simp [kindOf,Messages.universeTick,Messages.universeHeader,MessageType.toUInt8,ofUInt8]

theorem kind_player {ticks : UInt32} {s : Session} {txBuff : AppBuffer} (built : PlayerMessage A ticks s txBuff) :
    kindOf txBuff = some .playerTickMessage := by
  obtain ⟨p,rfl⟩ := built
  simp [kindOf,Messages.playerTick,Messages.playerHeader,MessageType.toUInt8,ofUInt8]

theorem grammar_append {sent block : Word} (word : sent ∈ grammar) (either : block = registration ∨ block = tickPair) :
    sent ++ block ∈ grammar := by
  rw [grammar,← Language.one_add_kstar_mul_self_eq_kstar]
  exact Or.inr (Language.append_mem_mul word either)

-- What carries the grammar over a run: a session has its player exactly from the first
-- registration in its stream on.
structure Kept (j : Journal) : Prop where
  running : j.world.game.gUniverse.timer.runTimer = true
  word : ∀ id, kinds j id ∈ grammar ∧ (kinds j id).head? ≠ some (some .universeTickMessage)
  players : ∀ id s, j.world.sessionAt id = some s → (s.player ≠ none ↔ some .sessionRegistered ∈ kinds j id)

theorem messageFor_read {w : World} {event : Event} {id : UInt32} {message : List UInt8 × (Nat → UInt8)}
    (asked : w.messageFor event id = some message) : ∃ conn, event = .onRead conn (.message message.1 message.2) := by
  unfold messageFor at asked
  split at asked
  · rename_i conn bytes beyond
    split at asked
    · split at asked
      · cases asked; exact ⟨conn,rfl⟩
      · cases asked
    · cases asked
  · cases asked

theorem due_absent {w : World} {id : UInt32} (absent : w.sessionAt id = none) (sent : Word) (event : Event) :
    due w sent event id = [] := by
  simp only [due,absent]

theorem due_message {w : World} {event : Event} {id : UInt32} {s : Session} {bytes : List UInt8} {beyond : Nat → UInt8}
    (found : w.sessionAt id = some s) (asked : w.messageFor event id = some (bytes,beyond)) (sent : Word) :
    due w sent event id = if Session.asked bytes beyond = some .registerSession then registration else [] := by
  obtain ⟨conn,rfl⟩ := messageFor_read asked
  simp only [due,found,asked]

theorem due_tick {w : World} {id : UInt32} {s : Session} (found : w.sessionAt id = some s) (sent : Word) :
    due w sent .tick id = if some .sessionRegistered ∈ sent then tickPair else [] := by
  simp only [due,found]

theorem due_other {w : World} {event : Event} {id : UInt32} (unasked : w.messageFor event id = none)
    (between : event ≠ .tick) (sent : Word) : due w sent event id = [] := by
  unfold due
  split
  · rfl
  · split
    · exact absurd rfl between
    · rename_i asked; rw [unasked] at asked; cases asked
    · rfl

theorem commits_due {j : Journal} {t : World} {event : Event} (kept : Kept j) (ran : j.world.step A event = .ok t)
    (id : UInt32) : (j.world.commits A event t id).map kindOf = due j.world (kinds j id) event id := by
  have law := step_commits ran id
  generalize j.world.commits A event t id = committed at law ⊢
  cases law with
  | registered found asked register =>
    rw [due_message found asked,if_pos register,List.map_singleton,kind_registered]
    rfl
  | ticked found now _ registered _ universal own =>
    subst now
    rw [due_tick found,if_pos ((kept.players id _ found).mp registered),List.map_cons,List.map_singleton,
      kind_universe universal,kind_player own]
    rfl
  | nothing unregistering untimely =>
    cases found : j.world.sessionAt id with
    | none => rw [due_absent found]; rfl
    | some s =>
      by_cases tick : event = .tick
      · have unregistered := untimely tick kept.running s found
        have absent : some .sessionRegistered ∉ kinds j id := fun member => (kept.players id s found).mpr member unregistered
        rw [tick,due_tick found,if_neg absent]
        rfl
      · cases asked : j.world.messageFor event id with
        | none => rw [due_other asked tick]; rfl
        | some message =>
          obtain ⟨bytes,beyond⟩ := message
          rw [due_message found asked,if_neg (unregistering s bytes beyond found asked)]
          rfl

theorem step_kinds {j next : Journal} {event : Event} (kept : Kept j) (ran : j.step A event = .ok next) (id : UInt32) :
    kinds next id =
      if id ∈ (j.world.storeOp event).opened then [] else kinds j id ++ due j.world (kinds j id) event id := by
  by_cases opened : id ∈ (j.world.storeOp event).opened
  · rw [if_pos opened,kinds,Journal.step_opened ran opened]
    rfl
  · rw [if_neg opened,kinds,Journal.step_kept ran opened,List.map_append,commits_due kept (Journal.step_ok.mp ran).1]
    rfl

theorem word_extended {w : World} {sent : Word} (event : Event) (id : UInt32)
    (word : sent ∈ grammar ∧ sent.head? ≠ some (some .universeTickMessage)) :
    sent ++ due w sent event id ∈ grammar ∧
      (sent ++ due w sent event id).head? ≠ some (some .universeTickMessage) := by
  unfold due
  split
  · simpa using word
  · split
    · split
      · rename_i registered
        refine ⟨grammar_append word.1 (.inr rfl),?_⟩
        cases sent with
        | nil => cases registered
        | cons first rest => exact word.2
      · simpa using word
    · split
      · refine ⟨grammar_append word.1 (.inl rfl),?_⟩
        cases sent with
        | nil => simp [registration]
        | cons first rest => exact word.2
      · simpa using word
    · simpa using word

theorem step_registered {j next : Journal} {event : Event} (kept : Kept j) (ran : j.step A event = .ok next) {id : UInt32}
    {s' : Session} (held : next.world.sessionAt id = some s') :
    s'.player ≠ none ↔ some .sessionRegistered ∈ kinds next id := by
  rw [step_kinds kept ran]
  cases step_origin (Journal.step_ok.mp ran).1 held with
  | accepted new own =>
    subst new
    simp [storeOp,StoreOp.opened,own,acceptedSession]
  | @waited s found unasked between old queue =>
    have none_due : due j.world (kinds j id) event id = [] := by
      refine due_other unasked (fun tick => ?_) _
      simp [kept.running] at between
      exact between tick
    rw [if_neg (not_opened old),none_due,List.append_nil]
    exact kept.players id s (sessionAt_some.mpr found)
  | @answered s found bytes beyond asked queue =>
    have known := kept.players id s (sessionAt_some.mpr found)
    have other : event ≠ .accept := by
      obtain ⟨conn,rfl⟩ := messageFor_read asked
      simp
    rw [if_neg (not_opened fun accept => absurd accept other),due_message (sessionAt_some.mpr found) asked]
    have answered : (s.answered A j.world.game bytes beyond).player ≠ none ↔ _ := Session.answered_player A s _ bytes beyond
    refine answered.trans ?_
    rw [known,List.mem_append]
    split <;> simp_all [registration]
  | @ticked s s' found now running tick =>
    subst now
    have known := kept.players id s (sessionAt_some.mpr found)
    have same : s'.player = s.player := by
      by_cases registered : s.player = none
      · rw [tick.unregistered registered]
      · obtain ⟨g,first,second,_,_,_,rfl⟩ := tick.registered registered
        rfl
    rw [if_neg (not_opened fun accept => (by cases accept)),due_tick (sessionAt_some.mpr found),same,known,List.mem_append]
    split <;> simp_all [tickPair]

theorem kept_make (A : Arith) (rand : Rand) : Kept (.make A rand) := by
  refine ⟨?_,fun id => ⟨Language.nil_mem_kstar _,by simp [kinds,Journal.make,Record.empty]⟩,fun id s held => ?_⟩
  · rw [Journal.make_timer]
    rfl
  · simp [Journal.make,World.make,sessionAt,entry,WebsockSessionManager.make] at held

theorem kept_step {j next : Journal} {event : Event} (kept : Kept j) (ran : j.step A event = .ok next) : Kept next := by
  refine ⟨?_,fun id => ?_,fun id s held => step_registered kept ran held⟩
  · rw [(step_universe (Journal.step_ok.mp ran).1).2.1]
    exact kept.running
  · rw [step_kinds kept ran]
    split
    · exact ⟨Language.nil_mem_kstar _,by simp⟩
    · exact word_extended event id (kept.word id)

theorem stream_grammatical (A : Arith) (rand : Rand) (events : List Event) :
    Runs.Always (Journal.step A) (Grammatical A) (Journal.make A rand) events :=
  (Runs.always_invariant (fun _ _ _ kept ran => kept_step kept ran) (kept_make A rand) events).imp
    fun _ kept => ⟨kept.word,fun _ _ ran id => step_kinds kept ran id⟩

end Geoff.OutgoingStream
