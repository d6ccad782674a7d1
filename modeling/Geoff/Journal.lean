import Geoff.SessionSteps

-- The server beside a record for each session id, kept from the accept that opened
-- it: the messages received for it, the messages committed to its queue, and those
-- committed by each timer tick it was registered for.
namespace Geoff
open World

structure Record where
  received : List (List UInt8)
  committed : List AppBuffer
  ticks : List (List AppBuffer)

def Record.empty : Record := ⟨[],[],[]⟩

structure Journal where
  world : World
  records : UInt32 → Record

variable {A : Arith} {w t : World} {event : Event} {id : UInt32}

namespace World

def queue (w : World) (id : UInt32) : List AppBuffer :=
  match w.sessionAt id with
  | some s => s.txQue
  | none => []

def added (w t : World) (id : UInt32) : List AppBuffer := (t.queue id).drop (w.queue id).length

-- What a step from `w` to `t` appends to the queue under `id`. After a message has
-- been handled on_read may pop the queue, so it is looked at in between.
def commits (A : Arith) (w : World) (event : Event) (t : World) (id : UInt32) : List AppBuffer :=
  match event with
  | .onRead conn (.message bytes beyond) =>
    match w.conns[conn]? with
    | none => []
    | some c =>
      match w.commsHandler A c.sessionID bytes beyond with
      | .ok handled => w.added handled id
      | .error _ => []
  | _ => w.added t id

def ticksFor (w : World) (event : Event) (id : UInt32) : Bool :=
  match event with
  | .tick => w.game.gUniverse.timer.runTimer && (w.playerOf id).isSome
  | _ => false

end World

def Record.note (A : Arith) (w : World) (event : Event) (t : World) (id : UInt32) (r : Record) : Record :=
  if id ∈ (w.storeOp event).opened then .empty else
    ⟨r.received ++ ((w.messageFor event id).map Prod.fst).toList,
      r.committed ++ w.commits A event t id,
      if w.ticksFor event id then r.ticks ++ [w.commits A event t id] else r.ticks⟩

def Journal.make (A : Arith) (rand : Rand) : Journal := ⟨.make A rand,fun _ => .empty⟩

def Journal.step (A : Arith) (j : Journal) (event : Event) : Except Fault Journal := do
  let world ← j.world.step A event
  return ⟨world,fun id => (j.records id).note A j.world event world id⟩

theorem opened_accept (opened : id ∈ (w.storeOp event).opened) : event = .accept ∧ id = w.gSessions.sessionId := by
  cases event with
  | accept => exact ⟨rfl,List.mem_singleton.mp opened⟩
  | tick => exact absurd opened List.not_mem_nil
  | posted conn => exact absurd opened List.not_mem_nil
  | onRead conn result =>
    simp only [storeOp] at opened
    split at opened <;> exact absurd opened List.not_mem_nil
  | onWrite conn ec =>
    simp only [storeOp] at opened
    split at opened <;> exact absurd opened List.not_mem_nil

theorem not_opened (old : event = .accept → id ≠ w.gSessions.sessionId) : id ∉ (w.storeOp event).opened := by
  intro opened
  obtain ⟨accept,own⟩ := opened_accept opened
  exact old accept own

namespace Journal

theorem make_timer (A : Arith) (rand : Rand) : (make A rand).world.game.gUniverse.timer = .make := by
  rw [make,make_game]
  exact (Game.make_fresh A rand).timer

theorem step_ok {j next : Journal} : j.step A event = .ok next ↔
    j.world.step A event = .ok next.world ∧
      next.records = fun id => (j.records id).note A j.world event next.world id := by
  constructor
  · intro ran
    obtain ⟨world,one,result⟩ := Runs.bind_ok.mp ran
    cases result
    exact ⟨one,rfl⟩
  · rintro ⟨one,noted⟩
    obtain ⟨world,records⟩ := next
    dsimp only at one noted
    subst noted
    exact Runs.bind_ok.mpr ⟨world,one,rfl⟩

theorem step_world (one : w.step A event = .ok t) (records : UInt32 → Record) :
    step A ⟨w,records⟩ event = .ok ⟨t,fun id => (records id).note A w event t id⟩ :=
  step_ok.mpr ⟨one,rfl⟩

theorem step_opened {j next : Journal} (ran : j.step A event = .ok next) (opened : id ∈ (j.world.storeOp event).opened) :
    next.records id = .empty := by
  rw [(step_ok.mp ran).2]
  exact if_pos opened

theorem step_kept {j next : Journal} (ran : j.step A event = .ok next) (old : id ∉ (j.world.storeOp event).opened) :
    next.records id = ⟨(j.records id).received ++ ((j.world.messageFor event id).map Prod.fst).toList,
      (j.records id).committed ++ j.world.commits A event next.world id,
      if j.world.ticksFor event id then (j.records id).ticks ++ [j.world.commits A event next.world id]
      else (j.records id).ticks⟩ := by
  rw [(step_ok.mp ran).2]
  exact if_neg old

theorem run_world {events : List Event} (ran : Runs.run (World.step A) w events = .ok t) (records : UInt32 → Record) :
    ∃ records', Runs.run (step A) ⟨w,records⟩ events = .ok ⟨t,records'⟩ := by
  induction events generalizing w records with
  | nil => cases ran; exact ⟨records,rfl⟩
  | cons event rest ih =>
    obtain ⟨middle,one,tail⟩ := Runs.bind_ok.mp ran
    obtain ⟨records',more⟩ := ih tail fun id => (records id).note A w event middle id
    exact ⟨records',Runs.bind_ok.mpr ⟨_,step_world one records,more⟩⟩

theorem world_run {j next : Journal} {events : List Event} (ran : Runs.run (step A) j events = .ok next) :
    Runs.run (World.step A) j.world events = .ok next.world := by
  induction events generalizing j with
  | nil => cases ran; rfl
  | cons event rest ih =>
    obtain ⟨middle,one,tail⟩ := Runs.bind_ok.mp ran
    exact Runs.bind_ok.mpr ⟨middle.world,(step_ok.mp one).1,ih tail⟩

end Journal

namespace World

theorem effect_fixed {s : Session} {g g' : Game} {asked : Option RequestType} {down : Bool} {player : Option Nat}
    (effect : Effect A s g asked down player g') : g'.gUniverse.fixed = g.gUniverse.fixed := by
  cases effect <;> rfl

theorem step_universe (ran : w.step A event = .ok t) : t.game.gUniverse.toSize = w.game.gUniverse.toSize ∧
    t.game.gUniverse.timer = w.game.gUniverse.timer ∧ t.game.gUniverse.stars = w.game.gUniverse.stars := by
  have still : t.game.gUniverse.fixed = w.game.gUniverse.fixed ∨ Moved A w t.game := by
    cases step_turn ran with
    | quiet _ game _ => exact .inl (by rw [game])
    | request _ _ effect _ => exact .inl (effect_fixed effect)
    | tick ticked =>
      cases running : w.game.gUniverse.timer.runTimer with
      | false => exact .inl (by rw [tickEvent_stopped running ticked])
      | true => exact .inr (tickEvent_round running ticked).1
  rcases still with same | moved
  · exact ⟨congrArg (·.1) same,congrArg (·.2.1) same,congrArg (·.2.2.2) same⟩
  · exact ⟨congrArg (·.1) moved,congrArg (·.2.1) moved,congrArg (·.2.2.2) moved⟩

theorem timer_run {rand : Rand} {events : List Event} (ran : Runs.run (step A) (World.make A rand) events = .ok t) :
    t.game.gUniverse.timer = .make ∧ t.game.gUniverse.toSize = ⟨8192,8192⟩ := by
  have fresh := Game.make_fresh A rand
  rw [← make_game A rand] at fresh
  refine Runs.run_invariant (fun w : World => w.game.gUniverse.timer = .make ∧ w.game.gUniverse.toSize = ⟨8192,8192⟩)
    ?_ ⟨fresh.timer,fresh.size⟩ ran
  intro w event t kept one
  obtain ⟨size,timer,_⟩ := step_universe one
  exact ⟨timer.trans kept.1,size.trans kept.2⟩

-- The messages a step can commit: the reply to a registration, the two of a tick for
-- a registered session, or none.
inductive Commits (A : Arith) (w : World) (event : Event) (id : UInt32) : List AppBuffer → Prop where
  | registered {s : Session} (found : w.sessionAt id = some s) {bytes : List UInt8} {beyond : Nat → UInt8}
      (asked : w.messageFor event id = some (bytes,beyond)) (register : Session.asked bytes beyond = some .registerSession) :
      Commits A w event id [s.registeredBuffer A w.game (Session.orderOf bytes)]
  | ticked {s : Session} (found : w.sessionAt id = some s) (now : event = .tick)
      (running : w.game.gUniverse.timer.runTimer = true) (player : s.player ≠ none) {g : Game} (moved : Moved A w g)
      {first second : AppBuffer} (universal : UniverseMessage A g s first)
      (own : PlayerMessage A w.game.gUniverse.timer.tick s second) : Commits A w event id [first,second]
  | nothing (unregistering : ∀ s bytes beyond, w.sessionAt id = some s → w.messageFor event id = some (bytes,beyond) →
        Session.asked bytes beyond ≠ some .registerSession)
      (untimely : event = .tick → w.game.gUniverse.timer.runTimer = true → ∀ s, w.sessionAt id = some s → s.player = none) :
      Commits A w event id []

theorem queue_found {s : Session} (found : w.sessionAt id = some s) : w.queue id = s.txQue := by rw [queue,found]

theorem added_same (same : t.entry id = w.entry id) : w.added t id = [] := by
  simp [added,queue,sessionAt,same]

theorem added_rewrites {key : UInt32} {change : Session → Session} (rewritten : Rewrites key change w t) :
    (key ≠ id ∨ w.sessionAt id = none → w.added t id = []) ∧
      ∀ s, key = id → w.sessionAt id = some s → w.added t id = (change s).txQue.drop s.txQue.length := by
  constructor
  · intro either
    by_cases own : key = id
    · subst own
      have absent := either.resolve_left (fun differs => differs rfl)
      simp [added,queue,rewritten.own,absent]
    · exact added_same (rewritten.others id (Ne.symm own))
  · rintro s rfl found
    rw [added,queue_found found,queue_found (rewritten.own.trans (by rw [found]; rfl))]

theorem added_shorter {key : UInt32} {queue : Session → List AppBuffer} (rewritten : Rewrites key (fun s => s.withQueue (queue s)) w t)
    (shorter : ∀ s, (queue s).length ≤ s.txQue.length) : w.added t id = [] := by
  by_cases own : key = id
  · cases found : w.sessionAt id with
    | none => exact (added_rewrites rewritten).1 (.inr found)
    | some s =>
      rw [(added_rewrites rewritten).2 s own found]
      exact List.drop_eq_nil_of_le (shorter s)
  · exact (added_rewrites rewritten).1 (.inl own)

theorem answered_queue (A : Arith) (s : Session) (g : Game) (bytes : List UInt8) (beyond : Nat → UInt8) :
    (s.answered A g bytes beyond).txQue = s.txQue ++ if Session.asked bytes beyond = some .registerSession then
      [s.registeredBuffer A g (Session.orderOf bytes)] else [] := by
  have noted : (s.noted bytes).txQue = s.txQue := by
    rw [Session.noted]
    split <;> rfl
  rw [Session.answered]
  split
  · simp [Session.commit,WebsockSession.commitTxBuffer,noted]
  · simp [noted]

theorem commits_quiet (unasked : w.messageFor event id = none) (other : event ≠ .tick) : Commits A w event id [] :=
  .nothing (fun s bytes beyond _ asked => by simp [unasked] at asked) (fun tick => absurd tick other)

theorem message_commits {conn : Nat} {c : WebsocketSession AppBuffer} {bytes : List UInt8} {beyond : Nat → UInt8}
    (member : w.conns[conn]? = some c) {handled : World} (ran : w.commsHandler A c.sessionID bytes beyond = .ok handled) :
    Commits A w (.onRead conn (.message bytes beyond)) id (w.added handled id) := by
  obtain ⟨aside,own⟩ : (c.sessionID ≠ id ∨ w.sessionAt id = none → w.added handled id = []) ∧ _ :=
    added_rewrites (commsHandler_rewrites ran)
  have asked : w.messageFor (.onRead conn (.message bytes beyond)) id =
      if c.sessionID = id then some (bytes,beyond) else none := by simp [messageFor,member]
  by_cases here : c.sessionID = id
  · rw [if_pos here] at asked
    cases found : w.sessionAt id with
    | none =>
      rw [aside (.inr found)]
      exact .nothing (fun s _ _ held => by simp [found] at held) (fun tick => (by cases tick))
    | some s =>
      rw [own s here found,answered_queue,List.drop_left]
      by_cases register : Session.asked bytes beyond = some .registerSession
      · rw [if_pos register]
        exact .registered found asked register
      · rw [if_neg register]
        refine .nothing (fun s' bytes' beyond' _ again => ?_) (fun tick => (by cases tick))
        cases asked.symm.trans again
        exact register
  · rw [if_neg here] at asked
    rw [aside (.inl here)]
    exact commits_quiet asked (by simp)

theorem tick_commits (ran : w.tickEvent A = .ok t) : Commits A w .tick id (w.added t id) := by
  cases running : w.game.gUniverse.timer.runTimer with
  | false =>
    cases tickEvent_stopped running ran
    rw [added_same rfl]
    exact .nothing (fun _ _ _ _ asked => (by cases asked)) (fun _ runs => by simp [running] at runs)
  | true =>
    obtain ⟨_,rounds⟩ := tickEvent_round running ran
    cases found : w.sessionAt id with
    | none =>
      have empty : t.sessionAt id = none := by
        cases held : t.sessionAt id with
        | none => rfl
        | some s' =>
          obtain ⟨s,here⟩ := tick_held ran held
          cases found.symm.trans here
      simp only [added,queue,empty,List.drop_nil]
      exact .nothing (fun _ _ _ _ asked => (by cases asked)) (fun _ _ s held => by simp [found] at held)
    | some s =>
      obtain ⟨s',there,tick⟩ := rounds id s (sessionAt_some.mp found)
      rw [added,queue_found found,queue_found (sessionAt_some.mpr there)]
      by_cases unregistered : s.player = none
      · rw [tick.unregistered unregistered,List.drop_length]
        refine .nothing (fun _ _ _ _ asked => (by cases asked)) fun _ _ s held => ?_
        cases found.symm.trans held
        exact unregistered
      · obtain ⟨g,first,second,moved,universal,own,rfl⟩ := tick.registered unregistered
        have queued : ((s.commit first).commit second).txQue = s.txQue ++ [first,second] := by
          simp [Session.commit,WebsockSession.commitTxBuffer]
        rw [queued,List.drop_left]
        exact .ticked found rfl running unregistered moved universal own

theorem other_commits (other : ∀ conn bytes beyond, event ≠ .onRead conn (.message bytes beyond)) (between : event ≠ .tick)
    (nothing : w.added t id = []) : Commits A w event id (w.commits A event t id) := by
  have same : w.commits A event t id = w.added t id := by
    unfold commits
    split
    · exact absurd rfl (other _ _ _)
    · rfl
  have unasked : w.messageFor event id = none := by
    unfold messageFor
    split
    · exact absurd rfl (other _ _ _)
    · rfl
  rw [same,nothing]
  exact commits_quiet unasked between

theorem step_commits (ran : w.step A event = .ok t) (id : UInt32) : Commits A w event id (w.commits A event t id) := by
  cases step_handled ran with
  | accept accepted =>
    refine other_commits (by simp) (by simp) ?_
    by_cases new : id = w.gSessions.sessionId
    · subst new
      rw [added,queue_found (sessionAt_some.mpr (accept_own accepted))]
      exact List.drop_nil
    · exact added_same (accept_entry accepted new)
  | tick ticked => exact tick_commits ticked
  | @closed conn c =>
    refine other_commits (by simp) (by simp) ?_
    by_cases own : id = c.sessionID
    · simp [added,queue,sessionAt,own,close_own]
    · exact added_same (close_entry _ own)
  | failed => exact other_commits (by simp) (by simp) (added_same rfl)
  | @message conn c bytes beyond handled member _ answered =>
    simp only [commits,member,answered]
    exact message_commits member answered
  | unwritten => exact other_commits (by simp) (by simp) (added_same rfl)
  | @written conn c =>
    exact other_commits (by simp) (by simp) (added_shorter (sendNext_rewrites w conn c.writeDone) (by simp))
  | @posted conn c session _ _ _ found =>
    have rewritten := sendFrom_rewrites conn (c := {c with posted := c.posted - 1}) (callbackSession_found found)
    exact other_commits (by simp) (by simp) (added_shorter rewritten (by simp))

end World
end Geoff
