import Geoff.Mirror

-- A page that handles every message committed for its session since it was loaded: over
-- a whole run it never throws and shows what the last tick has left.
namespace Geoff.Replica
open Collision CollisionBounds Messages Mirror RoundTrips World OutgoingStream
open ShipBounds (field)
open Viewport (Fits Served Windows)

structure Shot where
  game : Game
  ships : List Ship
  player : Player

def shoot (A : Arith) (w t : World) (id : UInt32) : Option Shot :=
  match w.playerOf id,(w.game.moveRocks A w.game.gUniverse.timer.tick).collisionDetection A with
  | some address,.ok g => some ⟨t.game,otherShips g id w.gSessions.sessions.toList,t.game.memory address⟩
  | _,_ => none

-- The last tick each session was told of, from the accept that opened it on.
def note (A : Arith) (j : Journal) (event : Event) (next : Journal) (shots : UInt32 → Option Shot) (id : UInt32) : Option Shot :=
  if id ∈ (j.world.storeOp event).opened then none else
  match event with
  | .tick => (shoot A j.world next.world id).or (shots id)
  | _ => shots id

def Shown (id : UInt32) (shot : Shot) (c : Client.Globals) : Prop :=
  UniverseShown shot.game id shot.ships c ∧ PlayerShown shot.player id shot.game.gUniverse.ticks c

structure Calm (id : UInt32) (w : World) (event : Event) : Prop where
  windows : Windows Fits w event
  announced : ∀ bytes beyond, w.messageFor event id = some (bytes,beyond) → ¬ bytes.length < 2 → Session.orderOf bytes = true

-- The counts fit their words: a gun has six bullets at the most.
structure Roomy (w : World) : Prop where
  rocks : w.game.gUniverse.rockField.rocks.length < 65536
  sessions : w.gSessions.sessions.size ≤ 10922

theorem makeStars_length (A : Arith) (width height : ℚ) (n : Nat) (rand : Rand) : (makeStars A width height n rand).1.length = n := by
  induction n generalizing rand with
  | zero => rfl
  | succ n ih =>
    rw [makeStars,List.length_cons]
    exact congrArg Nat.succ (ih _)

theorem make_stars (A : Arith) (rand : Rand) : (Game.make A rand).gUniverse.stars.length = Consts.numStars := by
  have length := makeStars_length A 8192 8192 Consts.numStars rand
  unfold Game.make
  split
  rename_i stars rest made
  rw [made] at length
  exact length

theorem handleMessages_append (c : Client.Globals) (first rest : List (List UInt8)) :
    Client.handleMessages c (first ++ rest) = (Client.handleMessages c first).bind (Client.handleMessages · rest) :=
  List.foldlM_append

theorem registered_shows {A : Arith} (c : Client.Globals) {stars : List Position} (few : stars.length < 65536) (id : UInt32) :
    ∃ c', Client.handleMessages c [sessionRegistered A true stars id] = some c' ∧ ∀ shot, Shown id shot c → Shown id shot c' := by
  have decoded := onSessionRegistered_reads (A := A) c stars id few
  have handled : Client.handleMessageEvent c (sessionRegistered A true stars id) =
      (Client.onSessionRegistered c (sessionRegistered A true stars id) 0).map Prod.fst := by
    rw [sessionRegistered_split]
    rfl
  rw [decoded] at handled
  refine ⟨_,(Option.bind_eq_some_iff.mpr ⟨_,handled,rfl⟩),fun shot shown => ?_⟩
  obtain ⟨⟨_,ticks,wide,high,rocks,ships,bullets⟩,own⟩ := shown
  refine ⟨⟨rfl,ticks,wide,high,rocks,ships,bullets⟩,?_⟩
  obtain ⟨_,count,ctxW,ctxH,ctxOX,ctxOY,score,phase,x,y,angle,thrusting,exploding,visible,dead,lives,shots⟩ := own
  exact ⟨rfl,count,ctxW,ctxH,ctxOX,ctxOY,score,phase,x,y,angle,thrusting,exploding,visible,dead,lives,shots⟩

variable {cos sin : ℚ → ℚ} {id : UInt32} {j next : Journal} {event : Event} {shots : UInt32 → Option Shot}

structure Replicated (id : UInt32) (v : Journal × (UInt32 → Option Shot)) : Prop where
  served : Served Charted v.1.world
  sized : Rocks Sized v.1.world.game
  running : v.1.world.game.gUniverse.timer.runTimer = true
  stars : v.1.world.game.gUniverse.stars.length < 65536
  announced : ∀ s, v.1.world.sessionAt id = some s → s.player ≠ none → s.isLittleEndian = true
  page : ∃ c, Client.handleMessages loaded ((v.1.records id).committed.map AppBuffer.wire) = some c ∧
    ∀ shot, v.2 id = some shot → Shown id shot c

-- A session with a player has announced 0xAB, with its registration at the latest.
theorem announced_step {A : Arith} {w t : World}
    (told : ∀ bytes beyond, w.messageFor event id = some (bytes,beyond) → ¬ bytes.length < 2 → Session.orderOf bytes = true)
    (before : ∀ s, w.sessionAt id = some s → s.player ≠ none → s.isLittleEndian = true) (ran : w.step A event = .ok t)
    (s : Session) (held : t.sessionAt id = some s) (registered : s.player ≠ none) : s.isLittleEndian = true := by
  cases step_origin ran held with
  | accepted _ _ => exact absurd rfl registered
  | @waited old found _ _ _ queue => exact before old (sessionAt_some.mpr found) registered
  | @answered old found bytes beyond asked queue =>
    rw [Session.withQueue_player,Session.answered_player] at registered
    rw [Session.withQueue_order,Session.answered_order]
    split
    · rename_i short
      refine before old (sessionAt_some.mpr found) (registered.resolve_right ?_)
      rw [Session.asked,if_pos short]
      exact fun asked => by cases asked
    · rename_i long
      exact told bytes beyond asked long
  | @ticked old _ found _ _ tick =>
    have known := before old (sessionAt_some.mpr found)
    by_cases player : old.player = none
    · rw [tick.unregistered player] at registered
      exact absurd player registered
    · obtain ⟨g,first,second,_,_,_,rfl⟩ := tick.registered player
      exact known player

theorem note_tick (A : Arith) (j after : Journal) (shots : UInt32 → Option Shot) :
    note A j .tick after shots id = (shoot A j.world after.world id).or (shots id) := by
  unfold note
  exact if_neg List.not_mem_nil

theorem note_untold {A : Arith} {after : Journal} (old : id ∉ (j.world.storeOp event).opened)
    (untold : event = .tick → j.world.playerOf id = none) : note A j event after shots id = shots id := by
  unfold note
  rw [if_neg old]
  cases event with
  | tick =>
    show (shoot A j.world after.world id).or (shots id) = shots id
    rw [shoot,untold rfl]
    rfl
  | _ => rfl

theorem playerOf_absent {w : World} (absent : ∀ s, w.sessionAt id = some s → s.player = none) : w.playerOf id = none := by
  by_contra registered
  obtain ⟨address,held⟩ := Option.ne_none_iff_exists'.mp registered
  obtain ⟨s,found,player⟩ := playerOf_some.mp held
  rw [absent s (sessionAt_some.mpr found)] at player
  cases player

variable (ideal : (Arith.exact cos sin).Ideal)
include ideal

theorem page_step (replicated : Replicated id (j,shots))
    (told : ∀ bytes beyond, j.world.messageFor event id = some (bytes,beyond) → ¬ bytes.length < 2 → Session.orderOf bytes = true)
    (roomy : Roomy j.world) (after : Roomy next.world) (ran : j.step (.exact cos sin) event = .ok next)
    (old : id ∉ (j.world.storeOp event).opened) {c : Client.Globals} (shown : ∀ shot, shots id = some shot → Shown id shot c) :
    ∃ c', Client.handleMessages c ((j.world.commits (.exact cos sin) event next.world id).map AppBuffer.wire) = some c' ∧
      ∀ shot, note (.exact cos sin) j event next shots id = some shot → Shown id shot c' := by
  have one := (Journal.step_ok.mp ran).1
  have law := step_commits one id
  generalize committed : j.world.commits (.exact cos sin) event next.world id = block at law
  cases law with
  | @registered s found bytes beyond asked register =>
    obtain ⟨conn,rfl⟩ := messageFor_read asked
    have own : s.sessionID = id := PlayerStore.session_id replicated.served.owned (sessionAt_some.mp found)
    have long : ¬ bytes.length < 2 := by
      intro short
      rw [Session.asked,if_pos short] at register
      cases register
    have order := told bytes beyond asked long
    obtain ⟨c',handled,kept⟩ := registered_shows (A := .exact cos sin) c replicated.stars id
    rw [List.map_singleton,Session.registeredBuffer,AppBuffer.wire_filled,order,own]
    refine ⟨c',handled,fun shot noted => kept shot (shown shot ?_)⟩
    rwa [note_untold old fun tick => by cases tick] at noted
  | @ticked s found now _ registered g' moved first second universal mine =>
    subst now
    obtain ⟨address,player⟩ := Option.ne_none_iff_exists'.mp registered
    obtain ⟨g,collided,mirrors⟩ := tick_mirrors ideal replicated.served replicated.sized replicated.running one after.rocks
      roomy.sessions
    obtain ⟨moved,first',second',queued,shows⟩ :=
      mirrors id s address found player (replicated.announced s found registered)
    obtain ⟨c',handled,universe_,own⟩ := shows c
    obtain ⟨s',entered,queue⟩ := Option.map_eq_some_iff.mp queued
    have exact_ : j.world.commits (.exact cos sin) .tick next.world id = [first',second'] := by
      show (next.world.queue id).drop (j.world.queue id).length = _
      rw [queue_found entered,queue_found found,queue,List.drop_left]
    have held : j.world.playerOf id = some address := (playerOf_found (sessionAt_some.mp found)).trans player
    have noted : note (.exact cos sin) j .tick next shots id =
        some ⟨next.world.game,otherShips g id j.world.gSessions.sessions.toList,next.world.game.memory address⟩ := by
      rw [note_tick,shoot,held,collided]
      rfl
    rw [← committed,exact_,noted]
    refine ⟨c',handled,fun shot same => ?_⟩
    cases same
    exact ⟨universe_,own⟩
  | nothing _ untimely =>
    refine ⟨c,rfl,fun shot noted => shown shot ?_⟩
    rwa [note_untold old fun tick => playerOf_absent (untimely tick replicated.running)] at noted

theorem replicated_step (replicated : Replicated id (j,shots)) (calm : Calm id j.world event) (roomy : Roomy j.world)
    (after : Roomy next.world) (ran : j.step (.exact cos sin) event = .ok next) :
    Replicated id (next,note (.exact cos sin) j event next shots) := by
  have one := (Journal.step_ok.mp ran).1
  obtain ⟨_,timer,stars⟩ := step_universe one
  refine ⟨Viewport.served_step (charted_lasting ideal) replicated.served calm.windows one,?_,?_,?_,
    announced_step calm.announced replicated.announced one,?_⟩
  · exact step_rocks (fun _ _ => ⟨by norm_num [Consts.rockRadius],by norm_num [Consts.rockRadius]⟩)
      (fun rock v _ sized => sized_fragments ideal rock v sized) (fun _ _ sized => sized) replicated.sized one
  · rw [timer]
    exact replicated.running
  · rw [stars]
    exact replicated.stars
  · by_cases opened : id ∈ (j.world.storeOp event).opened
    · rw [Journal.step_opened ran opened]
      refine ⟨loaded,rfl,fun shot noted => ?_⟩
      have silent : note (.exact cos sin) j event next shots id = none := if_pos opened
      cases silent.symm.trans noted
    · obtain ⟨c,handled,shown⟩ := replicated.page
      obtain ⟨c',more,shows⟩ := page_step ideal replicated calm.announced roomy after ran opened shown
      refine ⟨c',?_,shows⟩
      rw [Journal.step_kept ran opened,List.map_append,handleMessages_append,handled]
      exact more

omit ideal in
theorem replicated_make (A : Arith) (rand : Rand) : Replicated id (.make A rand,fun _ => none) := by
  have fresh := Game.make_fresh A rand
  have stars := make_stars A rand
  have served := Viewport.served_make (A := A) Charted rand
  have sized : Rocks Sized (World.make A rand).game := make_rocks rand
  have unheld : (World.make A rand).sessionAt id = none := by simp [World.make,sessionAt,entry,WebsockSessionManager.make]
  have few : Consts.numStars < 65536 := by decide
  rw [← World.make_game A rand] at fresh stars
  unfold Journal.make
  generalize World.make A rand = first at fresh stars served sized unheld
  refine ⟨served,sized,?_,lt_of_eq_of_lt stars few,fun s held => ?_,loaded,rfl,fun _ absent => (by cases absent)⟩
  · exact congrArg Timer.runTimer fresh.timer
  · rw [unheld] at held
    cases held

-- Whatever a page has got of a session's messages since it was loaded, it has handled all
-- of them, and shows what the last tick has told the session.
theorem page_replicates {rand : Rand} {history : List Event}
    (calm : Runs.Steps (World.step (.exact cos sin)) (Calm id) (World.make (.exact cos sin) rand) history)
    (roomy : Runs.Always (World.step (.exact cos sin)) Roomy (World.make (.exact cos sin) rand) history)
    (ran : Runs.run (Runs.annotate (Journal.step (.exact cos sin)) (note (.exact cos sin)))
      (Journal.make (.exact cos sin) rand,fun _ => none) history = .ok (j,shots)) :
    ∃ c, Client.handleMessages loaded ((j.records id).committed.map AppBuffer.wire) = some c ∧
      ∀ shot, shots id = some shot → Shown id shot c := by
  have start : Replicated id (.make (.exact cos sin) rand,fun _ => none) := replicated_make (.exact cos sin) rand
  have guarded : Runs.Steps (Runs.annotate (Journal.step (.exact cos sin)) (note (.exact cos sin))) _
      (Journal.make (.exact cos sin) rand,fun _ => none) history :=
    Runs.Steps.project (fun v : Journal × (UInt32 → Option Shot) => v.1.world)
      (fun v event t one => (Journal.step_ok.mp (Runs.annotate_ok.mp one).1).1) (calm.and roomy.steps)
  have replicated : Replicated id (j,shots) := by
    refine Runs.run_among (fun v event t kept allowed one => ?_) start guarded ran
    obtain ⟨stepped,noted⟩ := Runs.annotate_ok.mp one
    obtain ⟨calm,roomy,after⟩ := allowed
    obtain ⟨next,shots'⟩ := t
    obtain rfl : shots' = note (.exact cos sin) v.1 event next v.2 := noted
    exact replicated_step ideal kept calm roomy (after _ (Journal.step_ok.mp stepped).1) stepped
  exact replicated.page

omit ideal

theorem accept_roomy {w t : World} (empty : w.game.gUniverse.rockField.rocks = []) (none_yet : w.gSessions.sessions.size = 0)
    (ran : w.onAccept = .ok t) : Roomy t := by
  rw [onAccept_ok] at ran
  cases ran
  constructor
  · show w.game.gUniverse.rockField.rocks.length < 65536
    rw [empty]
    decide
  · have first := Std.TreeMap.size_insert_le (t := w.gSessions.sessions) (k := w.gSessions.sessionId)
      (v := some (Session.make w.gSessions.sessionId))
    have second := Std.TreeMap.size_insert_le (t := (w.gSessions.addSession Session.make).2.sessions)
      (k := w.gSessions.sessionId) (v := some w.acceptedSession)
    show ((w.gSessions.addSession Session.make).2.sessions.insert w.gSessions.sessionId (some w.acceptedSession)).size ≤ 10922
    have same : (w.gSessions.addSession Session.make).2.sessions.size ≤ w.gSessions.sessions.size + 1 := first
    omega

theorem lone_roomy {w : World} (lone : RestingShip.Lone w) (empty : w.game.gUniverse.rockField.rocks = []) : Roomy w := by
  obtain ⟨s,single,_⟩ := lone.session
  constructor
  · rw [empty]
    decide
  · rw [← Std.TreeMap.length_toList,single]
    exact Nat.succ_le_succ (Nat.zero_le _)

theorem joined_roomy {A : Arith} {rand : Rand} : Runs.Always (World.step A) Roomy (World.make A rand) (joinEvents ++ [.tick]) := by
  obtain ⟨w,join⟩ := joined A rand
  obtain ⟨lone,bare⟩ := RestingShip.joined_lone join
  obtain ⟨t,ticked,again,still,_⟩ := RestingShip.lone_drifts (A := A) lone bare
  have empty : (World.make A rand).game.gUniverse.rockField.rocks = [] := by
    rw [World.make_game]
    exact (Game.make_fresh A rand).rocks
  have none_yet : (World.make A rand).gSessions.sessions.size = 0 := rfl
  have run := join.run
  generalize World.make A rand = first at empty none_yet run
  obtain ⟨middle,accepted,run⟩ := Runs.bind_ok.mp run
  have registered : World.step A middle (.onRead 0 (.message registerRequest fun _ => 0)) = .ok w := by
    exact (Runs.run_single middle _).symm.trans run
  refine (Runs.always_cons accepted).mpr ⟨⟨by rw [empty]; decide,by omega⟩,?_⟩
  refine (Runs.always_cons registered).mpr ⟨accept_roomy empty none_yet accepted,?_⟩
  exact (Runs.always_cons ticked).mpr ⟨lone_roomy lone bare,lone_roomy again still⟩

theorem joined_calm (w : World) : ∀ event ∈ joinEvents ++ [.tick], Calm 0 w event := by
  intro event member
  rcases List.mem_append.mp member with early | late
  · refine ⟨Viewport.windows_join ⟨by decide,by decide⟩ event early w,fun bytes beyond asked _ => ?_⟩
    rcases List.mem_cons.mp early with rfl | registered
    · cases asked
    · rw [List.mem_singleton.mp registered] at asked
      simp only [messageFor] at asked
      split at asked
      · split at asked
        · cases asked
          rfl
        · cases asked
      · cases asked
  · rw [List.mem_singleton.mp late]
    exact ⟨Viewport.windows_tick Fits w,fun _ _ asked => by cases asked⟩

theorem registered_replicated : ∃ j shots shot c, Runs.run (Runs.annotate (Journal.step .upright) (note .upright))
      (Journal.make .upright .zeros,fun _ => none) (joinEvents ++ [.tick]) = .ok (j,shots) ∧ shots 0 = some shot ∧
    Client.handleMessages loaded ((j.records 0).committed.map AppBuffer.wire) = some c ∧ Shown 0 shot c := by
  obtain ⟨w,join⟩ := joined .upright .zeros
  obtain ⟨lone,bare⟩ := RestingShip.joined_lone join
  obtain ⟨t,ticked,_⟩ := RestingShip.lone_drifts (A := .upright) lone bare
  obtain ⟨records,kept⟩ := Journal.run_world join.run fun _ => .empty
  obtain ⟨n,noted⟩ := Runs.annotate_run (note .upright) kept fun _ => none
  have calm : ∀ first, Runs.Steps (World.step .upright) (Calm 0) first (joinEvents ++ [.tick]) :=
    Runs.steps_each fun event member w => joined_calm w event member
  have told : ∃ shot, note .upright ⟨w,records⟩ .tick ⟨t,fun id => (records id).note .upright w .tick t id⟩ n 0 = some shot := by
    obtain ⟨s,single,own,_⟩ := lone.session
    have held : w.playerOf 0 = some 0 := (playerOf_found (getElem_single single).1).trans own
    have detected : ∃ g, (w.game.moveRocks .upright w.game.gUniverse.timer.tick).collisionDetection .upright = .ok g := by
      have ran : w.tickEvent .upright = .ok t := ticked
      rw [tickEvent,if_neg (by rw [lone.running]; exact Bool.noConfusion)] at ran
      obtain ⟨⟨g,sessions⟩,game,_⟩ := Runs.bind_ok.mp ran
      exact ⟨g,gameTick_ok game⟩
    obtain ⟨g,collided⟩ := detected
    rw [note_tick,shoot,held,collided]
    exact ⟨_,rfl⟩
  obtain ⟨shot,told⟩ := told
  have ran : Runs.run (Runs.annotate (Journal.step .upright) (note .upright)) (Journal.make .upright .zeros,fun _ => none)
      (joinEvents ++ [.tick]) = .ok (⟨t,fun id => (records id).note .upright w .tick t id⟩,
        note .upright ⟨w,records⟩ .tick ⟨t,fun id => (records id).note .upright w .tick t id⟩ n) := by
    unfold Journal.make
    generalize World.make .upright .zeros = first at noted
    rw [Runs.run_append _ noted,Runs.run_single]
    exact Runs.annotate_ok.mpr ⟨Journal.step_world ticked records,rfl⟩
  have ideal : (Arith.exact (fun _ => 0) fun _ => 1).Ideal := upright_ideal
  obtain ⟨c,handled,shown⟩ := page_replicates ideal (calm _) joined_roomy ran
  exact ⟨_,_,shot,c,ran,told,handled,shown shot told⟩

end Geoff.Replica
