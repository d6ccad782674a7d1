import Geoff.OutgoingStream
import Geoff.RestingShip

-- The tick counts carried by the two messages of each timer tick, from the first tick
-- of a registered session on.
namespace Geoff.TickCounts
open World AppBuffer OutgoingStream

-- Both tick messages carry it behind their header and the session id.
def countOf (b : AppBuffer) : UInt32 := b.getUint32At (fun _ => 0) 6

def Advancing (ticks : List (List AppBuffer)) : Prop :=
  ∃ first : UInt32, ∀ n messages, ticks[n]? = some messages →
    messages.map countOf = [first + UInt32.ofNat n,first + UInt32.ofNat n]

def AllAdvancing (j : Journal) : Prop := ∀ id, Advancing (j.records id).ticks

def FirstTicks (j : Journal) (event : Event) : Prop :=
  event = .tick → ∀ id, (j.world.playerOf id).isSome → (j.records id).ticks = []

variable {A : Arith}

theorem count_filled (le : Bool) (messageType : UInt8) (sessionID ticks : UInt32) (rest : List UInt8) :
    countOf (filled le ([0xBB] ++ [messageType] ++ bytes32 le sessionID ++ bytes32 le ticks ++ rest) 0) = ticks := by
  cases le <;> simp [countOf,getUint32At,filled,byteAt,bytes32,ByteCursor.le32,ByteCursor.be32,ByteCursor.word32_bytes]

theorem count_universe {g : Game} {s : Session} {txBuff : AppBuffer} (built : UniverseMessage A g s txBuff) :
    countOf txBuff = g.gUniverse.ticks := by
  obtain ⟨m,rfl⟩ := built
  simpa only [Messages.universeTick,Messages.universeHeader,List.append_assoc] using
    count_filled s.isLittleEndian MessageType.universeTickMessage.toUInt8 s.sessionID g.gUniverse.ticks _

theorem count_player {ticks : UInt32} {s : Session} {txBuff : AppBuffer} (built : PlayerMessage A ticks s txBuff) :
    countOf txBuff = ticks := by
  obtain ⟨p,rfl⟩ := built
  simpa only [Messages.playerTick,Messages.playerHeader,List.append_assoc] using
    count_filled s.isLittleEndian MessageType.playerTickMessage.toUInt8 s.sessionID ticks _

-- The timer's count is never moved on, so every message carries the zero it was made with.
structure Kept (j : Journal) : Prop where
  timer : j.world.game.gUniverse.timer = .make
  zero : ∀ id, ∀ messages ∈ (j.records id).ticks, messages.map countOf = [0,0]

theorem advancing_zero {ticks : List (List AppBuffer)} (zero : ∀ messages ∈ ticks, messages.map countOf = [0,0]) :
    Advancing ticks ↔ ticks.length ≤ 1 := by
  constructor
  · rintro ⟨first,counts⟩
    match ticks with
    | [] => simp
    | [_] => simp
    | one :: two :: rest =>
      have start := (counts 0 one rfl).symm.trans (zero one (by simp))
      have next := (counts 1 two rfl).symm.trans (zero two (by simp))
      simp only [List.cons.injEq,and_true,and_self] at start next
      rw [← start] at next
      simp at next
  · intro short
    refine ⟨0,fun n messages found => ?_⟩
    obtain ⟨inside,rfl⟩ := List.getElem?_eq_some_iff.mp found
    have here : n = 0 := by omega
    subst here
    exact zero _ (List.getElem_mem inside)

theorem ticksFor_true {w : World} {event : Event} {id : UInt32} (ticks : w.ticksFor event id = true) :
    event = .tick ∧ w.game.gUniverse.timer.runTimer = true ∧ (w.playerOf id).isSome := by
  unfold ticksFor at ticks
  split at ticks
  · exact ⟨rfl,(Bool.and_eq_true_iff.mp ticks).1,(Bool.and_eq_true_iff.mp ticks).2⟩
  · cases ticks

theorem playerOf_session {w : World} {id : UInt32} (registered : (w.playerOf id).isSome) :
    ∃ s, w.sessionAt id = some s ∧ s.player ≠ none := by
  obtain ⟨address,held⟩ := Option.isSome_iff_exists.mp registered
  obtain ⟨v,found,held⟩ := Option.bind_eq_some_iff.mp held
  obtain ⟨s,rfl,player⟩ := Option.bind_eq_some_iff.mp held
  exact ⟨s,sessionAt_some.mpr found,by rw [player]; simp⟩

theorem commits_zero {j : Journal} {t : World} {event : Event} {id : UInt32} (kept : Kept j)
    (ran : j.world.step A event = .ok t) (ticks : j.world.ticksFor event id = true) :
    (j.world.commits A event t id).map countOf = [0,0] := by
  obtain ⟨tick,running,registered⟩ := ticksFor_true ticks
  obtain ⟨s,held,player⟩ := playerOf_session registered
  have law := step_commits ran id
  generalize j.world.commits A event t id = committed at law ⊢
  cases law with
  | registered found asked register =>
    subst tick
    cases asked
  | @ticked s _ _ _ _ g moved first second universal own =>
    have count : g.gUniverse.ticks = j.world.game.gUniverse.timer.tick := congrArg (fun fixed => fixed.2.2.1) moved
    rw [List.map_cons,List.map_singleton,count_universe universal,count_player own,count,kept.timer]
    rfl
  | nothing _ untimely => exact absurd (untimely tick running s held) player

theorem step_ticks {j next : Journal} {event : Event} (ran : j.step A event = .ok next) (id : UInt32) :
    (next.records id).ticks = [] ∨ (next.records id).ticks = (j.records id).ticks ∨
      j.world.ticksFor event id = true ∧
        (next.records id).ticks = (j.records id).ticks ++ [j.world.commits A event next.world id] := by
  by_cases opened : id ∈ (j.world.storeOp event).opened
  · rw [Journal.step_opened ran opened]
    exact .inl rfl
  · rw [Journal.step_kept ran opened]
    cases ticks : j.world.ticksFor event id with
    | false => exact .inr (.inl rfl)
    | true => exact .inr (.inr ⟨rfl,rfl⟩)

theorem kept_step {j next : Journal} {event : Event} (kept : Kept j) (ran : j.step A event = .ok next) : Kept next := by
  have one := (Journal.step_ok.mp ran).1
  refine ⟨(step_universe one).2.1.trans kept.timer,fun id messages member => ?_⟩
  rcases step_ticks ran id with empty | same | ⟨ticks,added⟩
  · rw [empty] at member
    cases member
  · rw [same] at member
    exact kept.zero id messages member
  · rw [added] at member
    rcases List.mem_append.mp member with old | new
    · exact kept.zero id messages old
    · rw [List.mem_singleton.mp new]
      exact commits_zero kept one ticks

theorem tick_counted {j next : Journal} {id : UInt32} (kept : Kept j) (ran : j.step A .tick = .ok next)
    (registered : (j.world.playerOf id).isSome) :
    (next.records id).ticks.length = (j.records id).ticks.length + 1 := by
  have running : j.world.game.gUniverse.timer.runTimer = true := by rw [kept.timer]; rfl
  have ticks : j.world.ticksFor .tick id = true := by rw [ticksFor,running,registered]; rfl
  have old : id ∉ (j.world.storeOp .tick).opened := List.not_mem_nil
  rw [Journal.step_kept ran old]
  simp [ticks]

theorem advancing_lengths {j : Journal} (kept : Kept j) : AllAdvancing j ↔ ∀ id, (j.records id).ticks.length ≤ 1 :=
  forall_congr' fun id => advancing_zero (kept.zero id)

theorem step_advancing {j next : Journal} {event : Event} (kept : Kept j) (advancing : AllAdvancing j)
    (ran : j.step A event = .ok next) : AllAdvancing next ↔ FirstTicks j event := by
  rw [advancing_lengths (kept_step kept ran)]
  constructor
  · intro short tick id registered
    subst tick
    have counted := tick_counted kept ran registered
    have bound := short id
    exact List.eq_nil_of_length_eq_zero (by omega)
  · intro first id
    rcases step_ticks ran id with empty | same | ⟨ticks,added⟩
    · rw [empty]
      exact Nat.zero_le _
    · rw [same]
      exact (advancing_lengths kept).mp advancing id
    · obtain ⟨tick,_,registered⟩ := ticksFor_true ticks
      rw [added,first tick id registered]
      exact Nat.le_refl 1

theorem kept_make (A : Arith) (rand : Rand) : Kept (.make A rand) :=
  ⟨Journal.make_timer A rand,fun _ _ member => absurd member List.not_mem_nil⟩

theorem ticks_advance_iff (A : Arith) (rand : Rand) (events : List Event) :
    Runs.Always (Journal.step A) AllAdvancing (Journal.make A rand) events ↔
      Runs.Steps (Journal.step A) FirstTicks (Journal.make A rand) events := by
  refine Runs.always_iff_steps Kept (fun _ _ _ kept ran => kept_step kept ran)
    (fun _ _ _ kept advancing ran => step_advancing kept advancing ran) (kept_make A rand) ?_ events
  exact (advancing_lengths (kept_make A rand)).mpr fun id => Nat.zero_le 1

theorem second_tick_same_count :
    ¬ Runs.Always (Journal.step .upright) AllAdvancing (Journal.make .upright .zeros) (joinEvents ++ [.tick,.tick]) := by
  obtain ⟨w,join⟩ := joined .upright .zeros
  obtain ⟨lone,empty⟩ := RestingShip.joined_lone join
  obtain ⟨records,ran⟩ := Journal.run_world join.run fun _ => .empty
  obtain ⟨first,one,lone_first,empty_first⟩ := RestingShip.lone_quiet (A := .upright) lone empty
  obtain ⟨second,two,_⟩ := RestingShip.lone_quiet (A := .upright) lone_first empty_first
  have step_one := Journal.step_world one records
  have step_two := Journal.step_world two fun id => (records id).note .upright w .tick first id
  have kept := Runs.run_invariant Kept (fun _ _ _ kept ran => kept_step kept ran) (kept_make .upright .zeros) ran
  have kept_one := kept_step kept step_one
  have count_one := tick_counted kept step_one (RestingShip.lone_registered lone)
  have count_two := tick_counted kept_one step_two (RestingShip.lone_registered lone_first)
  have reached := (Runs.run_append [.tick,.tick] ran).trans
    (Runs.bind_ok.mpr ⟨_,step_one,Runs.bind_ok.mpr ⟨_,step_two,rfl⟩⟩)
  intro always
  have advancing := always.last reached
  have bound := (advancing_lengths (kept_step kept_one step_two)).mp advancing 0
  omega

end Geoff.TickCounts
