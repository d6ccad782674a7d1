import Geoff.GameSteps

-- m_players beside g_sessions over whole runs: registering adds a player, and
-- closing a session leaves its player where it is.
namespace Geoff.PlayerStore
open World

variable {A : Arith} {w t : World}

def players (w : World) : Std.TreeMap UInt32 (Option Nat) := w.game.gUniverse.players

def HasSession (w : World) (id : UInt32) : Prop :=
  ∃ s : Session, w.gSessions.sessions[id]? = some (some s)

theorem players_make (A : Arith) (rand : Rand) : players (World.make A rand) = ∅ := by
  rw [players,World.make_game,(Game.make_fresh A rand).players]

theorem session_id {id : UInt32} {s : Session} (owned : w.Owned) (found : w.gSessions.sessions[id]? = some (some s)) :
    s.sessionID = id :=
  (owned id s.identity (by rw [World.tags,tags_found found]; rfl)).1

structure Matched (A : Arith) (w : World) : Prop where
  owners : ∀ id, id ∈ players w → HasSession w id
  charged : ∀ t, w.step A .tick = .ok t →
    ∀ entry ∈ t.game.destroyed.drop w.game.destroyed.length, HasSession w entry.1

-- The event does not close the session of a player.
def SparesPlayers (w : World) (event : Event) : Prop := ∀ id, w.storeOp event = .delete id → id ∉ players w

theorem hasSession_tags {id : UInt32} : HasSession w id ↔ ∃ tag, w.tags id = some (some tag) := by
  constructor
  · rintro ⟨s,found⟩
    exact ⟨s.identity,by rw [World.tags,tags_found found]; rfl⟩
  · rintro ⟨tag,held⟩
    obtain ⟨v,found,same⟩ := Option.map_eq_some_iff.mp held
    obtain ⟨s,rfl,_⟩ := Option.map_eq_some_iff.mp same
    exact ⟨s,found⟩

theorem hasSession_apply {op : StoreOp} {id : UInt32} (tags_next : t.tags = op.apply w.tags)
    (held : HasSession w id) (kept : op ≠ .delete id) : HasSession t id := by
  obtain ⟨tag,held⟩ := hasSession_tags.mp held
  rw [hasSession_tags,tags_next]
  cases op with
  | add other conn =>
    by_cases same : id = other
    · subst same; exact ⟨_,Function.update_self ..⟩
    · exact ⟨tag,by simpa [StoreOp.apply,Function.update_of_ne same] using held⟩
  | delete other =>
    have same : id ≠ other := fun same => kept (by rw [same])
    exact ⟨tag,by simpa [StoreOp.apply,Function.update_of_ne same] using held⟩
  | lookUp other =>
    by_cases absent : w.tags other = none
    · have same : id ≠ other := by rintro rfl; rw [absent] at held; cases held
      exact ⟨tag,by simpa [StoreOp.apply,Touched,absent,Function.update_of_ne same] using held⟩
    · exact ⟨tag,by simpa [StoreOp.apply,Touched,absent] using held⟩
  | idle => exact ⟨tag,held⟩

theorem effect_players {s : Session} {g g' : Game} {asked : Option RequestType} {down : Bool} {player : Option Nat}
    (effect : Effect A s g asked down player g') :
    (player = s.player ∧ g'.gUniverse.players = g.gUniverse.players ∧ g'.allocated = g.allocated) ∨
      (player = some g.allocated ∧ g'.gUniverse.players = g.gUniverse.players.insert s.sessionID (some g.allocated) ∧
        g'.allocated = g.allocated + 1) := by
  cases effect with
  | idle => exact .inl ⟨rfl,rfl,rfl⟩
  | register type w h => exact .inr ⟨rfl,rfl,rfl⟩
  | key type known code => exact .inl ⟨rfl,rfl,rfl⟩
  | click p => exact .inl ⟨rfl,rfl,rfl⟩
  | resize known w h => exact .inl ⟨rfl,rfl,rfl⟩

theorem tick_players (ran : w.tickEvent A = .ok t) : players t = players w ∧
    ∃ log, t.game.destroyed = w.game.destroyed ++ log ∧ ∀ entry ∈ log, entry.1 ∈ players w := by
  rcases tickEvent_game ran with ⟨_,rfl⟩ | ⟨_,g,m,ticked,moved,_⟩
  · exact ⟨rfl,[],by simp,by simp⟩
  · have rounds := gameTick_rounds ticked
    obtain ⟨log,same,own⟩ := rounds.charged
    refine ⟨moved.players.trans rounds.players,log,moved.destroyed.trans same,fun entry member => ?_⟩
    have key := own entry member
    rw [Std.TreeMap.map_fst_toList_eq_keys,Std.TreeMap.mem_keys] at key
    exact key

theorem matched_owners : Matched A w ↔ ∀ id, id ∈ players w → HasSession w id := by
  constructor
  · intro matched; exact matched.owners
  · intro owners
    refine ⟨owners,fun t ran entry member => ?_⟩
    obtain ⟨_,log,same,own⟩ := tick_players ran
    rw [same,List.drop_left] at member
    exact owners entry.1 (own entry member)

theorem step_players {event : Event} (owned : w.Owned) (ran : w.step A event = .ok t) :
    (∀ id, id ∈ players w → id ∈ players t) ∧ ∀ id, id ∈ players t → id ∈ players w ∨ HasSession t id := by
  have tags_next := (step_tags ran).1
  cases step_turn ran with
  | quiet other game _ =>
    have same : players t = players w := congrArg (fun g => g.gUniverse.players) game
    rw [same]
    exact ⟨fun _ known => known,fun _ known => .inl known⟩
  | tick ticked =>
    rw [(tick_players ticked).1]
    exact ⟨fun _ known => known,fun _ known => .inl known⟩
  | @request conn bytes beyond _ c s player member found effect _ =>
    have either : players t = players w ∨ players t = (players w).insert s.sessionID (some w.game.allocated) :=
      (effect_players effect).imp (fun kept => kept.2.1) (fun added => added.2.1)
    rcases either with same | inserted
    · rw [same]
      exact ⟨fun _ known => known,fun _ known => .inl known⟩
    · have own := session_id owned found
      have here : HasSession t c.sessionID := by
        refine hasSession_apply tags_next ⟨s,found⟩ ?_
        simp only [storeOp,member,ne_eq,reduceCtorEq,not_false_eq_true]
      rw [inserted]
      refine ⟨fun id known => Std.TreeMap.mem_insert.mpr (.inr known),fun id known => ?_⟩
      rcases Std.TreeMap.mem_insert.mp known with same | old
      · have id_same : c.sessionID = id := own.symm.trans (Std.LawfulEqCmp.eq_of_compare same)
        rw [← id_same]
        exact .inr here
      · exact .inl old

theorem matched_step {event : Event} (owned : w.Owned) (matched : Matched A w) (ran : w.step A event = .ok t) :
    Matched A t ↔ SparesPlayers w event := by
  obtain ⟨grow,new⟩ := step_players owned ran
  have tags_next := (step_tags ran).1
  rw [matched_owners] at matched ⊢
  constructor
  · intro owners id deleted known
    obtain ⟨tag,held⟩ := hasSession_tags.mp (owners id (grow id known))
    rw [tags_next,deleted] at held
    simp [StoreOp.apply] at held
  · intro spared id known
    rcases new id known with old | here
    · exact hasSession_apply tags_next (matched id old) fun deleted => spared id deleted old
    · exact here

theorem players_matched_iff (A : Arith) (rand : Rand) (events : List Event) :
    Runs.Always (World.step A) (Matched A) (World.make A rand) events ↔
      Runs.Steps (World.step A) SparesPlayers (World.make A rand) events := by
  refine Runs.always_iff_steps World.Owned (fun _ _ _ owned ran => owned_step owned ran)
    (fun _ _ _ owned matched ran => matched_step owned matched ran) (owned_make A rand) ?_ events
  rw [matched_owners,players_make]
  exact fun id known => absurd known Std.TreeMap.not_mem_emptyc

theorem close_leaves_player :
    ¬ Runs.Always (World.step .upright) (Matched .upright) (World.make .upright .zeros)
      (joinEvents ++ [.onRead 0 (.error .closed)]) := by
  obtain ⟨w,join,⟨c,conns,id,reading,_⟩,_,game⟩ := joined .upright .zeros
  have closed := onRead_error (A := .upright) 0 (by rw [conns]; rfl) reading .closed
  rw [if_pos rfl] at closed
  have ran := (Runs.run_append [.onRead 0 (.error .closed)] join).trans (Runs.bind_ok.mpr ⟨_,closed,rfl⟩)
  intro always
  have matched := always.last ran
  have known : (0 : UInt32) ∈ w.game.gUniverse.players := by
    rw [game]
    exact Std.TreeMap.mem_insert_self
  obtain ⟨s,found⟩ := matched.owners 0 known
  rw [id] at found
  simp [onClose,WebsockSessionManager.deleteById] at found

end Geoff.PlayerStore
