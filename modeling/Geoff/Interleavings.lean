import Geoff.ConnectionSteps
import Geoff.DeadPlayer
import Geoff.Journal
import Geoff.SessionIds
import Geoff.Traces

-- The orders in which the events of several connections can come: what the server
-- makes of them depends on each connection's own order, and between two ticks only on
-- the orders of the accepts, of the registrations and of the clicks besides.
namespace Geoff.Interleavings
open World PlayerStore DeadPlayer

variable {A : Arith} {w t u : World}

inductive Lane where
  | connection (conn : Nat)
  | accepts
  | registrations
  | clicks

def lane : Lane → Event → Bool
  | _,.tick => true
  | .connection conn,event => event.conn = some conn
  | .accepts,event => match event with
    | .accept => true
    | _ => false
  | .registrations,event => event.asksFor .registerSession
  | .clicks,event => event.asksFor .clickEvent

-- Two servers that agree on everything but the shape of the tree of sessions.
structure Same (w t : World) : Prop where
  conns : t.conns = w.conns
  entry : t.entry = w.entry
  game : t.game = w.game
  next : t.gSessions.sessionId = w.gSessions.sessionId

theorem Same.refl (w : World) : Same w w := ⟨rfl,rfl,rfl,rfl⟩

theorem Same.symm (same : Same w t) : Same t w := ⟨same.conns.symm,same.entry.symm,same.game.symm,same.next.symm⟩

theorem Same.trans (first : Same w t) (second : Same t u) : Same w u :=
  ⟨second.conns.trans first.conns,second.entry.trans first.entry,second.game.trans first.game,second.next.trans first.next⟩

section Deeds
variable {g : Game}

theorem join_steer {address : Nat} (old : address < g.allocated) (id : UInt32) (w h : UInt16) (change : Size → Player → Player) :
    (Deed.steer address change).apply A ((Deed.join id w h).apply A g) =
      (Deed.join id w h).apply A ((Deed.steer address change).apply A g) := by
  have apart : address ≠ g.allocated := by omega
  simp only [Deed.apply,Game.newPlayer,Game.setPlayer,Function.update_of_ne apart]
  rw [Function.update_comm apart.symm]

theorem join_launch {address : Nat} (old : address < g.allocated) (id : UInt32) (w h x y : UInt16) :
    (Deed.launch address x y).apply A ((Deed.join id w h).apply A g) =
      (Deed.join id w h).apply A ((Deed.launch address x y).apply A g) := by
  have apart : address ≠ g.allocated := by omega
  simp only [Deed.apply,Game.newPlayer,Game.launchRock,Function.update_of_ne apart]

theorem steer_steer {address other : Nat} (apart : address ≠ other) (change change' : Size → Player → Player) :
    (Deed.steer other change').apply A ((Deed.steer address change).apply A g) =
      (Deed.steer address change).apply A ((Deed.steer other change').apply A g) := by
  simp only [Deed.apply,Game.setPlayer,Function.update_of_ne apart,Function.update_of_ne apart.symm]
  rw [Function.update_comm apart]

theorem steer_launch {address other : Nat} (apart : address ≠ other) (change : Size → Player → Player) (x y : UInt16) :
    (Deed.launch other x y).apply A ((Deed.steer address change).apply A g) =
      (Deed.steer address change).apply A ((Deed.launch other x y).apply A g) := by
  simp only [Deed.apply,Game.setPlayer,Game.launchRock,Function.update_of_ne apart.symm]

theorem deeds_commute {d e : Deed} (oldD : ∀ address, d.player = some address → address < g.allocated)
    (oldE : ∀ address, e.player = some address → address < g.allocated)
    (apart : ∀ address, d.player = some address → e.player ≠ some address)
    (joins : d.joins = true → e.joins = false) (launches : d.launches = true → e.launches = false) :
    e.apply A (d.apply A g) = d.apply A (e.apply A g) := by
  cases d with
  | idle => rfl
  | join id w h =>
    cases e with
    | idle => rfl
    | join => cases joins rfl
    | steer address change => exact join_steer (oldE address rfl) id w h change
    | launch address x y => exact join_launch (oldE address rfl) id w h x y
  | steer address change =>
    cases e with
    | idle => rfl
    | join id w h => exact (join_steer (oldD address rfl) id w h change).symm
    | steer other change' =>
      refine steer_steer ?_ change change'
      intro same
      exact apart address rfl (congrArg some same.symm)
    | launch other x y =>
      refine steer_launch ?_ change x y
      intro same
      exact apart address rfl (congrArg some same.symm)
  | launch address x y =>
    cases e with
    | idle => rfl
    | join id w h => exact (join_launch (oldD address rfl) id w h x y).symm
    | steer other change =>
      refine (steer_launch ?_ change x y).symm
      intro same
      exact apart address rfl (congrArg some same)
    | launch => cases launches rfl

theorem apply_stars (d : Deed) (g : Game) : (d.apply A g).gUniverse.stars = g.gUniverse.stars := by
  cases d <;> rfl

theorem apply_allocated {d : Deed} (stays : d.joins = false) (g : Game) : (d.apply A g).allocated = g.allocated := by
  cases d with
  | join => cases stays
  | idle => rfl
  | steer => rfl
  | launch => rfl

end Deeds

structure Numbered (w : World) : Prop where
  ids : w.connIDs = (List.range w.conns.length).map UInt32.ofNat
  next : w.gSessions.sessionId = UInt32.ofNat w.conns.length

structure Accepted (w t : World) : Prop where
  conns : t.conns = w.conns ++ [.accepted w.gSessions.sessionId]
  entry : t.entry = Function.update w.entry w.gSessions.sessionId (some (some w.acceptedSession))
  game : t.game = w.game
  next : t.gSessions.sessionId = w.gSessions.sessionId + 1

theorem accept_accepted (A : Arith) (w : World) : ∃ t, w.step A .accept = .ok t ∧ Accepted w t := by
  refine ⟨_,w.onAccept_ok,rfl,?_,rfl,SessionIds.next_id _⟩
  funext id
  by_cases own : id = w.gSessions.sessionId
  · subst own
    simp [entry,WebsockSessionManager.update]
  · rw [Function.update_of_ne own]
    simp [entry,WebsockSessionManager.update,WebsockSessionManager.addSession,Std.TreeMap.getElem?_insert,Ne.symm own]

theorem onTxReady_next {s : Session} (ran : w.onTxReady s = .ok t) : t.gSessions.sessionId = w.gSessions.sessionId := by
  unfold onTxReady at ran
  split at ran
  · cases ran; rfl
  · split at ran
    · cases ran
    · split at ran
      · cases ran
      · cases ran; rfl

theorem timerRound_next {id : UInt32} (ran : w.timerRound A id = .ok t) :
    t.gSessions.sessionId = w.gSessions.sessionId := by
  unfold timerRound at ran
  split at ran
  · obtain ⟨⟨s,game⟩,_,ran⟩ := Runs.bind_ok.mp ran
    have kept := onTxReady_next ran
    exact kept
  · cases ran; rfl

theorem tickEvent_next (ran : w.tickEvent A = .ok t) : t.gSessions.sessionId = w.gSessions.sessionId := by
  unfold tickEvent at ran
  split at ran
  · cases ran; rfl
  · obtain ⟨⟨game,sessions⟩,_,rounds⟩ := Runs.bind_ok.mp ran
    have kept := Runs.run_relates (r := fun (w t : World) => t.gSessions.sessionId = w.gSessions.sessionId)
      (fun _ => rfl) (fun _ _ _ first second => second.trans first) (fun _ _ _ _ one => timerRound_next one) rounds
    exact kept

theorem step_next {event : Event} (other : event ≠ .accept) (ran : w.step A event = .ok t) :
    t.gSessions.sessionId = w.gSessions.sessionId := by
  cases own : event.conn with
  | some conn =>
    obtain ⟨c,after,_,_,placed⟩ := step_placed own ran
    exact placed.next
  | none =>
    rcases Event.conn_none own with rfl | rfl
    · exact absurd rfl other
    · exact tickEvent_next ran

theorem step_ids {event : Event} (other : event ≠ .accept) (ran : w.step A event = .ok t) : t.connIDs = w.connIDs := by
  have none_opened : (w.storeOp event).opened = [] :=
    List.eq_nil_iff_forall_not_mem.mpr fun id => not_opened fun accept => absurd accept other
  rw [(step_tags ran).2,none_opened,List.append_nil]

theorem numbered_make (A : Arith) (rand : Rand) : Numbered (World.make A rand) := ⟨rfl,rfl⟩

theorem numbered_step {event : Event} (numbered : Numbered w) (ran : w.step A event = .ok t) : Numbered t := by
  by_cases accept : event = .accept
  · subst accept
    obtain ⟨t',one,accepted⟩ := accept_accepted A w
    cases one.symm.trans ran
    constructor
    · rw [connIDs,accepted.conns,List.map_append,List.length_append,List.length_singleton,List.range_succ,List.map_append]
      have own : w.connIDs ++ [w.gSessions.sessionId] =
          (List.range w.conns.length).map UInt32.ofNat ++ [UInt32.ofNat w.conns.length] := by
        rw [numbered.ids,numbered.next]
      exact own
    · rw [accepted.next,accepted.conns,numbered.next,List.length_append,List.length_singleton,UInt32.ofNat_add]
      rfl
  · have ids := step_ids accept ran
    have length := congrArg List.length ids
    simp only [connIDs,List.length_map] at length
    constructor
    · rw [ids,length]
      exact numbered.ids
    · rw [step_next accept ran,length]
      exact numbered.next

theorem Numbered.sessionID (numbered : Numbered w) {conn : Nat} {c : WebsocketSession AppBuffer}
    (member : w.conns[conn]? = some c) : c.sessionID = UInt32.ofNat conn ∧ conn < w.conns.length := by
  obtain ⟨inside,rfl⟩ := List.getElem?_eq_some_iff.mp member
  have here := congrArg (fun ids => ids[conn]?) numbered.ids
  simp [connIDs,inside] at here
  exact ⟨here,inside⟩

theorem ofNat_apart {i j : Nat} (small : i < 4294967296) (few : j < 4294967296) (apart : i ≠ j) :
    UInt32.ofNat i ≠ UInt32.ofNat j := by
  intro same
  have equal := congrArg UInt32.toNat same
  rw [UInt32.toNat_ofNat_of_lt' small,UInt32.toNat_ofNat_of_lt' few] at equal
  exact apart equal

structure Fair (w : World) : Prop where
  owned : w.Owned
  book : Book w
  numbered : Numbered w

theorem fair_make (A : Arith) (rand : Rand) : Fair (World.make A rand) :=
  ⟨owned_make A rand,book_make A rand,numbered_make A rand⟩

theorem fair_step {event : Event} (fair : Fair w) (ran : w.step A event = .ok t) : Fair t :=
  ⟨owned_step fair.owned ran,book_step fair.owned fair.book ran,numbered_step fair.numbered ran⟩

theorem deed_owner {event : Event} {id : UInt32} {address : Nat}
    (held : (deedOf A (w.entry id) event).player = some address) : w.playerOf id = some address := by
  rw [← deedOf_player held,World.playerOf,Geoff.playerOf,entry]
  cases w.gSessions.sessions[id]? with
  | none => rfl
  | some v => rfl

theorem deeds_apart {event other : Event} {id id' : UInt32} (fair : Fair w) (apart : id ≠ id')
    (joins : event.asksFor .registerSession = true → other.asksFor .registerSession = false)
    (clicks : event.asksFor .clickEvent = true → other.asksFor .clickEvent = false) :
    (deedOf A (w.entry id') other).apply A ((deedOf A (w.entry id) event).apply A w.game) =
      (deedOf A (w.entry id) event).apply A ((deedOf A (w.entry id') other).apply A w.game) := by
  have old : ∀ {id : UInt32} {event : Event} (address : Nat),
      (deedOf A (w.entry id) event).player = some address → address < w.game.allocated := by
    intro id event address held
    obtain ⟨_,same,bound⟩ := fair.book.issued id _ (fair.book.own id address (deed_owner held))
    cases same
    exact bound
  refine deeds_commute (fun _ held => old _ held) (fun _ held => old _ held) ?_ ?_ ?_
  · intro address first second
    exact apart (fair.book.distinct id id' address (fair.book.own id address (deed_owner first))
      (fair.book.own id' address (deed_owner second)))
  · intro first
    have alone := joins (deedOf_joins first)
    cases second : (deedOf A (w.entry id') other).joins with
    | false => rfl
    | true => rw [deedOf_joins second] at alone; cases alone
  · intro first
    have alone := clicks (deedOf_launches first)
    cases second : (deedOf A (w.entry id') other).launches with
    | false => rfl
    | true => rw [deedOf_launches second] at alone; cases alone

theorem serve_deed {event : Event} {conn : Nat} {c : WebsocketSession AppBuffer} {v : Option (Option Session)} {d : Deed}
    {g : Game} (alone : d.joins = true → event.asksFor .registerSession = false) :
    serve A (d.apply A g) conn c v event = serve A g conn c v event := by
  refine serve_game (apply_stars d g) fun asks => apply_allocated ?_ g
  cases joins : d.joins with
  | false => rfl
  | true => rw [alone joins] at asks; cases asks

theorem connections_swap {a b : Event} {i j : Nat} (fair : Fair w) (few : w.conns.length ≤ 4294967296)
    (ownA : a.conn = some i) (ownB : b.conn = some j) (apart : i ≠ j)
    (joins : a.asksFor .registerSession = true → b.asksFor .registerSession = false)
    (clicks : a.asksFor .clickEvent = true → b.asksFor .clickEvent = false)
    (one : w.step A a = .ok t) (two : t.step A b = .ok u) :
    ∃ t' u', w.step A b = .ok t' ∧ t'.step A a = .ok u' ∧ Same u u' := by
  have joins' : b.asksFor .registerSession = true → a.asksFor .registerSession = false := by
    intro asks
    cases other : a.asksFor .registerSession with
    | false => rfl
    | true => rw [joins other] at asks; cases asks
  obtain ⟨c,after,memberA,servedA,placed⟩ := step_placed ownA one
  obtain ⟨d,later,stillB,servedB,last⟩ := step_placed ownB two
  have memberB : w.conns[j]? = some d := by rwa [placed.conns,List.getElem?_set_ne apart] at stillB
  obtain ⟨idA,insideA⟩ := fair.numbered.sessionID memberA
  obtain ⟨idB,insideB⟩ := fair.numbered.sessionID memberB
  have keys : c.sessionID ≠ d.sessionID := by
    rw [idA,idB]
    exact ofNat_apart (by omega) (by omega) apart
  -- neither touches what the other finds
  have entryB : t.entry d.sessionID = w.entry d.sessionID := by rw [placed.entry,Function.update_of_ne keys.symm]
  rw [entryB,placed.game,serve_deed fun first => joins (deedOf_joins first)] at servedB
  obtain ⟨t',one',placed'⟩ := placed_step ownB memberB servedB
  have entryA : t'.entry c.sessionID = w.entry c.sessionID := by rw [placed'.entry,Function.update_of_ne keys]
  have stillA : t'.conns[i]? = some c := by rw [placed'.conns,List.getElem?_set_ne apart.symm,memberA]
  rw [← serve_deed fun first => joins' (deedOf_joins first),← placed'.game,← entryA] at servedA
  obtain ⟨u',two',last'⟩ := placed_step ownA stillA servedA
  refine ⟨t',u',one',two',?_,?_,?_,?_⟩
  · rw [last'.conns,placed'.conns,last.conns,placed.conns,List.set_comm _ _ apart]
  · rw [last'.entry,placed'.entry,last.entry,placed.entry,Function.update_comm keys]
  · rw [last'.game,entryA,placed'.game,last.game,entryB,placed.game]
    exact (deeds_apart fair keys joins clicks).symm
  · rw [last'.next,placed'.next,last.next,placed.next]

theorem accept_meets {b : Event} {j : Nat} {d : WebsocketSession AppBuffer}
    {later : WebsocketSession AppBuffer × Option (Option Session)} (fair : Fair w) (few : w.conns.length < 4294967296)
    (ownB : b.conn = some j) (memberB : w.conns[j]? = some d)
    (servedB : serve A w.game j d (w.entry d.sessionID) b = some later) :
    ∃ t u t' u', w.step A .accept = .ok t ∧ t.step A b = .ok u ∧ w.step A b = .ok t' ∧ t'.step A .accept = .ok u' ∧
      Same u u' := by
  obtain ⟨idB,insideB⟩ := fair.numbered.sessionID memberB
  have keys : w.gSessions.sessionId ≠ d.sessionID := by
    rw [idB,fair.numbered.next]
    exact ofNat_apart few (by omega) (by omega)
  obtain ⟨t,one,accepted⟩ := accept_accepted A w
  obtain ⟨t',one',placed⟩ := placed_step ownB memberB servedB
  have entryB : t.entry d.sessionID = w.entry d.sessionID := by rw [accepted.entry,Function.update_of_ne keys.symm]
  have stillB : t.conns[j]? = some d := by rw [accepted.conns,List.getElem?_append_left insideB,memberB]
  obtain ⟨u,two,last⟩ := placed_step (w := t) ownB stillB (by rw [entryB,accepted.game]; exact servedB)
  obtain ⟨u',two',last'⟩ := accept_accepted A t'
  have session : t'.acceptedSession = w.acceptedSession := by
    rw [acceptedSession,acceptedSession,placed.next,placed.conns,List.length_set]
  refine ⟨t,u,t',u',one,two,one',two',?_⟩
  constructor
  · rw [last'.conns,placed.next,placed.conns,last.conns,accepted.conns,List.set_append_left _ _ insideB]
  · rw [last'.entry,placed.next,placed.entry,session,last.entry,accepted.entry,Function.update_comm keys]
  · rw [last'.game,placed.game,last.game,entryB,accepted.game]
  · rw [last'.next,placed.next,last.next,accepted.next]

theorem Same.lookUp (same : Same w t) (id : UInt32) : t.gSessions.sessions[id]? = w.gSessions.sessions[id]? :=
  congrFun same.entry id

theorem same_maps {m n : SessionMap} (equal : ∀ id : UInt32, m[id]? = n[id]?) : m.toList = n.toList ∧ m.keys = n.keys := by
  have near : m.Equiv n := Std.TreeMap.Equiv.of_forall_constGet?_eq equal
  exact ⟨near.toList_eq,near.keys_eq⟩

theorem perSession_same {m n : SessionMap} (equal : m.toList = n.toList) (g : Game) (s : Session) :
    g.perSessionTickEvent A m s = g.perSessionTickEvent A n s := by
  unfold Game.perSessionTickEvent PerSession.ships PerSession.bullets
  rw [equal]

theorem insert_equal {m n : SessionMap} (equal : ∀ id : UInt32, m[id]? = n[id]?) (key : UInt32) (v : Option Session)
    (id : UInt32) : (m.insert key v)[id]? = (n.insert key v)[id]? := by
  rw [Std.TreeMap.getElem?_insert,Std.TreeMap.getElem?_insert,equal]

theorem tickSession_follows {g : Game} {m m' n : SessionMap} {id : UInt32} (equal : ∀ id : UInt32, m[id]? = n[id]?)
    (ran : g.tickSession A m id = .ok m') : ∃ n', g.tickSession A n id = .ok n' ∧ ∀ id : UInt32, m'[id]? = n'[id]? := by
  unfold Game.tickSession at ran ⊢
  rw [← equal id]
  split at ran
  · cases ran
    exact ⟨n,rfl,equal⟩
  · cases ran
  · rename_i s found
    cases player : s.player with
    | none =>
      simp only [player] at ran ⊢
      cases ran
      exact ⟨n,rfl,equal⟩
    | some address =>
      simp only [player] at ran ⊢
      obtain ⟨txBuff,built,result⟩ := Runs.bind_ok.mp ran
      cases result
      rw [perSession_same (same_maps equal).1] at built
      exact ⟨_,Runs.bind_ok.mpr ⟨txBuff,built,rfl⟩,insert_equal equal id _⟩

theorem tickSessions_follows {g : Game} {m m' n : SessionMap} {ids : List UInt32} (equal : ∀ id : UInt32, m[id]? = n[id]?)
    (ran : ids.foldlM (g.tickSession A) m = .ok m') :
    ∃ n', ids.foldlM (g.tickSession A) n = .ok n' ∧ ∀ id : UInt32, m'[id]? = n'[id]? := by
  have one : ∀ (m n : SessionMap) id m', (∀ id : UInt32, m[id]? = n[id]?) → g.tickSession A m id = .ok m' →
      ∃ n', g.tickSession A n id = .ok n' ∧ ∀ id : UInt32, m'[id]? = n'[id]? :=
    fun _ _ _ _ equal one => tickSession_follows equal one
  exact Runs.run_follows one equal ran

theorem onTxReady_follows {s : Session} (same : Same w t) (ran : w.onTxReady s = .ok u) :
    ∃ u', t.onTxReady s = .ok u' ∧ Same u u' := by
  unfold onTxReady at ran ⊢
  rw [same.conns]
  split at ran
  · cases ran
    exact ⟨t,rfl,same⟩
  · split at ran
    · cases ran
    · split at ran
      · cases ran
      · rename_i live
        cases ran
        rw [if_neg live]
        refine ⟨_,rfl,?_,same.entry,same.game,same.next⟩
        rw [setConn,setConn,same.conns]

theorem timerRound_follows {id : UInt32} (same : Same w t) (ran : w.timerRound A id = .ok u) :
    ∃ u', t.timerRound A id = .ok u' ∧ Same u u' := by
  unfold timerRound at ran ⊢
  rw [same.lookUp]
  split at ran
  · rename_i s found
    obtain ⟨⟨session,game⟩,ticked,ready⟩ := Runs.bind_ok.mp ran
    have written : Same {w with gSessions := w.gSessions.update id session, game := game}
        {t with gSessions := t.gSessions.update id session, game := game} :=
      ⟨same.conns,funext fun other => insert_equal same.lookUp id _ other,rfl,same.next⟩
    obtain ⟨u',ready',result⟩ := onTxReady_follows written ready
    refine ⟨u',Runs.bind_ok.mpr ⟨(session,game),?_,ready'⟩,result⟩
    rw [same.game]
    exact ticked
  · cases ran
    exact ⟨t,rfl,same⟩

theorem timerRounds_follows {ids : List UInt32} (same : Same w t) (ran : ids.foldlM (timerRound A) w = .ok u) :
    ∃ u', ids.foldlM (timerRound A) t = .ok u' ∧ Same u u' := by
  have one : ∀ w t id u, Same w t → timerRound A w id = .ok u → ∃ u', timerRound A t id = .ok u' ∧ Same u u' :=
    fun _ _ _ _ same one => timerRound_follows same one
  exact Runs.run_follows one same ran

theorem tickEvent_follows (same : Same w t) (ran : w.tickEvent A = .ok u) : ∃ u', t.tickEvent A = .ok u' ∧ Same u u' := by
  unfold tickEvent at ran ⊢
  rw [same.game]
  split at ran
  · rename_i stopped
    cases ran
    rw [if_pos stopped]
    exact ⟨t,rfl,same⟩
  · rename_i running
    rw [if_neg running]
    obtain ⟨⟨game,sessions⟩,ticked,rounds⟩ := Runs.bind_ok.mp ran
    obtain ⟨detected,collided,told⟩ := Runs.bind_ok.mp ticked
    obtain ⟨m,committed,result⟩ := Runs.bind_ok.mp told
    cases result
    -- the universe's messages, for the same sessions in the same order
    have equal : ∀ id : UInt32, w.gSessions.sessions[id]? = t.gSessions.sessions[id]? := fun id => (same.lookUp id).symm
    obtain ⟨n,committed',near⟩ := tickSessions_follows equal committed
    rw [(same_maps equal).2] at committed'
    have start : Same {w with game := game, gSessions := {w.gSessions with sessions := sessions}}
        {t with game := game, gSessions := {t.gSessions with sessions := n}} :=
      ⟨same.conns,funext fun id => (near id).symm,rfl,same.next⟩
    have moved : ∃ u', sessions.keys.foldlM (timerRound A)
        {t with game := game, gSessions := {t.gSessions with sessions := n}} = .ok u' ∧ Same u u' :=
      timerRounds_follows start rounds
    rw [(same_maps near).2] at moved
    obtain ⟨u',rounds',result⟩ := moved
    refine ⟨u',Runs.bind_ok.mpr ⟨(game,n),?_,?_⟩,result⟩
    · exact Runs.bind_ok.mpr ⟨game,collided,Runs.bind_ok.mpr ⟨n,committed',rfl⟩⟩
    · exact rounds'

theorem step_follows {event : Event} (same : Same w t) (ran : w.step A event = .ok u) :
    ∃ u', t.step A event = .ok u' ∧ Same u u' := by
  cases own : event.conn with
  | some conn =>
    obtain ⟨c,after,member,served,placed⟩ := step_placed own ran
    rw [← same.conns] at member
    rw [← same.entry,← same.game] at served
    obtain ⟨u',one,placed'⟩ := placed_step own member served
    refine ⟨u',one,?_,?_,?_,?_⟩
    · rw [placed'.conns,placed.conns,same.conns]
    · rw [placed'.entry,placed.entry,same.entry]
    · rw [placed'.game,placed.game,same.entry,same.game]
    · rw [placed'.next,placed.next,same.next]
  | none =>
    rcases Event.conn_none own with rfl | rfl
    · obtain ⟨u1,one,accepted⟩ := accept_accepted A w
      cases one.symm.trans ran
      obtain ⟨u',one',accepted'⟩ := accept_accepted A t
      have session : t.acceptedSession = w.acceptedSession := by
        rw [acceptedSession,acceptedSession,same.next,same.conns]
      refine ⟨u',one',?_,?_,?_,?_⟩
      · rw [accepted'.conns,accepted.conns,same.conns,same.next]
      · rw [accepted'.entry,accepted.entry,same.entry,same.next,session]
      · rw [accepted'.game,accepted.game,same.game]
      · rw [accepted'.next,accepted.next,same.next]
    · exact tickEvent_follows same ran

theorem accept_swap {b : Event} {j : Nat} (fair : Fair w) (few : w.conns.length < 4294967296) (ownB : b.conn = some j)
    (older : j < w.conns.length) (one : w.step A .accept = .ok t) (two : t.step A b = .ok u) :
    ∃ t' u', w.step A b = .ok t' ∧ t'.step A .accept = .ok u' ∧ Same u u' := by
  obtain ⟨t1,one1,accepted⟩ := accept_accepted A w
  cases one1.symm.trans one
  obtain ⟨d,later,member,served,_⟩ := step_placed ownB two
  rw [accepted.conns,List.getElem?_append_left older] at member
  obtain ⟨idB,_⟩ := fair.numbered.sessionID member
  have keys : d.sessionID ≠ w.gSessions.sessionId := by
    rw [idB,fair.numbered.next]
    exact ofNat_apart (by omega) few (by omega)
  rw [accepted.entry,Function.update_of_ne keys,accepted.game] at served
  obtain ⟨t2,u2,t',u',one2,two2,one',two',same⟩ := accept_meets fair few ownB member served
  cases one2.symm.trans one
  cases two2.symm.trans two
  exact ⟨t',u',one',two',same⟩

theorem swap_accept {a : Event} {i : Nat} (fair : Fair w) (few : w.conns.length < 4294967296) (ownA : a.conn = some i)
    (one : w.step A a = .ok t) (two : t.step A .accept = .ok u) :
    ∃ t' u', w.step A .accept = .ok t' ∧ t'.step A a = .ok u' ∧ Same u u' := by
  obtain ⟨c,after,member,served,_⟩ := step_placed ownA one
  obtain ⟨t',u',t2,u2,one',two',one2,two2,same⟩ := accept_meets fair few ownA member served
  cases one2.symm.trans one
  cases two2.symm.trans two
  exact ⟨t',u',one',two',same.symm⟩

def Reached (w : World) (event : Event) : Prop := ∀ conn, event.conn = some conn → conn < w.conns.length

def Few (w : World) : Prop := w.conns.length ≤ 4294967296

def opens : Event → Nat
  | .accept => 1
  | _ => 0

theorem step_opened {event : Event} (ran : w.step A event = .ok t) : t.conns.length = w.conns.length + opens event := by
  by_cases accept : event = .accept
  · subst accept
    obtain ⟨t1,one,accepted⟩ := accept_accepted A w
    cases one.symm.trans ran
    rw [accepted.conns,List.length_append]
    rfl
  · have length := congrArg List.length (step_ids accept ran)
    simp only [connIDs,List.length_map] at length
    rw [length]
    cases event with
    | accept => exact absurd rfl accept
    | tick => rfl
    | onRead => rfl
    | onWrite => rfl
    | posted => rfl

theorem step_grows {event : Event} (ran : w.step A event = .ok t) : w.conns.length ≤ t.conns.length := by
  rw [step_opened ran]
  exact Nat.le_add_right _ _

theorem lane_covered (event : Event) : ∃ k, lane k event = true := by
  cases event with
  | accept => exact ⟨.accepts,rfl⟩
  | tick => exact ⟨.accepts,rfl⟩
  | onRead conn result => exact ⟨.connection conn,by simp [lane,Event.conn]⟩
  | onWrite conn ec => exact ⟨.connection conn,by simp [lane,Event.conn]⟩
  | posted conn => exact ⟨.connection conn,by simp [lane,Event.conn]⟩

theorem tick_shares (event : Event) : ¬ Traces.Apart lane .tick event ∧ ¬ Traces.Apart lane event .tick := by
  obtain ⟨k,here⟩ := lane_covered event
  have always : lane k .tick = true := by cases k <;> rfl
  constructor
  · intro apart
    rw [apart k always] at here
    cases here
  · intro apart
    rw [apart k here] at always
    cases always

theorem lane_connection {event : Event} {conn : Nat} (own : event.conn = some conn) (k : Nat) :
    lane (.connection k) event = decide (conn = k) := by
  cases event <;> cases own <;> simp [lane,Event.conn]

theorem lane_asks {event : Event} {conn : Nat} (own : event.conn = some conn) :
    lane .registrations event = event.asksFor .registerSession ∧ lane .clicks event = event.asksFor .clickEvent := by
  cases event <;> cases own <;> exact ⟨rfl,rfl⟩

theorem step_swap {a b : Event} (fair : Fair w) (apart : Traces.Apart lane a b) (reached : Reached w b)
    (one : w.step A a = .ok t) (two : t.step A b = .ok u) (few : Few u) :
    ∃ t' u', w.step A b = .ok t' ∧ t'.step A a = .ok u' ∧ Same u u' := by
  have grown := step_grows one
  have further := step_grows two
  unfold Few at few
  cases ownA : a.conn with
  | some i =>
    cases ownB : b.conn with
    | some j =>
      refine connections_swap fair (by omega) ownA ownB ?_ ?_ ?_ one two
      · intro same
        have other := apart (.connection i) (by simp [lane_connection ownA])
        simp [lane_connection ownB,same] at other
      · rw [← (lane_asks ownA).1,← (lane_asks ownB).1]
        exact apart .registrations
      · rw [← (lane_asks ownA).2,← (lane_asks ownB).2]
        exact apart .clicks
    | none =>
      rcases Event.conn_none ownB with rfl | rfl
      · obtain ⟨u1,two1,accepted⟩ := accept_accepted A t
        cases two1.symm.trans two
        rw [accepted.conns,List.length_append,List.length_singleton] at few
        exact swap_accept fair (by omega) ownA one two
      · exact absurd apart (tick_shares a).2
  | none =>
    rcases Event.conn_none ownA with rfl | rfl
    · obtain ⟨t1,one1,accepted⟩ := accept_accepted A w
      cases one1.symm.trans one
      rw [accepted.conns,List.length_append,List.length_singleton] at further
      cases ownB : b.conn with
      | some j => exact accept_swap fair (by omega) ownB (reached j ownB) one two
      | none =>
        rcases Event.conn_none ownB with rfl | rfl
        · cases apart .accepts rfl
        · exact absurd apart (tick_shares .accept).2
    · exact absurd apart (tick_shares b).1

theorem server_commutes (A : Arith) : Traces.Commutes (step A) lane Same Reached Fair Few where
  refl := Same.refl
  trans := fun _ _ _ first second => first.trans second
  covered := lane_covered
  valid := fun _ _ _ fair ran => fair_step fair ran
  bounded := fun _ _ _ ran few => (step_grows ran).trans few
  respects := fun s t same few => by rwa [Few,same.conns]
  waits := fun _ _ _ _ reached ran conn own => (reached conn own).trans_le (step_grows ran)
  follows := fun _ _ _ _ same ran => step_follows same ran
  swaps := fun _ _ _ _ _ fair apart reached one two few => step_swap fair apart reached one two few

-- No event comes before the accept of its connection, with `n` accepted so far.
def Opened (n : Nat) : List Event → Prop
  | [] => True
  | event :: rest => (∀ conn, event.conn = some conn → conn < n) ∧ Opened (n + opens event) rest

theorem opened_served {events : List Event} (opened : Opened w.conns.length events) :
    Traces.Served (step A) Reached w events := by
  induction events generalizing w with
  | nil => trivial
  | cons event rest ih =>
    refine ⟨opened.1,fun t ran => ih ?_⟩
    rw [step_opened ran]
    exact opened.2

theorem run_opened {events : List Event} (ran : Runs.run (step A) w events = .ok t) : Opened w.conns.length events := by
  induction events generalizing w with
  | nil => trivial
  | cons event rest ih =>
    obtain ⟨next,one,tail⟩ := Runs.bind_ok.mp ran
    refine ⟨fun conn own => ?_,?_⟩
    · obtain ⟨c,_,member,_⟩ := step_placed own one
      exact (List.getElem?_eq_some_iff.mp member).1
    · rw [← step_opened one]
      exact ih tail

-- Another order of the same events runs just if no event comes before its connection,
-- and then the server ends up the same: every message queued or sent included.
theorem interleavings_agree (A : Arith) (rand : Rand) (xs ys : List Event) {t : World}
    (ran : Runs.run (step A) (World.make A rand) xs = .ok t) (few : t.conns.length ≤ 4294967296)
    (agree : Traces.Agree lane xs ys) : ((∃ u, Runs.run (step A) (World.make A rand) ys = .ok u) ↔ Opened 0 ys) ∧
      ∀ u, Runs.run (step A) (World.make A rand) ys = .ok u → Same t u := by
  have swapped : Opened 0 ys → ∃ u, Runs.run (step A) (World.make A rand) ys = .ok u ∧ Same t u := fun opened =>
    (server_commutes A).run_agrees (fair_make A rand) ran few agree (opened_served opened)
  constructor
  · constructor
    · rintro ⟨u,other⟩
      exact run_opened other
    · intro opened
      obtain ⟨u,other,_⟩ := swapped opened
      exact ⟨u,other⟩
  · intro u other
    obtain ⟨u',same_run,same⟩ := swapped (run_opened other)
    cases same_run.symm.trans other
    exact same

-- A second browser that presses a key before the first has registered, and after.
def keyPress : Event := .onRead 1 (.message [0xAB,0x04,1,38] fun _ => 0)

theorem keyPress_ok (A : Arith) {w : World} {c d : WebsocketSession AppBuffer} (conns : w.conns = [c,d])
    (reading : d.reading = true) : ∃ t, w.step A keyPress = .ok t ∧ t.conns.length = 2 := by
  have member : w.conns[1]? = some d := by rw [conns]; rfl
  have served : serve A w.game 1 d (w.entry d.sessionID) keyPress = some
      (pop d (some ((w.entry d.sessionID).join.map fun s => s.answered A w.game [0xAB,0x04,1,38] fun _ => 0))) :=
    if_pos reading
  obtain ⟨t,one,placed⟩ := placed_step rfl member served
  exact ⟨t,one,by rw [placed.conns,conns]; rfl⟩

theorem orders_agree : Traces.Agree lane (joinEvents ++ [.accept,keyPress])
    [.accept,.accept,keyPress,.onRead 0 (.message registerRequest fun _ => 0)] := by
  intro k
  cases k with
  | accepts => rfl
  | registrations => rfl
  | clicks => rfl
  | connection conn =>
    match conn with
    | 0 => rfl
    | 1 => rfl
    | conn + 2 => rfl

theorem joins_interleaved : ∃ t u, Runs.run (step .upright) (World.make .upright .zeros) (joinEvents ++ [.accept,keyPress]) = .ok t ∧
    Runs.run (step .upright) (World.make .upright .zeros)
      [.accept,.accept,keyPress,.onRead 0 (.message registerRequest fun _ => 0)] = .ok u ∧ Same t u := by
  obtain ⟨w,join,⟨c,conns,_⟩,_⟩ := joined .upright .zeros
  obtain ⟨v,one,accepted⟩ := accept_accepted .upright w
  obtain ⟨t,two,length⟩ := keyPress_ok .upright (w := v) (d := .accepted w.gSessions.sessionId)
    (by rw [accepted.conns,conns]; rfl) rfl
  have ran := (Runs.run_append [.accept,keyPress] join).trans
    (Runs.bind_ok.mpr ⟨v,one,(Runs.run_single v keyPress).trans two⟩)
  obtain ⟨runs,same⟩ := interleavings_agree .upright .zeros _ _ ran (by omega) orders_agree
  have opened : Opened 0 [.accept,.accept,keyPress,.onRead 0 (.message registerRequest fun _ => 0)] := by
    simp [Opened,opens,keyPress,Event.conn]
  obtain ⟨u,other⟩ := runs.mpr opened
  exact ⟨t,u,ran,other,same u other⟩

end Geoff.Interleavings
