import Geoff.TxStream

-- Who wakes the sender of a queue that still holds messages: the completion of an
-- active write, or a callback that a tick has posted.
namespace Geoff.TxWake
open TxStream
variable {Msg : Type}

-- What runs on the io thread from one quiet moment to the next: a timer tick, which
-- commits any messages and ends with Session::TickEvent calling OnTxReady, or one
-- strand handler.
inductive Turn (Msg : Type) where
  | tick (messages : List Msg)
  | posted
  | onRead (replies : List Msg)
  | onWrite

def Turn.events : Turn Msg → List (Event Msg)
  | .tick messages => messages.map .commit ++ [.txReady]
  | .posted => [.posted]
  | .onRead replies => [.onRead replies]
  | .onWrite => [.onWrite]

def turn (l : Link Msg) (t : Turn Msg) : Except Fault (Link Msg) := Runs.run step l t.events

def Awake (l : Link Msg) : Prop :=
  l.session.txQue ≠ [] → (l.conn.writeActive = true ∧ l.conn.writing = true) ∨ 0 < l.conn.posted

structure Draining (l : Link Msg) : Prop where
  outstanding : l.conn.writing = l.conn.writeActive
  callback : l.session.txReadyCallback.isSome = true
  awake : Awake l

theorem send_outstanding {l : Link Msg} (outstanding : l.conn.writing = l.conn.writeActive) :
    l.send.conn.writing = l.send.conn.writeActive := by
  rcases send_cases l with ⟨_,sent⟩ | ⟨_,_,_,_,sent⟩ | ⟨_,_,_,_,sent⟩
  · rw [sent]; exact outstanding
  · rw [sent]; exact outstanding
  · rw [sent]

theorem send_callback (l : Link Msg) : l.send.session.txReadyCallback = l.session.txReadyCallback := by
  rcases send_cases l with ⟨_,sent⟩ | ⟨_,_,_,_,sent⟩ | ⟨_,_,_,_,sent⟩
  · rw [sent]
  · rw [sent]
  · rw [sent]

theorem send_active {l : Link Msg} (left : l.send.session.txQue ≠ []) : l.send.conn.writeActive = true := by
  rcases send_cases l with ⟨empty,sent⟩ | ⟨_,_,_,active,sent⟩ | ⟨_,_,_,_,sent⟩
  · rw [sent] at left
    exact absurd empty left
  · rw [sent]; exact active
  · rw [sent]

theorem send_draining {l : Link Msg} (outstanding : l.conn.writing = l.conn.writeActive)
    (callback : l.session.txReadyCallback.isSome = true) : Draining l.send := by
  have same := send_outstanding outstanding
  refine ⟨same,by rw [send_callback]; exact callback,fun left => .inl ?_⟩
  have active := send_active left
  exact ⟨active,same.trans active⟩

-- The commits of a tick move nothing; the OnTxReady behind them posts.
theorem tick_run {l : Link Msg} (callback : l.session.txReadyCallback.isSome = true) (messages : List Msg) :
    turn l (.tick messages) = .ok {messages.foldl Link.commit l with
      conn := {l.conn with posted := l.conn.posted + 1}} := by
  induction messages generalizing l with
  | nil => simp [turn,Turn.events,Runs.run_cons,step,callback]
  | cons message rest ih =>
    have later := ih (l := l.commit message) callback
    rw [turn,Turn.events] at later ⊢
    rw [List.map_cons,List.cons_append,Runs.run_cons]
    exact later

theorem turn_draining {l next : Link Msg} {t : Turn Msg} (draining : Draining l) (ran : turn l t = .ok next) :
    Draining next := by
  obtain ⟨outstanding,callback,_⟩ := draining
  cases t with
  | tick messages =>
    rw [tick_run callback] at ran
    cases ran
    rw [commit_all]
    exact ⟨outstanding,callback,fun _ => .inr (Nat.succ_pos _)⟩
  | posted =>
    simp only [turn,Turn.events,Runs.run_single,step] at ran
    split at ran
    · cases ran
    · cases ran
      exact send_draining outstanding callback
  | onRead replies =>
    simp only [turn,Turn.events,Runs.run_single,step] at ran
    split at ran
    · cases ran
      rw [commit_all]
      exact send_draining outstanding callback
    · cases ran
  | onWrite =>
    simp only [turn,Turn.events,Runs.run_single,step] at ran
    split at ran
    · cases ran
      exact send_draining rfl callback
    · cases ran

theorem never_stuck (sessionID : UInt32) (callback : Nat) (turns : List (Turn Msg)) :
    Runs.Always turn Awake (start sessionID callback) turns := by
  have draining : Runs.Always turn Draining (start sessionID callback : Link Msg) turns :=
    Runs.always_invariant (fun _ _ _ draining ran => turn_draining draining ran)
      ⟨rfl,rfl,fun left => absurd rfl left⟩ turns
  exact draining.imp fun _ draining => draining.awake

end Geoff.TxWake
