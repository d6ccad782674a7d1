import Geoff.AppBuffer
import Geoff.WebsockSession

namespace Geoff.TxStream
variable {Msg : Type}

-- One websocket_session with its WebsockSession. `committed` and `popped` are
-- histories: what CommitTxBuffer was given, what GetNextTxBuffer gave out.
structure Link (Msg : Type) where
  conn : WebsocketSession Msg
  session : WebsockSession Msg
  committed : List Msg
  popped : List Msg
deriving DecidableEq

-- The strand handlers run to completion, one at a time. `onRead` carries what its
-- CommsHandler call commits, `commit` is a CommitTxBuffer call from anywhere else,
-- `txReady` the OnTxReady call that ends Session::TickEvent.
inductive Event (Msg : Type) where
  | commit (buffer : Msg)
  | txReady
  | posted
  | onRead (replies : List Msg)
  | onWrite

def start (sessionID : UInt32) (callback : Nat) : Link Msg :=
  ⟨.accepted sessionID,{WebsockSession.make sessionID with txReadyCallback := some callback},[],[]⟩

def Link.commit (l : Link Msg) (buffer : Msg) : Link Msg :=
  {l with session := l.session.commitTxBuffer buffer, committed := l.committed ++ [buffer]}

def Link.send (l : Link Msg) : Link Msg :=
  let (conn,session) := l.conn.sendNext l.session
  {l with conn := conn, session := session, popped := l.popped ++ l.session.txQue.take 1}

def step (l : Link Msg) : Event Msg → Except Fault (Link Msg)
  | .commit buffer => .ok (l.commit buffer)
  | .txReady =>
    if l.session.txReadyCallback.isSome then .ok {l with conn := {l.conn with posted := l.conn.posted + 1}}
    else .ok l
  | .posted =>
    if l.conn.posted = 0 then .error .notPending
    else .ok {l with conn := {l.conn with posted := l.conn.posted - 1}}.send
  | .onRead replies =>
    if l.conn.reading then .ok (replies.foldl Link.commit l).send else .error .notPending
  | .onWrite =>
    if l.conn.writing then .ok {l with conn := l.conn.writeDone}.send else .error .notPending

def Intact (l : Link Msg) : Prop :=
  l.popped = l.conn.sent ∧ l.conn.sent ++ l.session.txQue = l.committed

instance [DecidableEq Msg] : DecidablePred (@Intact Msg) :=
  fun _ => inferInstanceAs (Decidable (_ ∧ _))

-- Before a pop by on_read or the posted callback no write may be active; on_write
-- has just cleared the flag.
def Idle (l : Link Msg) : Event Msg → Prop
  | .posted => l.session.txQue = [] ∨ l.conn.writeActive = false
  | .onRead replies => l.session.txQue ++ replies = [] ∨ l.conn.writeActive = false
  | _ => True

theorem commit_all (replies : List Msg) (l : Link Msg) : replies.foldl Link.commit l =
    {l with session := {l.session with txQue := l.session.txQue ++ replies}, committed := l.committed ++ replies} := by
  induction replies generalizing l with
  | nil => simp
  | cons reply rest ih => simp [ih,Link.commit,WebsockSession.commitTxBuffer]

theorem send_empty {l : Link Msg} (empty : l.session.txQue = []) : l.send = l := by
  simp [Link.send,empty]

theorem send_cons {l : Link Msg} {head : Msg} {rest : List Msg} (queued : l.session.txQue = head :: rest) :
    l.send = {l with
      conn := l.conn.doWrite head, session := {l.session with txQue := rest}, popped := l.popped ++ [head]} := by
  simp [Link.send,WebsocketSession.sendNext_cons l.conn queued,queued]

theorem send_cases (l : Link Msg) : (l.session.txQue = [] ∧ l.send = l) ∨
    (∃ head rest, l.session.txQue = head :: rest ∧ l.conn.writeActive = true ∧
      l.send = {l with session := {l.session with txQue := rest}, popped := l.popped ++ [head]}) ∨
    (∃ head rest, l.session.txQue = head :: rest ∧ l.conn.writeActive = false ∧
      l.send = {l with
        conn := {l.conn with writeActive := true, writing := true, sent := l.conn.sent ++ [head]},
        session := {l.session with txQue := rest}, popped := l.popped ++ [head]}) := by
  cases queued : l.session.txQue with
  | nil => exact .inl ⟨rfl,send_empty queued⟩
  | cons head rest =>
    cases active : l.conn.writeActive with
    | true =>
      refine .inr (.inl ⟨head,rest,rfl,rfl,?_⟩)
      rw [send_cons queued,WebsocketSession.doWrite_active active]
    | false =>
      refine .inr (.inr ⟨head,rest,rfl,rfl,?_⟩)
      rw [send_cons queued,WebsocketSession.doWrite_idle active]

-- The pop hands its buffer over exactly when no write is active; otherwise the
-- buffer dies with the handler's local and the two histories part.
theorem send_intact {l : Link Msg} (intact : Intact l) :
    Intact l.send ↔ l.session.txQue = [] ∨ l.conn.writeActive = false := by
  cases queued : l.session.txQue with
  | nil => simpa [send_empty queued] using intact
  | cons head rest =>
    obtain ⟨same,whole⟩ := intact
    rw [queued] at whole
    cases active : l.conn.writeActive with
    | true =>
      simp [send_cons queued,WebsocketSession.doWrite_active active,Intact,same]
    | false =>
      simp [send_cons queued,WebsocketSession.doWrite_idle active,Intact,same,← whole]

theorem step_intact {l next : Link Msg} {event : Event Msg} (intact : Intact l)
    (ran : step l event = .ok next) : Intact next ↔ Idle l event := by
  cases event with
  | commit buffer =>
    cases ran
    refine ⟨fun _ => trivial,fun _ => ⟨intact.1,?_⟩⟩
    simp only [Link.commit,WebsockSession.commitTxBuffer,← intact.2,List.append_assoc]
  | txReady =>
    simp only [step] at ran
    split at ran
    · cases ran; exact ⟨fun _ => trivial,fun _ => intact⟩
    · cases ran; exact ⟨fun _ => trivial,fun _ => intact⟩
  | posted =>
    simp only [step] at ran
    split at ran
    · cases ran
    · cases ran
      exact send_intact intact
  | onRead replies =>
    simp only [step] at ran
    split at ran
    · cases ran
      rw [commit_all]
      refine send_intact ⟨intact.1,?_⟩
      simp only [← intact.2,List.append_assoc]
    · cases ran
  | onWrite =>
    simp only [step] at ran
    split at ran
    · cases ran
      have cleared : Intact {l with conn := l.conn.writeDone} := intact
      exact ⟨fun _ => trivial,fun _ => (send_intact cleared).mpr (.inr rfl)⟩
    · cases ran

theorem start_intact (sessionID : UInt32) (callback : Nat) : Intact (start sessionID callback : Link Msg) :=
  ⟨rfl,rfl⟩

theorem stream_intact_iff_idle (sessionID : UInt32) (callback : Nat) (events : List (Event Msg)) :
    Runs.Always step Intact (start sessionID callback) events ↔
      Runs.Steps step Idle (start sessionID callback) events :=
  Runs.always_iff_steps (fun _ => True) (fun _ _ _ _ _ => trivial)
    (fun _ _ _ _ intact ran => step_intact intact ran) trivial (start_intact sessionID callback) events

-- Two messages committed by one tick; the posted callback starts writing the
-- first, then a client message arrives and on_read pops the second.
theorem read_during_write_drops :
    ¬ Runs.Always step Intact (start 0 0) [.commit 1,.commit 2,.txReady,.posted,.onRead []] := by
  decide

end Geoff.TxStream
