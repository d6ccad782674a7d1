import Geoff.TxStream

-- Who owns the bytes an async_write reads: the unique_ptrs of one session, with the
-- messages of its link named by the addresses of their AppBuffers.
namespace Geoff.TxMemory
open TxStream

-- `bytes` is what a buffer held when it was committed, `txBuff` the local of the
-- handler that runs.
structure Ownership where
  link : Link Nat
  bytes : Nat → List UInt8
  allocated : Nat
  running : Bool
  txBuff : Option Nat

inductive Handler where
  | posted
  | onRead
  | onWrite

-- A request handler commits inside on_read, before that looks at the queue: such a
-- commit comes ahead of its `enter onRead`. A handler is split where it returns and
-- its local dies.
inductive Event where
  | commit (bytes : List UInt8)
  | txReady
  | enter (handler : Handler)
  | leave

def Handler.event : Handler → TxStream.Event Nat
  | .posted => .posted
  | .onRead => .onRead []
  | .onWrite => .onWrite

namespace Ownership

def start (sessionID : UInt32) (callback : Nat) : Ownership := ⟨TxStream.start sessionID callback,fun _ => [],0,false,none⟩

def Held (o : Ownership) (address : Nat) : Prop := address ∈ o.link.session.txQue ∨ o.txBuff = some address

instance (o : Ownership) : DecidablePred o.Held := fun _ => inferInstanceAs (Decidable (_ ∨ _))

def inFlight (o : Ownership) : Option Nat := if o.link.conn.writing then o.link.conn.sent.getLast? else none

def step (o : Ownership) : Event → Except Fault Ownership
  | .commit bytes =>
    if o.running then .error .notPending
    else .ok {o with
      link := o.link.commit o.allocated, bytes := Function.update o.bytes o.allocated bytes, allocated := o.allocated + 1}
  | .txReady => if o.running then .error .notPending else do
    let link ← TxStream.step o.link .txReady
    return {o with link := link}
  | .enter handler => if o.running then .error .notPending else do
    let link ← TxStream.step o.link handler.event
    return {o with link := link, running := true, txBuff := (link.popped.drop o.link.popped.length).head?}
  | .leave => if o.running then .ok {o with running := false, txBuff := none} else .error .notPending

def Memory (o : Ownership) (memory : Nat → List UInt8) : Prop := ∀ address, o.Held address → memory address = o.bytes address

def Faithful (o : Ownership) : Prop := ∀ address, o.inFlight = some address →
  o.Held address ∧ ∀ memory, o.Memory memory → memory address = o.bytes address

def KeepsBuffer (o : Ownership) : Event → Prop
  | .leave => ∀ address, o.txBuff = some address → o.inFlight ≠ some address
  | _ => True

structure Tidy (o : Ownership) : Prop where
  issued : ∀ address ∈ o.link.session.txQue, address < o.allocated
  distinct : o.link.session.txQue.Nodup
  outstanding : o.link.conn.writing = o.link.conn.writeActive
  flight : o.link.conn.writing = true → ∃ address, o.link.conn.sent.getLast? = some address ∧ address < o.allocated ∧
    address ∉ o.link.session.txQue
  idle : o.running = false → o.txBuff = none

variable {o next : Ownership}

theorem faithful_held : o.Faithful ↔ ∀ address, o.inFlight = some address → o.Held address := by
  constructor
  · intro faithful address flight; exact (faithful address flight).1
  · intro held address flight
    exact ⟨held address flight,fun memory valid => valid address (held address flight)⟩

theorem inFlight_some {address : Nat} :
    o.inFlight = some address ↔ o.link.conn.writing = true ∧ o.link.conn.sent.getLast? = some address := by
  simp [inFlight]

-- Between two handlers nothing but the queue holds a buffer, and the buffer of an
-- active write has left the queue.
theorem faithful_quiet (tidy : o.Tidy) (quiet : o.txBuff = none) : o.Faithful ↔ o.link.conn.writing = false := by
  rw [faithful_held]
  constructor
  · intro held
    by_contra writing
    have writing : o.link.conn.writing = true := by simpa using writing
    obtain ⟨address,last,_,out⟩ := tidy.flight writing
    rcases held address (inFlight_some.mpr ⟨writing,last⟩) with queued | kept
    · exact out queued
    · rw [quiet] at kept; cases kept
  · intro ended address flight
    rw [(inFlight_some.mp flight).1] at ended
    cases ended

-- The part of a handler in front of the test of the queue: on_write clears the flag,
-- the posted callback is no longer pending.
theorem handler_ran {l sent : Link Nat} {handler : Handler} (ran : TxStream.step l handler.event = .ok sent) :
    ∃ conn, sent = Link.send {l with conn := conn} ∧ conn.sent = l.conn.sent ∧
      ((conn.writing = l.conn.writing ∧ conn.writeActive = l.conn.writeActive) ∨
        (l.conn.writing = true ∧ conn.writing = false ∧ conn.writeActive = false)) := by
  cases handler with
  | posted =>
    simp only [Handler.event,TxStream.step] at ran
    split at ran
    · cases ran
    · cases ran; exact ⟨_,rfl,rfl,.inl ⟨rfl,rfl⟩⟩
  | onRead =>
    simp only [Handler.event,TxStream.step] at ran
    split at ran
    · cases ran; exact ⟨_,rfl,rfl,.inl ⟨rfl,rfl⟩⟩
    · cases ran
  | onWrite =>
    simp only [Handler.event,TxStream.step] at ran
    split at ran
    · rename_i writing; cases ran; exact ⟨_,rfl,rfl,.inr ⟨writing,rfl,rfl⟩⟩
    · cases ran

theorem enter_ran {handler : Handler} (ran : o.step (.enter handler) = .ok next) : o.running = false ∧
    ∃ conn, conn.sent = o.link.conn.sent ∧
      ((conn.writing = o.link.conn.writing ∧ conn.writeActive = o.link.conn.writeActive) ∨
        (o.link.conn.writing = true ∧ conn.writing = false ∧ conn.writeActive = false)) ∧
      next = {o with
        link := Link.send {o.link with conn := conn}, running := true,
        txBuff := ((Link.send {o.link with conn := conn}).popped.drop o.link.popped.length).head?} := by
  simp only [step] at ran
  split at ran
  · cases ran
  · rename_i quiet
    obtain ⟨sent,one,result⟩ := Runs.bind_ok.mp ran
    obtain ⟨conn,rfl,same,flags⟩ := handler_ran one
    cases result
    exact ⟨by simpa using quiet,conn,same,flags,rfl⟩

theorem commit_tidy (tidy : o.Tidy) (bytes : List UInt8) : Tidy {o with
    link := o.link.commit o.allocated, bytes := Function.update o.bytes o.allocated bytes, allocated := o.allocated + 1} := by
  have fresh : o.allocated ∉ o.link.session.txQue := fun queued => Nat.lt_irrefl _ (tidy.issued _ queued)
  refine ⟨?_,?_,tidy.outstanding,?_,tidy.idle⟩
  · intro address queued
    rcases List.mem_append.mp queued with old | new
    · exact Nat.lt_succ_of_lt (tidy.issued address old)
    · rw [List.mem_singleton.mp new]; exact Nat.lt_succ_self _
  · exact List.nodup_append.mpr ⟨tidy.distinct,List.nodup_singleton _,fun old queued new added same =>
      fresh (by rwa [← List.mem_singleton.mp added,← same])⟩
  · intro writing
    obtain ⟨address,flight,bound,out⟩ := tidy.flight writing
    refine ⟨address,flight,Nat.lt_succ_of_lt bound,fun queued => ?_⟩
    rcases List.mem_append.mp queued with old | new
    · exact out old
    · rw [List.mem_singleton.mp new] at bound; exact Nat.lt_irrefl _ bound

theorem enter_tidy {handler : Handler} (tidy : o.Tidy) (ran : o.step (.enter handler) = .ok next) : next.Tidy := by
  obtain ⟨_,conn,same,flags,rfl⟩ := enter_ran ran
  have outstanding : conn.writing = conn.writeActive := by
    rcases flags with ⟨writing,active⟩ | ⟨_,writing,active⟩
    · rw [writing,active,tidy.outstanding]
    · rw [writing,active]
  have flight : conn.writing = true → ∃ address, conn.sent.getLast? = some address ∧ address < o.allocated ∧
      address ∉ o.link.session.txQue := by
    intro writing
    rcases flags with ⟨kept,_⟩ | ⟨_,ended,_⟩
    · rw [same]; exact tidy.flight (kept.symm.trans writing)
    · rw [ended] at writing; cases writing
  -- a pop takes the head of a queue of distinct addresses
  have popped : ∀ head rest, o.link.session.txQue = head :: rest →
      (∀ address ∈ rest, address < o.allocated) ∧ rest.Nodup ∧ head < o.allocated ∧ head ∉ rest := by
    intro head rest queued
    have issued := tidy.issued
    have distinct := tidy.distinct
    rw [queued] at issued distinct
    obtain ⟨fresh,distinct⟩ := List.nodup_cons.mp distinct
    exact ⟨fun address member => issued address (List.mem_cons_of_mem _ member),distinct,issued head List.mem_cons_self,fresh⟩
  rcases send_cases {o.link with conn := conn} with ⟨empty,sent⟩ | ⟨head,rest,queued,active,sent⟩ |
      ⟨head,rest,queued,idle,sent⟩
  · rw [sent]
    exact ⟨tidy.issued,tidy.distinct,outstanding,flight,fun quiet => by cases quiet⟩
  · rw [sent]
    have queued : o.link.session.txQue = head :: rest := queued
    obtain ⟨issued,distinct,_,_⟩ := popped head rest queued
    refine ⟨issued,distinct,outstanding,fun writing => ?_,fun quiet => by cases quiet⟩
    obtain ⟨address,last,bound,out⟩ := flight writing
    rw [queued] at out
    exact ⟨address,last,bound,fun member => out (List.mem_cons_of_mem _ member)⟩
  · rw [sent]
    obtain ⟨issued,distinct,bound,fresh⟩ := popped head rest queued
    exact ⟨issued,distinct,rfl,fun _ => ⟨head,by simp,bound,fresh⟩,fun quiet => by cases quiet⟩

theorem tidy_step {event : Event} (tidy : o.Tidy) (ran : o.step event = .ok next) : next.Tidy := by
  cases event with
  | commit bytes =>
    simp only [step] at ran
    split at ran
    · cases ran
    · cases ran
      exact commit_tidy tidy bytes
  | txReady =>
    simp only [step] at ran
    split at ran
    · cases ran
    · obtain ⟨link,one,result⟩ := Runs.bind_ok.mp ran
      cases result
      simp only [TxStream.step] at one
      split at one
      · cases one; exact ⟨tidy.issued,tidy.distinct,tidy.outstanding,tidy.flight,tidy.idle⟩
      · cases one; exact tidy
  | enter handler => exact enter_tidy tidy ran
  | leave =>
    simp only [step] at ran
    split at ran
    · cases ran; exact ⟨tidy.issued,tidy.distinct,tidy.outstanding,tidy.flight,fun _ => rfl⟩
    · cases ran

theorem faithful_step {event : Event} (tidy : o.Tidy) (faithful : o.Faithful) (ran : o.step event = .ok next) :
    next.Faithful ↔ o.KeepsBuffer event := by
  have next_tidy := tidy_step tidy ran
  cases event with
  | commit bytes =>
    simp only [step] at ran
    split at ran
    · cases ran
    · rename_i quiet
      cases ran
      have none_ := tidy.idle (by simpa using quiet)
      exact ⟨fun _ => trivial,fun _ => (faithful_quiet next_tidy none_).mpr ((faithful_quiet tidy none_).mp faithful)⟩
  | txReady =>
    simp only [step] at ran
    split at ran
    · cases ran
    · rename_i quiet
      have none_ := tidy.idle (by simpa using quiet)
      have ended := (faithful_quiet tidy none_).mp faithful
      obtain ⟨link,one,result⟩ := Runs.bind_ok.mp ran
      cases result
      refine ⟨fun _ => trivial,fun _ => (faithful_quiet next_tidy none_).mpr ?_⟩
      simp only [TxStream.step] at one
      split at one
      · cases one; exact ended
      · cases one; exact ended
  | enter handler =>
    obtain ⟨quiet,conn,_,flags,rfl⟩ := enter_ran ran
    refine ⟨fun _ => trivial,fun _ => faithful_held.mpr ?_⟩
    have ended := (faithful_quiet tidy (tidy.idle quiet)).mp faithful
    have writing : conn.writing = false := by
      rcases flags with ⟨kept,_⟩ | ⟨_,cleared,_⟩
      · rw [kept,ended]
      · exact cleared
    intro address flight
    rcases send_cases {o.link with conn := conn} with ⟨_,sent⟩ | ⟨_,_,_,_,sent⟩ | ⟨head,rest,_,_,sent⟩
    · have active := (inFlight_some.mp flight).1
      simp only [sent,writing] at active
      cases active
    · have active := (inFlight_some.mp flight).1
      simp only [sent,writing] at active
      cases active
    · have last := (inFlight_some.mp flight).2
      simp only [sent,List.getLast?_append,List.getLast?_singleton,Option.some_or] at last
      refine .inr ?_
      simp only [sent,List.drop_left,List.head?_cons]
      exact last
  | leave =>
    simp only [step] at ran
    split at ran
    · cases ran
      rw [faithful_quiet next_tidy rfl]
      constructor
      · intro ended address _ flight
        have active := (inFlight_some.mp flight).1
        rw [ended] at active
        cases active
      · intro keeps
        by_contra writing
        have writing : o.link.conn.writing = true := by simpa using writing
        obtain ⟨address,last,_,out⟩ := tidy.flight writing
        have flight := inFlight_some.mpr ⟨writing,last⟩
        rcases faithful_held.mp faithful address flight with queued | kept
        · exact out queued
        · exact keeps address kept flight
    · cases ran

theorem tidy_start (sessionID : UInt32) (callback : Nat) : (start sessionID callback).Tidy :=
  ⟨by simp [start,TxStream.start,WebsockSession.make],by simp [start,TxStream.start,WebsockSession.make],rfl,
    by simp [start,TxStream.start,WebsocketSession.accepted],fun _ => rfl⟩

theorem bytes_faithful_iff (sessionID : UInt32) (callback : Nat) (events : List Event) :
    Runs.Always step Faithful (start sessionID callback) events ↔
      Runs.Steps step KeepsBuffer (start sessionID callback) events := by
  refine Runs.always_iff_steps Tidy (fun _ _ _ tidy ran => tidy_step tidy ran)
    (fun _ _ _ tidy faithful ran => faithful_step tidy faithful ran) (tidy_start sessionID callback) ?_ events
  exact (faithful_quiet (tidy_start sessionID callback) rfl).mpr rfl

def firstMessage : List Event := [.commit [0xBB],.txReady,.enter .posted,.leave]

theorem first_buffer_freed : ¬ Runs.Always step Faithful (start 0 0) firstMessage := by
  intro always
  obtain ⟨o,ran,flight,free⟩ : ∃ o, Runs.run step (start 0 0) firstMessage = .ok o ∧ o.inFlight = some 0 ∧ ¬ o.Held 0 :=
    ⟨_,rfl,rfl,by decide⟩
  have faithful := always.last ran
  exact free (faithful_held.mp faithful 0 flight)

end Ownership
end Geoff.TxMemory
