import Geoff.HttpSession
import Geoff.ServedFiles

-- The responses of one connection: in the order of the requests, never two operations of a
-- kind at once, and none after the one that closes.
namespace Geoff.Http.HttpSession
open Pipelines

def line (s : HttpSession) : Line Response := ⟨s.items,s.sent⟩

structure Tidy (s : HttpSession) : Prop where
  size : s.items.length ≤ limit
  bound : ∀ close, s.writing = some close → ∃ front rest, s.items = front :: rest ∧ close = front.needEof
  room : s.reading = true → s.items.length < limit
  released : s.released = true → s.reading = false ∧ s.items.length < limit

inductive Turn (b : Build) (docRoot : Text) (s : HttpSession) : HttpEvent → HttpSession → Prop where
  | endOfStream : s.reading = true → s.released = false →
      Turn b docRoot s (.onRead .endOfStream) {s with reading := false, shut := true}
  | readError : s.reading = true → Turn b docRoot s (.onRead .error) {s with reading := false}
  | upgrade (req : Request) (files : Text → Opened) : s.reading = true → req.isUpgrade = true →
      Turn b docRoot s (.onRead (.request req files)) {s with reading := false, released := true}
  | request (req : Request) (files : Text → Opened) (msg : Response) : s.reading = true → s.released = false →
      req.isUpgrade = false → msg = handleRequest b req docRoot files →
      Turn b docRoot s (.onRead (.request req files)) {s with
        items := s.items ++ [msg],
        sent := (s.line.push msg).started,
        writing := if s.items = [] then some msg.needEof else s.writing,
        reading := decide (s.items.length + 1 < limit)}
  | writeError (close : Bool) : s.writing = some close → Turn b docRoot s (.onWrite true) {s with writing := none}
  | closed : s.writing = some true → s.released = false →
      Turn b docRoot s (.onWrite false) {s with writing := none, shut := true}
  | written (front : Response) (rest : List Response) : s.writing = some false → s.items = front :: rest →
      front.needEof = false → (rest = [] ∨ s.released = false) →
      Turn b docRoot s (.onWrite false) {s with
        items := rest,
        sent := s.line.finish.started,
        writing := rest.head?.map fun next => next.needEof,
        reading := s.reading || s.isFull}

variable {b : Build} {docRoot : Text} {s t : HttpSession}

theorem Tidy.idle (tidy : Tidy s) (empty : s.items = []) : s.writing = none := by
  cases writing : s.writing with
  | none => rfl
  | some close =>
    obtain ⟨front,rest,items,_⟩ := tidy.bound close writing
    rw [empty] at items
    cases items

theorem send_ok (idle : s.items = [] → s.writing = none) (owner : s.released = false) (msg : Response) :
    s.send msg = .ok {s with
      items := s.items ++ [msg],
      sent := (s.line.push msg).started,
      writing := if s.items = [] then some msg.needEof else s.writing} := by
  cases items : s.items with
  | nil => simp [send,writeFront,line,Line.push,items,owner,idle items]
  | cons front rest => simp [send,line,Line.push,items]

theorem queueOnWrite_ok (idle : s.writing = none) {front : Response} {rest : List Response} (items : s.items = front :: rest)
    (owner : rest = [] ∨ s.released = false) : s.queueOnWrite = .ok (s.isFull,{s with
      items := rest,
      sent := s.line.finish.started,
      writing := rest.head?.map fun next => next.needEof}) := by
  cases rest with
  | nil => simp [queueOnWrite,line,Line.finish,items,idle]
  | cons next rest =>
    have owner : s.released = false := owner.resolve_left (List.cons_ne_nil next rest)
    simp [queueOnWrite,writeFront,line,Line.finish,items,idle,owner]

theorem queueOnWrite_released {front next : Response} {rest : List Response} (items : s.items = front :: next :: rest)
    (gone : s.released = true) : s.queueOnWrite = .error .releasedStream := by
  simp [queueOnWrite,writeFront,items,gone]

theorem onRead_request (tidy : Tidy s) (reading : s.reading = true) (owner : s.released = false) {req : Request}
    (stays : req.isUpgrade = false) (files : Text → Opened) :
    s.onRead b docRoot (.request req files) = .ok {s with
      items := s.items ++ [handleRequest b req docRoot files],
      sent := (s.line.push (handleRequest b req docRoot files)).started,
      writing := if s.items = [] then some (handleRequest b req docRoot files).needEof else s.writing,
      reading := decide (s.items.length + 1 < limit)} := by
  have room := tidy.room reading
  have sent := send_ok (s := {s with reading := false}) tidy.idle owner (handleRequest b req docRoot files)
  unfold onRead
  simp only [stays,if_neg Bool.false_ne_true]
  rw [sent]
  simp only [Runs.ok_bind,isFull,List.length_append,List.length_singleton]
  by_cases last : s.items.length + 1 < limit
  · rw [decide_eq_true last,if_neg (by simpa using last)]
    simp [doRead,owner,line]
  · rw [decide_eq_false last,if_pos (by simpa using last)]
    rfl

theorem onWrite_done (tidy : Tidy s) {front : Response} {rest : List Response} (items : s.items = front :: rest)
    (owner : rest = [] ∨ s.released = false) : s.onWrite false false = .ok {s with
      items := rest,
      sent := s.line.finish.started,
      writing := rest.head?.map fun next => next.needEof,
      reading := s.reading || s.isFull} := by
  have done := queueOnWrite_ok (s := {s with writing := none}) rfl items owner
  unfold onWrite
  simp only [if_neg Bool.false_ne_true]
  rw [done]
  simp only [Runs.ok_bind,isFull]
  by_cases full : s.items.length ≥ limit
  · -- a full queue is not read for, and its stream is not handed over
    have still : s.reading = false := Bool.eq_false_iff.mpr fun reading => absurd (tidy.room reading) (Nat.not_lt.mpr full)
    have held : s.released = false :=
      Bool.eq_false_iff.mpr fun gone => absurd (tidy.released gone).2 (Nat.not_lt.mpr full)
    rw [decide_eq_true full]
    simp [doRead,still,held,line]
  · rw [decide_eq_false full]
    simp [line]

theorem step_turn (b : Build) (docRoot : Text) (tidy : Tidy s) (event : HttpEvent) :
    (∃ t, s.step b docRoot event = .ok t ∧ Turn b docRoot s event t) ∨ s.step b docRoot event = .error .notPending ∨
      (s.released = true ∧ s.step b docRoot event = .error .releasedStream) := by
  cases event with
  | onRead result =>
    cases reading : s.reading with
    | false => exact .inr (.inl (by simp [step,reading]))
    | true =>
      have owner : s.released = false :=
        Bool.eq_false_iff.mpr fun gone => absurd reading (by rw [(tidy.released gone).1]; exact Bool.false_ne_true)
      have taken : s.step b docRoot (.onRead result) = s.onRead b docRoot result := if_pos reading
      rw [taken]
      refine .inl ?_
      cases result with
      | endOfStream => exact ⟨_,by simp [onRead,doEof,owner],.endOfStream reading owner⟩
      | error => exact ⟨_,rfl,.readError reading⟩
      | request req files =>
        cases upgrade : req.isUpgrade with
        | true => exact ⟨_,by simp [onRead,upgrade],.upgrade req files reading upgrade⟩
        | false => exact ⟨_,onRead_request tidy reading owner upgrade files,.request req files _ reading owner upgrade rfl⟩
  | onWrite failed =>
    cases writing : s.writing with
    | none => exact .inr (.inl (by simp [step,writing]))
    | some close =>
      obtain ⟨front,rest,items,bound⟩ := tidy.bound close writing
      have taken : s.step b docRoot (.onWrite failed) = s.onWrite close failed := by simp only [step,writing]
      rw [taken]
      cases failed with
      | true => exact .inl ⟨_,rfl,.writeError close writing⟩
      | false =>
        cases close with
        | true =>
          cases gone : s.released with
          | false => exact .inl ⟨_,by simp [onWrite,doEof,gone],.closed writing gone⟩
          | true => exact .inr (.inr ⟨rfl,by simp [onWrite,doEof,gone]⟩)
        | false =>
          by_cases owner : rest = [] ∨ s.released = false
          · exact .inl ⟨_,onWrite_done tidy items owner,.written front rest writing items bound.symm owner⟩
          · obtain ⟨more,gone⟩ := not_or.mp owner
            obtain ⟨next,others,rfl⟩ := List.exists_cons_of_ne_nil more
            have gone : s.released = true := by simpa using gone
            refine .inr (.inr ⟨gone,?_⟩)
            have used := queueOnWrite_released (s := {s with writing := none}) items gone
            simp [onWrite,used]

theorem tidy_start : Tidy start :=
  ⟨Nat.zero_le _,fun _ impossible => (by cases impossible),fun _ => (by decide),fun impossible => (by cases impossible)⟩

theorem tidy_turn {event : HttpEvent} (tidy : Tidy s) (turn : Turn b docRoot s event t) : Tidy t := by
  cases turn with
  | endOfStream reading owner =>
    exact ⟨tidy.size,tidy.bound,fun impossible => (by cases impossible),fun gone => ⟨rfl,(tidy.released gone).2⟩⟩
  | readError reading =>
    exact ⟨tidy.size,tidy.bound,fun impossible => (by cases impossible),fun gone => ⟨rfl,(tidy.released gone).2⟩⟩
  | upgrade req files reading _ =>
    exact ⟨tidy.size,tidy.bound,fun impossible => (by cases impossible),fun _ => ⟨rfl,tidy.room reading⟩⟩
  | request req files msg reading owner _ _ =>
    have room := tidy.room reading
    refine ⟨?_,?_,?_,fun gone => absurd (owner.symm.trans gone) Bool.false_ne_true⟩
    · rw [List.length_append,List.length_singleton]
      exact room
    · intro close writing
      cases items : s.items with
      | nil =>
        rw [if_pos items] at writing
        exact ⟨msg,[],rfl,(Option.some.inj writing).symm⟩
      | cons front rest =>
        rw [if_neg (by rw [items]; exact List.cons_ne_nil front rest)] at writing
        obtain ⟨first,others,same,bound⟩ := tidy.bound close writing
        rw [items] at same
        cases same
        exact ⟨front,rest ++ [msg],rfl,bound⟩
    · intro more
      rw [List.length_append,List.length_singleton]
      exact of_decide_eq_true more
  | writeError close _ => exact ⟨tidy.size,fun _ impossible => (by cases impossible),tidy.room,tidy.released⟩
  | closed _ owner => exact ⟨tidy.size,fun _ impossible => (by cases impossible),tidy.room,tidy.released⟩
  | written front rest _ items _ owner =>
    have few : rest.length < limit := by
      have size := tidy.size
      rw [items] at size
      exact size
    refine ⟨Nat.le_of_lt few,?_,fun _ => few,fun gone => ⟨?_,few⟩⟩
    · intro close writing
      obtain ⟨next,head,bound⟩ := Option.map_eq_some_iff.mp writing
      obtain ⟨others,same⟩ := List.head?_eq_some_iff.mp head
      exact ⟨next,others,same,bound.symm⟩
    · obtain ⟨still,room⟩ := tidy.released gone
      have free : s.isFull = false := decide_eq_false (Nat.not_le.mpr room)
      rw [still,free]
      rfl

-- A request joins the line, a written response leaves it.
theorem turn_joined {event : HttpEvent} (turn : Turn b docRoot s event t) :
    t.line.joined = s.line.joined ++ (answer b docRoot event).toList := by
  cases turn with
  | endOfStream => exact (List.append_nil _).symm
  | readError => exact (List.append_nil _).symm
  | upgrade req files _ upgrade =>
    simp only [answer,upgrade,if_pos]
    exact (List.append_nil _).symm
  | request req files msg _ _ stays same =>
    simp only [answer,stays,if_neg Bool.false_ne_true]
    rw [← same]
    exact Line.push_joined s.line msg
  | writeError => exact (List.append_nil _).symm
  | closed => exact (List.append_nil _).symm
  | written front rest _ items _ _ =>
    have left : s.line.finish.joined = s.line.joined := Line.finish_joined (l := s.line) (by
      show s.items ≠ []
      rw [items]
      exact List.cons_ne_nil front rest)
    have same : s.line.finish = ⟨rest,s.line.finish.started⟩ := by simp only [Line.finish,line,items,List.tail_cons]
    rw [same] at left
    exact left.trans (List.append_nil _).symm

theorem turn_chained {event : HttpEvent} (turn : Turn b docRoot s event t)
    (chained : s.line.Chained fun r => r.keepAlive = true) : t.line.Chained fun r => r.keepAlive = true := by
  cases turn with
  | endOfStream => exact chained
  | readError => exact chained
  | upgrade => exact chained
  | request req files msg _ _ _ _ => exact Line.push_chained chained msg
  | writeError => exact chained
  | closed => exact chained
  | written front rest _ items goes _ =>
    have next := Line.finish_chained chained items (by simpa [Header.needEof] using goes)
    have same : s.line.finish = ⟨rest,s.line.finish.started⟩ := by simp only [Line.finish,line,items,List.tail_cons]
    rw [same] at next
    exact next

theorem step_turned {event : HttpEvent} (tidy : Tidy s) (ran : s.step b docRoot event = .ok t) : Turn b docRoot s event t := by
  rcases step_turn b docRoot tidy event with ⟨t',one,turn⟩ | idle | ⟨_,used⟩
  · cases one.symm.trans ran
    exact turn
  · cases idle.symm.trans ran
  · cases used.symm.trans ran

theorem tidy_step (s : HttpSession) (event : HttpEvent) (t : HttpSession) (tidy : Tidy s)
    (ran : s.step b docRoot event = .ok t) : Tidy t := tidy_turn tidy (step_turned tidy ran)

theorem tidy_run {events : List HttpEvent} (ran : Runs.run (step b docRoot) start events = .ok s) : Tidy s :=
  Runs.run_invariant Tidy tidy_step tidy_start ran

theorem joined_run {events : List HttpEvent} (tidy : Tidy s) (ran : Runs.run (step b docRoot) s events = .ok t) :
    t.line.joined = s.line.joined ++ events.filterMap (answer b docRoot) := by
  induction events generalizing s with
  | nil =>
    cases ran
    exact (List.append_nil _).symm
  | cons event rest ih =>
    obtain ⟨middle,one,ran⟩ := Runs.bind_ok.mp ran
    rw [ih (tidy_step _ _ _ tidy one) ran,turn_joined (step_turned tidy one),List.append_assoc]
    congr 1
    cases here : answer b docRoot event with
    | none => rw [List.filterMap_cons_none here]; rfl
    | some msg => rw [List.filterMap_cons_some here]; rfl

-- What has been handed to async_write are the answers to the first requests, in their
-- order; fewer than eight are waiting behind the last, and only the last may close.
theorem answers_in_order {events : List HttpEvent} (ran : Runs.run (step b docRoot) start events = .ok s) :
    ∃ waiting, events.filterMap (answer b docRoot) = s.sent ++ waiting ∧ waiting.length < limit ∧
      ∀ r ∈ s.sent.dropLast, r.keepAlive = true := by
  have tidy := tidy_run ran
  have chained : s.line.Chained fun r => r.keepAlive = true := by
    have both := Runs.run_invariant (fun s => Tidy s ∧ s.line.Chained fun r => r.keepAlive = true)
      (fun _ _ _ kept one => ⟨tidy_step _ _ _ kept.1 one,turn_chained (step_turned kept.1 one) kept.2⟩)
      ⟨tidy_start,fun _ member => absurd member List.not_mem_nil⟩ ran
    exact both.2
  refine ⟨s.items.tail,(joined_run tidy_start ran).symm,?_,Line.chained_started chained⟩
  have size := tidy.size
  rw [List.length_tail]
  have some_room : 0 < limit := by decide
  omega

def pipelined : List HttpEvent := [
  .onRead (.request (sampleRequest .get "/".toList) sampleFiles),
  .onRead (.request (sampleRequest .head "/none".toList) sampleFiles),
  .onWrite false]

def midway : HttpSession :=
  let answers := pipelined.filterMap (answer sampleBuild "www".toList)
  ⟨answers.tail,true,some false,false,false,answers⟩

theorem midway_ran : Runs.run (step sampleBuild "www".toList) start pipelined = .ok midway := rfl

theorem midway_in_order : ∃ waiting, pipelined.filterMap (answer sampleBuild "www".toList) = midway.sent ++ waiting ∧
    waiting.length < limit ∧ ∀ r ∈ midway.sent.dropLast, r.keepAlive = true :=
  answers_in_order midway_ran

end HttpSession

def HttpEvent.failed : HttpEvent → Bool
  | .onRead .error => true
  | .onWrite failed => failed
  | _ => false

namespace HttpSession
variable {b : Build} {docRoot : Text} {s t : HttpSession}

def Served (s : HttpSession) : Prop :=
  (s.reading = true ↔ s.items.length < limit) ∧ (s.writing.isSome = true ↔ s.items ≠ [])

theorem turn_served {event : HttpEvent} (sound : event.failed = false) (tidy : Tidy s) (turn : Turn b docRoot s event t)
    (served : s.shut = true ∨ s.released = true ∨ Served s) : t.shut = true ∨ t.released = true ∨ Served t := by
  cases turn with
  | endOfStream => exact .inl rfl
  | readError => cases sound
  | upgrade => exact .inr (.inl rfl)
  | request req files msg reading _ _ _ =>
    refine served.imp id (Or.imp id fun served => ⟨?_,?_⟩)
    · rw [List.length_append,List.length_singleton]
      exact decide_eq_true_iff
    · have more : s.items ++ [msg] ≠ [] := List.append_ne_nil_of_right_ne_nil _ (List.cons_ne_nil msg [])
      refine iff_of_true ?_ more
      dsimp only
      split
      · rfl
      · rename_i busy
        exact served.2.mpr busy
  | writeError => cases sound
  | closed => exact .inl rfl
  | written front rest _ items _ _ =>
    refine served.imp id (Or.imp id fun served => ⟨?_,?_⟩)
    · have few : rest.length < limit := by
        have size := tidy.size
        rw [items] at size
        exact size
      refine iff_of_true ?_ few
      rw [Bool.or_eq_true,served.1,isFull,decide_eq_true_iff]
      exact Nat.lt_or_ge _ _
    · cases rest with
      | nil => simp
      | cons next rest => simp

theorem serving_step (s : HttpSession) (event : HttpEvent) (t : HttpSession)
    (kept : Tidy s ∧ (s.shut = true ∨ s.released = true ∨ Served s)) (sound : event.failed = false)
    (one : s.step b docRoot event = .ok t) : Tidy t ∧ (t.shut = true ∨ t.released = true ∨ Served t) :=
  ⟨tidy_step _ _ _ kept.1 one,turn_served sound kept.1 (step_turned kept.1 one) kept.2⟩

theorem connection_served {events : List HttpEvent} (sound : ∀ event ∈ events, event.failed = false)
    (ran : Runs.run (step b docRoot) start events = .ok s) : s.shut = true ∨ s.released = true ∨ Served s := by
  have each : Runs.Steps (step b docRoot) (fun _ event => event.failed = false) start events :=
    Runs.steps_each (fun event member _ => sound event member) _
  have both := Runs.run_among serving_step ⟨tidy_start,.inr (.inr ⟨by decide,by decide⟩)⟩ each ran
  exact both.2

theorem midway_served : midway.shut = true ∨ midway.released = true ∨ Served midway := by
  have sound : ∀ event ∈ pipelined, event.failed = false := by decide
  exact connection_served sound midway_ran

-- Nothing of the HTTP session will touch the stream again once its read has ended.
def Quiet (s : HttpSession) : Prop := s.writing = none ∨ ∃ front, s.items = [front] ∧ front.keepAlive = true

theorem quiet_turn {event : HttpEvent} (gone : s.released = true) (tidy : Tidy s) (quiet : Quiet s)
    (turn : Turn b docRoot s event t) : t.released = true ∧ Quiet t := by
  have still : s.reading ≠ true := by
    rw [(tidy.released gone).1]
    exact Bool.false_ne_true
  cases turn with
  | endOfStream reading => exact absurd reading still
  | readError reading => exact absurd reading still
  | upgrade _ _ reading => exact absurd reading still
  | request _ _ _ reading => exact absurd reading still
  | writeError => exact ⟨gone,.inl rfl⟩
  | closed _ owner => exact absurd (owner.symm.trans gone) Bool.false_ne_true
  | written front rest writing items _ _ =>
    rcases quiet with idle | ⟨only,alone,_⟩
    · cases idle.symm.trans writing
    · rw [alone] at items
      cases items
      exact ⟨gone,.inl rfl⟩

theorem quiet_unused {event : HttpEvent} (gone : s.released = true) (tidy : Tidy s) (quiet : Quiet s) :
    s.step b docRoot event ≠ .error .releasedStream := by
  cases event with
  | onRead result => simp [step,(tidy.released gone).1]
  | onWrite failed =>
    rcases quiet with idle | ⟨only,alone,goes⟩
    · simp [step,idle]
    · cases writing : s.writing with
      | none => simp [step,writing]
      | some close =>
        obtain ⟨front,rest,items,bound⟩ := tidy.bound close writing
        rw [alone] at items
        cases items
        have goes_on : close = false := by
          rw [bound]
          simp [Header.needEof,goes]
        subst goes_on
        cases failed with
        | true => simp [step,writing,onWrite]
        | false =>
          simp only [step,writing]
          rw [onWrite_done tidy alone (.inl rfl)]
          exact fun impossible => by cases impossible

-- A websocket upgrade takes the stream away from the HTTP session, which uses it
-- afterwards, sooner or later, unless it was quiet when the upgrade was read.
end Geoff.Http.HttpSession
