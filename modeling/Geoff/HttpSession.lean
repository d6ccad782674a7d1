import Geoff.HandleRequest
import Geoff.Runs
import Geoff.Pipelines

-- http_session of lib/src/geoff.cpp: one connection before it becomes a websocket.
namespace Geoff.Http

-- Its members, and below them what Asio holds for it. `writing` is the value of `close`
-- bound to the outstanding async_write; `sent` is the history of the responses handed to
-- async_write, oldest first.
structure HttpSession where
  items : List Response
  reading : Bool
  writing : Option Bool
  shut : Bool
  released : Bool
  sent : List Response
deriving DecidableEq, Repr

-- The uses of the stream that Asio and Beast do not allow, an assertion of the source,
-- and a handler Asio does not hold.
inductive Misuse where
  | secondRead
  | secondWrite
  | releasedStream
  | emptyQueue
  | notPending
deriving DecidableEq, Repr

inductive RequestRead where
  | endOfStream
  | error
  | request (req : Request) (files : Text → Opened)

inductive HttpEvent where
  | onRead (result : RequestRead)
  | onWrite (failed : Bool)

namespace HttpSession

def limit : Nat := 8

def start : HttpSession := ⟨[],true,none,false,false,[]⟩

def isFull (s : HttpSession) : Bool := decide (s.items.length ≥ limit)

def doRead (s : HttpSession) : Except Misuse HttpSession :=
  if s.released then .error .releasedStream
  else if s.reading then .error .secondRead
  else .ok {s with reading := true}

def doEof (s : HttpSession) : Except Misuse HttpSession :=
  if s.released then .error .releasedStream else .ok {s with shut := true}

def writeFront (s : HttpSession) : Except Misuse HttpSession :=
  match s.items with
  | [] => .error .emptyQueue
  | front :: _ =>
    if s.released then .error .releasedStream
    else if s.writing.isSome then .error .secondWrite
    else .ok {s with writing := some front.needEof, sent := s.sent ++ [front]}

def send (s : HttpSession) (msg : Response) : Except Misuse HttpSession :=
  let s := {s with items := s.items ++ [msg]}
  if s.items.length = 1 then s.writeFront else .ok s

-- queue::on_write; whether the caller should initiate a read comes first.
def queueOnWrite (s : HttpSession) : Except Misuse (Bool × HttpSession) := do
  if s.items = [] then throw .emptyQueue
  let wasFull := s.isFull
  let s := {s with items := s.items.tail}
  let s ← if s.items = [] then pure s else s.writeFront
  return (wasFull,s)

variable (b : Build) (docRoot : Text)

def onRead (s : HttpSession) (result : RequestRead) : Except Misuse HttpSession :=
  let s := {s with reading := false}
  match result with
  | .endOfStream => s.doEof
  | .error => .ok s
  | .request req files =>
    if req.isUpgrade then .ok {s with released := true} else do
    let s ← s.send (handleRequest b req docRoot files)
    if s.isFull then return s
    s.doRead

def onWrite (s : HttpSession) (close failed : Bool) : Except Misuse HttpSession :=
  let s := {s with writing := none}
  if failed then .ok s
  else if close then s.doEof
  else do
    let (more,s) ← s.queueOnWrite
    if more then s.doRead else return s

def step (s : HttpSession) : HttpEvent → Except Misuse HttpSession
  | .onRead result => if s.reading then s.onRead b docRoot result else .error .notPending
  | .onWrite failed =>
    match s.writing with
    | some close => s.onWrite close failed
    | none => .error .notPending

def answer : HttpEvent → Option Response
  | .onRead (.request req files) => if req.isUpgrade then none else some (handleRequest b req docRoot files)
  | _ => none

end HttpSession
end Geoff.Http
