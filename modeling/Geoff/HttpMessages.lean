import Geoff.Frames
import Geoff.Pipelining

-- The responses of a connection as the browser reads them off the stream.
namespace Geoff.Http
open Frames HttpSession

def wire (r : Response) : List (Piece Header Char) := frame (r.toHeader,r.body)

-- What a client expects behind a header: no body in the answer to a HEAD request.
def expected (method : Verb) (h : Header) : Nat := if method = .head then 0 else h.contentLength

variable (b : Build) (docRoot : Text)

def exchange : HttpEvent → Option (Request × Response)
  | .onRead (.request req files) => if req.isUpgrade then none else some (req,handleRequest b req docRoot files)
  | _ => none

def exchanges (events : List HttpEvent) : List (Request × Response) := events.filterMap (exchange b docRoot)

theorem exchange_answer (event : HttpEvent) : (exchange b docRoot event).map Prod.snd = answer b docRoot event := by
  match event with
  | .onRead (.request req files) =>
    unfold exchange answer
    dsimp only
    split <;> rfl
  | .onRead .endOfStream => rfl
  | .onRead .error => rfl
  | .onWrite _ => rfl

theorem exchanges_answers (events : List HttpEvent) :
    (exchanges b docRoot events).map Prod.snd = events.filterMap (answer b docRoot) := by
  unfold exchanges
  rw [List.map_filterMap]
  congr 1
  funext event
  exact exchange_answer b docRoot event

theorem textResponse_framed (req : Request) (status : Status) {body : Text} (some_text : body ≠ []) (failed : status ≠ .ok) :
    (textResponse b req status body).body.length = expected req.method (textResponse b req status body).toHeader ↔
      (req.method = .head → (textResponse b req status body).status = .ok) := by
  have length : (textResponse b req status body).contentLength = body.length := rfl
  have status_same : (textResponse b req status body).status = status := rfl
  have body_same : (textResponse b req status body).body = body := rfl
  rw [expected,length,status_same,body_same]
  by_cases head : req.method = .head
  · rw [if_pos head]
    exact iff_of_false (fun empty => some_text (List.length_eq_zero_iff.mp empty)) fun fine => failed (fine head)
  · rw [if_neg head]
    exact iff_of_true rfl fun asked => absurd asked head

-- A response is as long as the client takes it to be, except for an error that answers HEAD.
theorem response_framed (req : Request) (files : Text → Opened) :
    (handleRequest b req docRoot files).body.length = expected req.method (handleRequest b req docRoot files).toHeader ↔
      (req.method = .head → (handleRequest b req docRoot files).status = .ok) := by
  unfold handleRequest
  split
  · exact textResponse_framed b req .badRequest (by decide) (by decide)
  · split
    · exact textResponse_framed b req .badRequest (by decide) (by decide)
    · split
      · exact textResponse_framed b req .notFound (by simp) (by decide)
      · exact textResponse_framed b req .internalServerError (by simp) (by decide)
      · rename_i content _
        have status : (fileResponse b req (filePath b req docRoot) content).status = .ok := rfl
        refine iff_of_true ?_ fun _ => status
        unfold expected fileResponse
        split <;> rfl

theorem exchange_framed {event : HttpEvent} {req : Request} {r : Response} (made : exchange b docRoot event = some (req,r)) :
    r.body.length = expected req.method r.toHeader ↔ (req.method = .head → r.status = .ok) := by
  unfold exchange at made
  split at made
  · split at made
    · cases made
    · cases made
      exact response_framed b docRoot _ _
  · cases made

-- The client that reads the bytes handed to async_write gets the responses to its requests,
-- one by one and nothing else, exactly when none of them is an error that answers HEAD.
theorem responses_read_iff {events : List HttpEvent} {s : HttpSession} (ran : Runs.run (step b docRoot) start events = .ok s) :
    readAll expected (((exchanges b docRoot events).take s.sent.length).map fun x => x.1.method) (s.sent.flatMap wire) =
        some (s.sent.map fun r => (r.toHeader,r.body),[]) ↔
      ∀ x ∈ (exchanges b docRoot events).take s.sent.length, x.1.method = .head → x.2.status = .ok := by
  have split : events.filterMap (answer b docRoot) = s.sent ++ s.items.tail := (joined_run tidy_start ran).symm
  have sent : s.sent = ((exchanges b docRoot events).take s.sent.length).map Prod.snd := by
    rw [List.map_take,exchanges_answers,split,List.take_left]
  have made : ∀ x ∈ (exchanges b docRoot events).take s.sent.length, ∃ event, exchange b docRoot event = some x := by
    intro x member
    obtain ⟨event,_,same⟩ := List.mem_filterMap.mp (List.mem_of_mem_take member)
    exact ⟨event,same⟩
  generalize (exchanges b docRoot events).take s.sent.length = served at sent made
  rw [sent]
  have framed := readAll_iff expected (served.map fun x => (x.1.method,x.2.toHeader,x.2.body))
  simp only [List.map_map,List.flatMap_map,List.forall_mem_map,Function.comp_def] at framed ⊢
  rw [show (served.flatMap fun x => wire x.2) = served.flatMap fun x => frame (x.2.toHeader,x.2.body) from rfl,framed]
  refine forall₂_congr fun x member => ?_
  obtain ⟨event,same⟩ := made x member
  exact exchange_framed b docRoot same

theorem midway_read :
    readAll expected (((exchanges sampleBuild "www".toList pipelined).take midway.sent.length).map fun x => x.1.method)
        (midway.sent.flatMap wire) = some (midway.sent.map fun r => (r.toHeader,r.body),[]) ↔
      ∀ x ∈ (exchanges sampleBuild "www".toList pipelined).take midway.sent.length, x.1.method = .head → x.2.status = .ok :=
  responses_read_iff sampleBuild "www".toList midway_ran

end Geoff.Http
