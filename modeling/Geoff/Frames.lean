import Mathlib.Data.List.Basic

-- Messages of a head and a body in one stream, where nothing marks the end of a body: the
-- reader takes as many units as it expects from the head and from what it asked for.
namespace Frames
universe u
variable {κ η β : Type u}

inductive Piece (η β : Type u) where
  | head (h : η)
  | unit (b : β)

def frame (message : η × List β) : List (Piece η β) := .head message.1 :: message.2.map .unit

def readBody : Nat → List (Piece η β) → Option (List β × List (Piece η β))
  | 0,stream => some ([],stream)
  | n + 1,.unit b :: stream => (readBody n stream).map fun (body,rest) => (b :: body,rest)
  | _ + 1,_ => none

def readAll (expected : κ → η → Nat) : List κ → List (Piece η β) → Option (List (η × List β) × List (Piece η β))
  | [],stream => some ([],stream)
  | asked :: others,.head h :: stream =>
    (readBody (expected asked h) stream).bind fun (body,stream) =>
      (readAll expected others stream).map fun (messages,rest) => ((h,body) :: messages,rest)
  | _ :: _,_ => none

theorem readBody_units (body : List β) (rest : List (Piece η β)) :
    readBody body.length (body.map .unit ++ rest) = some (body,rest) := by
  induction body with
  | nil => rfl
  | cons b body ih =>
    rw [List.length_cons,List.map_cons,List.cons_append,readBody,ih]
    rfl

theorem readBody_taken {n : Nat} {stream rest : List (Piece η β)} {body : List β}
    (taken : readBody n stream = some (body,rest)) : body.length = n ∧ stream = body.map .unit ++ rest := by
  induction n generalizing stream body with
  | zero =>
    cases taken
    exact ⟨rfl,rfl⟩
  | succ n ih =>
    match stream,taken with
    | .unit b :: stream,taken =>
      obtain ⟨⟨later,_⟩,more,same⟩ := Option.map_eq_some_iff.mp taken
      cases same
      obtain ⟨length,split⟩ := ih more
      exact ⟨by rw [List.length_cons,length],by rw [split]; rfl⟩

variable {expected : κ → η → Nat}

variable (expected) in
theorem readAll_iff (messages : List (κ × η × List β)) :
    readAll expected (messages.map Prod.fst) (messages.flatMap fun m => frame m.2) = some (messages.map Prod.snd,[]) ↔
      ∀ m ∈ messages, m.2.2.length = expected m.1 m.2.1 := by
  induction messages with
  | nil => exact ⟨fun _ _ member => absurd member List.not_mem_nil,fun _ => rfl⟩
  | cons m messages ih =>
    obtain ⟨asked,h,body⟩ := m
    rw [List.map_cons,List.flatMap_cons,List.map_cons,List.forall_mem_cons,← ih]
    simp only [frame,List.cons_append,readAll]
    constructor
    · intro whole
      obtain ⟨⟨first,stream⟩,taken,whole⟩ := Option.bind_eq_some_iff.mp whole
      obtain ⟨⟨others,rest⟩,later,same⟩ := Option.map_eq_some_iff.mp whole
      cases same
      obtain ⟨length,split⟩ := readBody_taken taken
      refine ⟨length,?_⟩
      rw [List.append_cancel_left split]
      exact later
    · rintro ⟨length,later⟩
      rw [← length,readBody_units]
      simp only [Option.bind_some,later,Option.map_some]

end Frames
