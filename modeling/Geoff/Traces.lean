import Geoff.Runs

-- Runs of a step whose events lie on lanes. Two lists of events that agree on every
-- lane differ by the order of events that share none; where such events commute, both
-- lists lead to the same state.
namespace Traces
open Runs
universe u v w x
variable {σ : Type u} {ε : Type v} {φ : Type w} {κ : Type x}

def Apart (lane : κ → ε → Bool) (a b : ε) : Prop := ∀ k, lane k a = true → lane k b = false

def Agree (lane : κ → ε → Bool) (xs ys : List ε) : Prop := ∀ k, xs.filter (lane k) = ys.filter (lane k)

-- `same` is the equality of states meant, `ready` says when an event may come, `good`
-- is kept by every step, and `fits` is a bound that a state has if a later one has it.
structure Commutes (step : σ → ε → Except φ σ) (lane : κ → ε → Bool) (same : σ → σ → Prop) (ready : σ → ε → Prop)
    (good fits : σ → Prop) : Prop where
  refl : ∀ s, same s s
  trans : ∀ s t u, same s t → same t u → same s u
  covered : ∀ a, ∃ k, lane k a = true
  valid : ∀ s a t, good s → step s a = .ok t → good t
  bounded : ∀ s a t, step s a = .ok t → fits t → fits s
  respects : ∀ s t, same s t → fits s → fits t
  waits : ∀ s a b t, ready s b → step s a = .ok t → ready t b
  follows : ∀ s s' a t, same s s' → step s a = .ok t → ∃ t', step s' a = .ok t' ∧ same t t'
  swaps : ∀ s a b t u, good s → Apart lane a b → ready s b → step s a = .ok t → step t b = .ok u → fits u →
    ∃ t' u', step s b = .ok t' ∧ step t' a = .ok u' ∧ same u u'

def Served (step : σ → ε → Except φ σ) (ready : σ → ε → Prop) : σ → List ε → Prop
  | _,[] => True
  | s,b :: rest => ready s b ∧ ∀ t, step s b = .ok t → Served step ready t rest

section Lanes
variable {lane : κ → ε → Bool}

theorem agree_nil {xs : List ε} (covered : ∀ a, ∃ k, lane k a = true) (agree : Agree lane xs []) : xs = [] := by
  cases xs with
  | nil => rfl
  | cons a rest =>
    obtain ⟨k,here⟩ := covered a
    have impossible := agree k
    simp [here] at impossible

theorem apart_filter {before : List ε} {b : ε} {k : κ} (apart : ∀ a ∈ before, Apart lane a b) (here : lane k b = true) :
    before.filter (lane k) = [] := by
  apply List.filter_eq_nil_iff.mpr
  intro a member shared
  have other := apart a member k shared
  rw [here] at other
  cases other

theorem agree_cons {xs ys : List ε} {b : ε} (covered : ∀ a, ∃ k, lane k a = true) (agree : Agree lane xs (b :: ys)) :
    ∃ before after, xs = before ++ b :: after ∧ (∀ a ∈ before, Apart lane a b) ∧ Agree lane (before ++ after) ys := by
  classical
  have member : b ∈ xs := by
    obtain ⟨k,here⟩ := covered b
    have inside : b ∈ xs.filter (lane k) := by rw [agree k]; simp [here]
    exact (List.mem_filter.mp inside).1
  have self : ¬ Apart lane b b := by
    intro apart
    obtain ⟨k,here⟩ := covered b
    exact absurd (apart k here) (by simp [here])
  obtain ⟨c,before,after,apart,shared,split,_⟩ := List.exists_of_eraseP (p := fun a => decide ¬ Apart lane a b) member
    (decide_eq_true self)
  simp only [decide_eq_true_eq,not_not] at apart shared
  subst split
  -- the first event that shares a lane with `b` is the first of that lane
  have same : c = b := by
    simp only [Apart,not_forall,Bool.not_eq_false] at shared
    obtain ⟨k,there,here⟩ := shared
    have first := agree k
    rw [List.filter_append,apart_filter apart here,List.filter_cons_of_pos there,List.filter_cons_of_pos here] at first
    exact (List.cons.inj first).1
  subst same
  refine ⟨before,after,rfl,apart,fun k => ?_⟩
  have first := agree k
  rw [List.filter_append] at first ⊢
  cases here : lane k c with
  | true =>
    rw [apart_filter apart here,List.filter_cons_of_pos here,List.filter_cons_of_pos here] at first
    rw [apart_filter apart here]
    exact (List.cons.inj first).2
  | false =>
    have aside : ¬ lane k c = true := by simp [here]
    rwa [List.filter_cons_of_neg aside,List.filter_cons_of_neg aside] at first

end Lanes

namespace Commutes
variable {step : σ → ε → Except φ σ} {lane : κ → ε → Bool} {same : σ → σ → Prop} {ready : σ → ε → Prop}
variable {good fits : σ → Prop}

theorem run_bounded (commutes : Commutes step lane same ready good fits) {s t : σ} {xs : List ε}
    (ran : run step s xs = .ok t) (room : fits t) : fits s := by
  induction xs generalizing s with
  | nil => cases ran; exact room
  | cons a rest ih =>
    obtain ⟨next,one,tail⟩ := bind_ok.mp ran
    exact commutes.bounded s a next one (ih tail)

theorem run_front (commutes : Commutes step lane same ready good fits) {s t : σ} {before : List ε} {b : ε} (valid : good s)
    (apart : ∀ a ∈ before, Apart lane a b) (now : ready s b) (ran : run step s (before ++ [b]) = .ok t) (room : fits t) :
    ∃ t', run step s (b :: before) = .ok t' ∧ same t t' := by
  induction before generalizing s t with
  | nil => exact ⟨t,ran,commutes.refl t⟩
  | cons a rest ih =>
    obtain ⟨next,one,tail⟩ := bind_ok.mp ran
    obtain ⟨first,others⟩ := List.forall_mem_cons.mp apart
    obtain ⟨t',moved,equal⟩ := ih (commutes.valid s a next valid one) others (commutes.waits s a b next now one) tail room
    obtain ⟨middle,two,tail⟩ := bind_ok.mp moved
    have fitting := commutes.run_bounded tail (commutes.respects t t' equal room)
    obtain ⟨next',middle',two',one',near⟩ := commutes.swaps s a b next middle valid first now one two fitting
    obtain ⟨u,last,result⟩ := run_follows commutes.follows near tail
    exact ⟨u,bind_ok.mpr ⟨next',two',bind_ok.mpr ⟨middle',one',last⟩⟩,commutes.trans t t' u equal result⟩

theorem run_agrees (commutes : Commutes step lane same ready good fits) {s t : σ} {xs ys : List ε} (valid : good s)
    (ran : run step s xs = .ok t) (room : fits t) (agree : Agree lane xs ys) (served : Served step ready s ys) :
    ∃ u, run step s ys = .ok u ∧ same t u := by
  induction ys generalizing s t xs with
  | nil =>
    rw [agree_nil commutes.covered agree] at ran
    cases ran
    exact ⟨s,rfl,commutes.refl s⟩
  | cons b ys ih =>
    obtain ⟨before,after,rfl,apart,rest⟩ := agree_cons commutes.covered agree
    obtain ⟨now,later⟩ := served
    have split : before ++ b :: after = (before ++ [b]) ++ after := by simp
    rw [split] at ran
    obtain ⟨middle,head,tail⟩ := run_split ran
    -- `b` first, then what stood before it, then the rest
    obtain ⟨middle',moved,near⟩ := commutes.run_front valid apart now head (commutes.run_bounded tail room)
    obtain ⟨t',tail',equal⟩ := run_follows commutes.follows near tail
    obtain ⟨next,one,others⟩ := bind_ok.mp moved
    have ran' : run step next (before ++ after) = .ok t' := (run_append after others).trans tail'
    obtain ⟨u,swapped,result⟩ := ih (commutes.valid s b next valid one) ran' (commutes.respects t t' equal room) rest
      (later next one)
    exact ⟨u,bind_ok.mpr ⟨next,one,swapped⟩,commutes.trans t t' u equal result⟩

end Commutes
end Traces
