import Mathlib.Data.List.Basic
import Mathlib.Tactic.Basic

-- Finite runs of a partial deterministic step, over any state, event and fault
-- types. A fault ends the run: nothing is said about what would follow it.
namespace Runs
universe u v w
variable {σ α β : Type u} {ε : Type v} {φ : Type w}

theorem bind_ok {x : Except φ α} {f : α → Except φ β} {b : β} :
    (x >>= f) = .ok b ↔ ∃ a, x = .ok a ∧ f a = .ok b := by
  cases x with
  | error fault =>
    constructor
    · intro impossible; cases impossible
    · rintro ⟨_,impossible,_⟩; cases impossible
  | ok a =>
    constructor
    · intro result; exact ⟨a,rfl,result⟩
    · rintro ⟨_,same,result⟩; cases same; exact result

@[simp] theorem ok_bind (a : α) (f : α → Except φ β) : (Except.ok a >>= f) = f a := rfl
@[simp] theorem error_bind (fault : φ) (f : α → Except φ β) : (Except.error fault >>= f) = .error fault := rfl
@[simp] theorem pure_ok (a : α) : (pure a : Except φ α) = .ok a := rfl
@[simp] theorem throw_error (fault : φ) : (throw fault : Except φ α) = .error fault := rfl

theorem bind_avoids {x : Except φ α} {f : α → Except φ β} {fault : φ} (first : x ≠ .error fault)
    (next : ∀ a, x = .ok a → f a ≠ .error fault) : (x >>= f) ≠ .error fault := by
  cases x with
  | error other => exact fun same => first (congrArg Except.error (Except.error.inj same))
  | ok a => exact next a rfl

def run (step : σ → ε → Except φ σ) (s : σ) (events : List ε) : Except φ σ := events.foldlM step s

variable {step : σ → ε → Except φ σ} {good : σ → Prop} {guard : σ → ε → Prop}

@[simp] theorem run_nil (s : σ) : run step s [] = .ok s := rfl

theorem run_cons (s : σ) (event : ε) (rest : List ε) :
    run step s (event :: rest) = (step s event >>= (run step · rest)) := rfl

@[simp] theorem run_single (s : σ) (event : ε) : run step s [event] = step s event := by
  rw [run_cons]
  cases step s event <;> rfl

theorem run_append {s t : σ} {first : List ε} (rest : List ε) (ran : run step s first = .ok t) :
    run step s (first ++ rest) = run step t rest := by
  induction first generalizing s with
  | nil => cases ran; rfl
  | cons event first ih =>
    obtain ⟨next,one,tail⟩ := bind_ok.mp ran
    simpa [run_cons,one] using ih tail

theorem run_split {s t : σ} {first rest : List ε} (ran : run step s (first ++ rest) = .ok t) :
    ∃ middle, run step s first = .ok middle ∧ run step middle rest = .ok t := by
  rw [run,List.foldlM_append] at ran
  exact bind_ok.mp ran

theorem run_follows {step' : σ → ε → Except φ σ} {r : σ → σ → Prop}
    (one : ∀ s s' event t, r s s' → step s event = .ok t → ∃ t', step' s' event = .ok t' ∧ r t t')
    {s s' t : σ} {events : List ε} (start : r s s') (ran : run step s events = .ok t) :
    ∃ t', run step' s' events = .ok t' ∧ r t t' := by
  induction events generalizing s s' with
  | nil => cases ran; exact ⟨s',rfl,start⟩
  | cons event rest ih =>
    obtain ⟨next,first,tail⟩ := bind_ok.mp ran
    obtain ⟨next',first',related⟩ := one s s' event next start first
    obtain ⟨t',tail',result⟩ := ih related tail
    exact ⟨t',bind_ok.mpr ⟨next',first',tail'⟩,result⟩

theorem split_last {history before after : List ε} {last event : ε} :
    history ++ [last] = before ++ event :: after ↔
      (history = before ∧ last = event ∧ after = []) ∨
        ∃ rest, after = rest ++ [last] ∧ history = before ++ event :: rest := by
  constructor
  · intro split
    rcases List.eq_nil_or_concat' after with rfl | ⟨rest,final,rfl⟩
    · obtain ⟨same,tail⟩ := List.append_inj' split rfl
      exact .inl ⟨same,(List.cons.inj tail).1,rfl⟩
    · rw [← List.cons_append,← List.append_assoc] at split
      obtain ⟨same,tail⟩ := List.append_inj' split rfl
      cases tail
      exact .inr ⟨rest,rfl,same⟩
  · rintro (⟨rfl,rfl,rfl⟩ | ⟨rest,rfl,rfl⟩)
    · rfl
    · simp

-- `Always good s events`: every state met while running `events` from `s` is good.
def Always (step : σ → ε → Except φ σ) (good : σ → Prop) : σ → List ε → Prop
  | s,[] => good s
  | s,event :: rest => good s ∧ match step s event with
    | .ok next => Always step good next rest
    | .error _ => True

-- `Steps guard s events`: every step the run takes meets its guard beforehand.
def Steps (step : σ → ε → Except φ σ) (guard : σ → ε → Prop) : σ → List ε → Prop
  | _,[] => True
  | s,event :: rest => match step s event with
    | .ok next => guard s event ∧ Steps step guard next rest
    | .error _ => True

instance decidableAlways (step : σ → ε → Except φ σ) (good : σ → Prop) [DecidablePred good] :
    (s : σ) → (events : List ε) → Decidable (Always step good s events)
  | s,[] => inferInstanceAs (Decidable (good s))
  | s,event :: rest =>
    have : Decidable (match step s event with | .ok next => Always step good next rest | .error _ => True) :=
      match step s event with
      | .ok next => decidableAlways step good next rest
      | .error _ => inferInstanceAs (Decidable True)
    inferInstanceAs (Decidable (good s ∧ _))

theorem Always.here {s : σ} {events : List ε} (always : Always step good s events) : good s := by
  cases events with
  | nil => exact always
  | cons event rest => exact always.1

theorem always_cons {s next : σ} {event : ε} {rest : List ε} (ran : step s event = .ok next) :
    Always step good s (event :: rest) ↔ good s ∧ Always step good next rest := by
  simp only [Always,ran]

theorem steps_cons {s next : σ} {event : ε} {rest : List ε} (ran : step s event = .ok next) :
    Steps step guard s (event :: rest) ↔ guard s event ∧ Steps step guard next rest := by
  simp only [Steps,ran]

theorem always_iff_reached {s : σ} {events : List ε} :
    Always step good s events ↔
      ∀ first rest next, events = first ++ rest → run step s first = .ok next → good next := by
  induction events generalizing s with
  | nil =>
    constructor
    · intro always first rest next split ran
      obtain ⟨rfl,rfl⟩ := List.append_eq_nil_iff.mp split.symm
      cases ran; exact always
    · intro reached; exact reached [] [] s rfl rfl
  | cons event rest ih =>
    constructor
    · intro always first tail next split ran
      cases first with
      | nil => cases ran; exact always.1
      | cons _ first =>
        obtain ⟨rfl,tails⟩ := List.cons.inj split
        obtain ⟨middle,one,ran⟩ := bind_ok.mp ran
        exact ih.mp ((always_cons one).mp always).2 first tail next tails ran
    · intro reached
      refine ⟨reached [] _ s rfl rfl,?_⟩
      cases one : step s event with
      | error fault => trivial
      | ok middle =>
        refine ih.mpr fun first tail next split ran => ?_
        exact reached (event :: first) tail next (by rw [split]; rfl) (by rw [run_cons,one]; exact ran)

theorem Always.last {s t : σ} {events : List ε} (always : Always step good s events) (ran : run step s events = .ok t) :
    good t :=
  always_iff_reached.mp always events [] t (by simp) ran

theorem Always.imp {better : σ → Prop} {s : σ} {events : List ε} (always : Always step good s events)
    (weaker : ∀ s, good s → better s) : Always step better s events := by
  rw [always_iff_reached] at always ⊢
  intro first rest next split ran
  exact weaker next (always first rest next split ran)

theorem always_invariant (kept : ∀ s event next, good s → step s event = .ok next → good next)
    {s : σ} (start : good s) (events : List ε) : Always step good s events := by
  induction events generalizing s with
  | nil => exact start
  | cons event rest ih =>
    refine ⟨start,?_⟩
    cases one : step s event with
    | error fault => trivial
    | ok next => exact ih (kept s event next start one)

theorem run_invariant (good : σ → Prop) (kept : ∀ s event next, good s → step s event = .ok next → good next)
    {s t : σ} (start : good s) {events : List ε} (ran : run step s events = .ok t) : good t :=
  (always_invariant kept start events).last ran

theorem run_succeeds (good : σ → Prop) {events : List ε}
    (one : ∀ s event, event ∈ events → good s → ∃ t, step s event = .ok t ∧ good t) {s : σ} (start : good s) :
    ∃ t, run step s events = .ok t ∧ good t := by
  induction events generalizing s with
  | nil => exact ⟨s,rfl,start⟩
  | cons event rest ih =>
    obtain ⟨next,first,kept⟩ := one s event List.mem_cons_self start
    obtain ⟨t,tail,last⟩ := ih (fun s other member => one s other (List.mem_cons_of_mem _ member)) kept
    exact ⟨t,bind_ok.mpr ⟨next,first,tail⟩,last⟩

theorem run_avoids {fault : φ} (good : σ → Prop) (kept : ∀ s event next, good s → step s event = .ok next → good next)
    (one : ∀ s event, good s → step s event ≠ .error fault) {s : σ} (start : good s) (events : List ε) :
    run step s events ≠ .error fault := by
  induction events generalizing s with
  | nil => exact fun impossible => by cases impossible
  | cons event rest ih =>
    exact bind_avoids (one s event start) fun next ran => ih (kept s event next start ran)

theorem run_relates {r : σ → σ → Prop} (refl : ∀ s, r s s) (trans : ∀ s t u, r s t → r t u → r s u)
    {events : List ε} (one : ∀ s event next, event ∈ events → step s event = .ok next → r s next)
    {s t : σ} (ran : run step s events = .ok t) : r s t := by
  induction events generalizing s with
  | nil => cases ran; exact refl _
  | cons event rest ih =>
    obtain ⟨middle,first,tail⟩ := bind_ok.mp ran
    refine trans s middle t (one s event middle (by simp) first) (ih ?_ tail)
    exact fun s other next member => one s other next (List.mem_cons_of_mem _ member)

-- A loop over distinct keys: a round for a key changes only what is seen under it, so
-- after the loop each key has seen its own round and nothing else.
theorem run_keys {ν : Type*} (view : σ → ε → ν) (change : ε → ν → ν → Prop) (good : σ → Prop)
    (kept : ∀ s key t, good s → step s key = .ok t → good t)
    (own : ∀ s key t, good s → step s key = .ok t → change key (view s key) (view t key))
    (others : ∀ s key t, good s → step s key = .ok t → ∀ other, other ≠ key → view t other = view s other)
    {s t : σ} (start : good s) {keys : List ε} (distinct : keys.Nodup) (ran : run step s keys = .ok t) :
    (∀ key ∈ keys, change key (view s key) (view t key)) ∧ ∀ key, key ∉ keys → view t key = view s key := by
  induction keys generalizing s with
  | nil =>
    cases ran
    exact ⟨fun _ member => absurd member List.not_mem_nil,fun _ _ => rfl⟩
  | cons first rest ih =>
    obtain ⟨fresh,distinct⟩ := List.nodup_cons.mp distinct
    obtain ⟨middle,one,tail⟩ := bind_ok.mp ran
    obtain ⟨changed,same⟩ := ih (kept s first middle start one) distinct tail
    have aside := others s first middle start one
    constructor
    · intro key member
      rcases List.mem_cons.mp member with rfl | later
      · rw [same key fresh]
        exact own s key middle start one
      · have differs : key ≠ first := fun here => fresh (here ▸ later)
        rw [← aside key differs]
        exact changed key later
    · intro key absent
      obtain ⟨differs,later⟩ := not_or.mp fun either => absent (List.mem_cons.mpr either)
      rw [same key later,aside key differs]

-- Where an allowed step from a good state leads to a good state exactly when its
-- guard holds, a run of allowed steps stays good exactly when every step of it meets
-- its guard. `kept` is whatever else the allowed steps preserve.
theorem always_iff_steps_among (kept : σ → Prop) (allowed : σ → ε → Prop)
    (inductive_ : ∀ s event next, kept s → allowed s event → step s event = .ok next → kept next)
    (exact_ : ∀ s event next, kept s → allowed s event → good s → step s event = .ok next →
      (good next ↔ guard s event))
    {s : σ} (valid : kept s) (start : good s) {events : List ε} (permitted : Steps step allowed s events) :
    Always step good s events ↔ Steps step guard s events := by
  induction events generalizing s with
  | nil => exact ⟨fun _ => trivial,fun _ => start⟩
  | cons event rest ih =>
    cases one : step s event with
    | error fault => simp [Always,Steps,one,start]
    | ok next =>
      obtain ⟨here,later⟩ := (steps_cons one).mp permitted
      have next_valid := inductive_ s event next valid here one
      have turn := exact_ s event next valid here start one
      rw [always_cons one,steps_cons one]
      constructor
      · rintro ⟨_,always⟩
        exact ⟨turn.mp always.here,(ih next_valid always.here later).mp always⟩
      · rintro ⟨met,steps⟩
        exact ⟨start,(ih next_valid (turn.mpr met) later).mpr steps⟩

-- A run with notes that are kept beside the state and do not influence it.
section Notes
variable {ν : Type u} {note : σ → ε → σ → ν → ν}

def annotate (step : σ → ε → Except φ σ) (note : σ → ε → σ → ν → ν) (s : σ × ν) (event : ε) : Except φ (σ × ν) := do
  let next ← step s.1 event
  return (next,note s.1 event next s.2)

theorem annotate_ok {s t : σ × ν} {event : ε} :
    annotate step note s event = .ok t ↔ step s.1 event = .ok t.1 ∧ t.2 = note s.1 event t.1 s.2 := by
  constructor
  · intro ran
    obtain ⟨next,one,result⟩ := bind_ok.mp ran
    cases result
    exact ⟨one,rfl⟩
  · rintro ⟨one,noted⟩
    refine bind_ok.mpr ⟨t.1,one,?_⟩
    rw [← noted]
    rfl

theorem annotate_run (note : σ → ε → σ → ν → ν) {s t : σ} {events : List ε} (ran : run step s events = .ok t) (n : ν) :
    ∃ n', run (annotate step note) (s,n) events = .ok (t,n') := by
  induction events generalizing s n with
  | nil => cases ran; exact ⟨n,rfl⟩
  | cons event rest ih =>
    obtain ⟨middle,one,tail⟩ := bind_ok.mp ran
    obtain ⟨n',more⟩ := ih tail (note s event middle n)
    exact ⟨n',bind_ok.mpr ⟨_,annotate_ok.mpr ⟨one,rfl⟩,more⟩⟩

end Notes

theorem steps_reached {s t next : σ} {first rest : List ε} {event : ε} (steps : Steps step guard s (first ++ event :: rest))
    (ran : run step s first = .ok t) (one : step t event = .ok next) : guard t event := by
  induction first generalizing s with
  | nil =>
    cases ran
    exact ((steps_cons one).mp steps).1
  | cons head first ih =>
    obtain ⟨middle,here,tail⟩ := bind_ok.mp ran
    exact ih ((steps_cons here).mp steps).2 tail

theorem run_among {kept : σ → Prop} {allowed : σ → ε → Prop}
    (inductive_ : ∀ s event next, kept s → allowed s event → step s event = .ok next → kept next)
    {s t : σ} (valid : kept s) {events : List ε} (permitted : Steps step allowed s events) (ran : run step s events = .ok t) :
    kept t := by
  induction events generalizing s with
  | nil => cases ran; exact valid
  | cons event rest ih =>
    obtain ⟨middle,one,tail⟩ := bind_ok.mp ran
    obtain ⟨here,later⟩ := (steps_cons one).mp permitted
    exact ih (inductive_ s event middle valid here one) later tail

theorem steps_iff_among {kept : σ → Prop} {allowed guard' : σ → ε → Prop}
    (inductive_ : ∀ s event next, kept s → allowed s event → step s event = .ok next → kept next)
    (exact_ : ∀ s event next, kept s → allowed s event → step s event = .ok next → (guard s event ↔ guard' s event))
    {s : σ} (valid : kept s) {events : List ε} (permitted : Steps step allowed s events) :
    Steps step guard s events ↔ Steps step guard' s events := by
  induction events generalizing s with
  | nil => exact Iff.rfl
  | cons event rest ih =>
    cases one : step s event with
    | error fault => simp [Steps,one]
    | ok next =>
      obtain ⟨here,later⟩ := (steps_cons one).mp permitted
      rw [steps_cons one,steps_cons one,exact_ s event next valid here one,ih (inductive_ s event next valid here one) later]

theorem steps_each {events : List ε} (met : ∀ event ∈ events, ∀ s, guard s event) (s : σ) : Steps step guard s events := by
  induction events generalizing s with
  | nil => trivial
  | cons event rest ih =>
    obtain ⟨here,later⟩ := List.forall_mem_cons.mp met
    cases one : step s event with
    | error fault => simp [Steps,one]
    | ok next => exact (steps_cons one).mpr ⟨here s,ih later next⟩

theorem steps_append {s : σ} {first rest : List ε} (steps : Steps step guard s first)
    (later : ∀ t, run step s first = .ok t → Steps step guard t rest) : Steps step guard s (first ++ rest) := by
  induction first generalizing s with
  | nil => exact later s rfl
  | cons event first ih =>
    cases one : step s event with
    | error fault => simp [Steps,one]
    | ok middle =>
      obtain ⟨here,tail⟩ := (steps_cons one).mp steps
      refine (steps_cons one).mpr ⟨here,ih tail fun t ran => ?_⟩
      exact later t (bind_ok.mpr ⟨middle,one,ran⟩)

theorem Steps.and {guard' : σ → ε → Prop} {s : σ} {events : List ε} (first : Steps step guard s events)
    (second : Steps step guard' s events) : Steps step (fun s event => guard s event ∧ guard' s event) s events := by
  induction events generalizing s with
  | nil => trivial
  | cons event rest ih =>
    cases one : step s event with
    | error fault => simp [Steps,one]
    | ok next =>
      obtain ⟨here,later⟩ := (steps_cons one).mp first
      obtain ⟨also,too⟩ := (steps_cons one).mp second
      exact (steps_cons one).mpr ⟨⟨here,also⟩,ih later too⟩

theorem Always.steps {s : σ} {events : List ε} (always : Always step good s events) :
    Steps step (fun s event => good s ∧ ∀ next, step s event = .ok next → good next) s events := by
  induction events generalizing s with
  | nil => trivial
  | cons event rest ih =>
    cases one : step s event with
    | error fault => simp [Steps,one]
    | ok next =>
      obtain ⟨here,later⟩ := (always_cons one).mp always
      refine (steps_cons one).mpr ⟨⟨here,fun other same => ?_⟩,ih later⟩
      cases one.symm.trans same
      exact later.here

theorem Steps.project {σ' : Type u} {step' : σ' → ε → Except φ σ'} (shown : σ' → σ)
    (same : ∀ s event t, step' s event = .ok t → step (shown s) event = .ok (shown t)) {s : σ'} {events : List ε}
    (steps : Steps step guard (shown s) events) : Steps step' (fun s event => guard (shown s) event) s events := by
  induction events generalizing s with
  | nil => trivial
  | cons event rest ih =>
    cases one : step' s event with
    | error fault => simp [Steps,one]
    | ok next =>
      obtain ⟨here,later⟩ := (steps_cons (same s event next one)).mp steps
      exact (steps_cons one).mpr ⟨here,ih later⟩

theorem steps_all (met : ∀ s event, guard s event) (s : σ) (events : List ε) : Steps step guard s events :=
  steps_each (fun event _ s => met s event) s

theorem always_iff_steps (kept : σ → Prop)
    (inductive_ : ∀ s event next, kept s → step s event = .ok next → kept next)
    (exact_ : ∀ s event next, kept s → good s → step s event = .ok next → (good next ↔ guard s event))
    {s : σ} (valid : kept s) (start : good s) (events : List ε) :
    Always step good s events ↔ Steps step guard s events :=
  always_iff_steps_among kept (fun _ _ => True) (fun s event next valid _ => inductive_ s event next valid)
    (fun s event next valid _ => exact_ s event next valid) valid start (steps_all (fun _ _ => trivial) s events)

end Runs
