import Geoff.Session

-- The ids add_session hands out over any sequence of calls: a 32-bit counter that
-- wraps, beside a map that keeps each session until it is deleted.
namespace Geoff.SessionIds
variable {S : Type}

inductive Call where
  | addSession
  | deleteById (sessionID : UInt32)
deriving DecidableEq

def call (makeShared : UInt32 → S) (m : WebsockSessionManager S) : Call → WebsockSessionManager S
  | .addSession => (m.addSession makeShared).2
  | .deleteById sessionID => m.deleteById sessionID

def calls (makeShared : UInt32 → S) (history : List Call) : WebsockSessionManager S :=
  history.foldl (call makeShared) .make

def adds (history : List Call) : Nat := history.count .addSession

structure AddsFresh (makeShared : UInt32 → S) (m : WebsockSessionManager S) : Prop where
  fresh : (m.addSession makeShared).1 ∉ m.sessions
  kept : ∀ id, id ∈ m.sessions → (m.addSession makeShared).2.sessions[id]? = m.sessions[id]?
  count : (m.addSession makeShared).2.getCount = m.getCount + 1

def NeverReused (makeShared : UInt32 → S) (history : List Call) : Prop :=
  ∀ before after, history = before ++ .addSession :: after → AddsFresh makeShared (calls makeShared before)

-- Between an add_session call and the one that comes 2^32 such calls later, the id
-- of the first is deleted.
def DeletedInTime (history : List Call) : Prop :=
  ∀ before between after, history = before ++ .addSession :: (between ++ .addSession :: after) →
    adds between + 1 = 2 ^ 32 → .deleteById (UInt32.ofNat (adds before)) ∈ between

theorem next_id (id : UInt32) : (id + 1) &&& 0xFFFFFFFF = id + 1 := by
  apply UInt32.toNat_inj.mp
  have bound := (id + 1).toNat_lt
  rw [UInt32.toNat_and]
  exact (Nat.and_two_pow_sub_one_eq_mod _ 32).trans (Nat.mod_eq_of_lt bound)

theorem adds_fresh {makeShared : UInt32 → S} {m : WebsockSessionManager S} :
    AddsFresh makeShared m ↔ m.sessionId ∉ m.sessions := by
  constructor
  · intro adds; exact adds.fresh
  · intro fresh
    refine ⟨fresh,fun id known => ?_,?_⟩
    · have other : m.sessionId ≠ id := by rintro rfl; exact fresh known
      simp [WebsockSessionManager.addSession,Std.TreeMap.getElem?_insert,other]
    · simp [WebsockSessionManager.addSession,WebsockSessionManager.getCount,Std.TreeMap.size_insert,fresh]

@[simp] theorem adds_nil : adds [] = 0 := rfl
@[simp] theorem adds_append (first rest : List Call) : adds (first ++ rest) = adds first + adds rest :=
  List.count_append
@[simp] theorem adds_add (rest : List Call) : adds (.addSession :: rest) = adds rest + 1 := by simp [adds]
@[simp] theorem adds_delete (id : UInt32) (rest : List Call) : adds (.deleteById id :: rest) = adds rest := by
  simp [adds]

theorem calls_append (makeShared : UInt32 → S) (history : List Call) (last : Call) :
    calls makeShared (history ++ [last]) = call makeShared (calls makeShared history) last := by
  simp [calls]

theorem calls_id (makeShared : UInt32 → S) (history : List Call) :
    (calls makeShared history).sessionId = UInt32.ofNat (adds history) := by
  induction history using List.reverseRecOn with
  | nil => rfl
  | append_singleton history last ih =>
    rw [calls_append]
    cases last with
    | addSession =>
      simp only [call,WebsockSessionManager.addSession,next_id,ih,adds_append,adds_add,adds_nil]
      exact (UInt32.ofNat_add ..).symm
    | deleteById id => simpa [call,WebsockSessionManager.deleteById] using ih

def Living (history : List Call) (id : UInt32) : Prop :=
  ∃ before after, history = before ++ .addSession :: after ∧ UInt32.ofNat (adds before) = id ∧
    adds after < 2 ^ 32 ∧ .deleteById id ∉ after

theorem living_add (history : List Call) (id : UInt32) :
    Living (history ++ [.addSession]) id ↔ UInt32.ofNat (adds history) = id ∨ Living history id := by
  constructor
  · rintro ⟨before,after,split,same,few,kept⟩
    rcases Runs.split_last.mp split with ⟨rfl,_,_⟩ | ⟨rest,rfl,rfl⟩
    · exact .inl same
    · simp only [adds_append,adds_add,adds_nil] at few
      exact .inr ⟨before,rest,rfl,same,by omega,fun deleted => kept (List.mem_append_left _ deleted)⟩
  · rintro (rfl | ⟨before,after,rfl,same,few,kept⟩)
    · exact ⟨history,[],rfl,rfl,by simp,by simp⟩
    · by_cases full : adds after + 1 = 2 ^ 32
      · -- the 2^32-th call after the session's own hands its id out again
        have wrapped : UInt32.ofNat (adds (before ++ .addSession :: after)) = id := by
          rw [← same,adds_append,adds_add,full,UInt32.ofNat_add]
          simp
        exact ⟨before ++ .addSession :: after,[],rfl,wrapped,by simp,by simp⟩
      · refine ⟨before,after ++ [.addSession],by simp,same,?_,by simpa using kept⟩
        simp only [adds_append,adds_add,adds_nil]
        omega

theorem living_delete (history : List Call) (gone id : UInt32) :
    Living (history ++ [.deleteById gone]) id ↔ gone ≠ id ∧ Living history id := by
  constructor
  · rintro ⟨before,after,split,same,few,kept⟩
    rcases Runs.split_last.mp split with ⟨_,impossible,_⟩ | ⟨rest,rfl,rfl⟩
    · cases impossible
    · simp only [List.mem_append,List.mem_singleton,Call.deleteById.injEq,not_or] at kept
      exact ⟨Ne.symm kept.2,before,rest,rfl,same,by simpa using few,kept.1⟩
  · rintro ⟨other,before,after,rfl,same,few,kept⟩
    refine ⟨before,after ++ [.deleteById gone],by simp,same,by simpa using few,?_⟩
    simp only [List.mem_append,List.mem_singleton,Call.deleteById.injEq,not_or]
    exact ⟨kept,Ne.symm other⟩

theorem mem_calls (makeShared : UInt32 → S) (history : List Call) (id : UInt32) :
    id ∈ (calls makeShared history).sessions ↔ Living history id := by
  induction history using List.reverseRecOn with
  | nil =>
    constructor
    · intro known; exact absurd known Std.TreeMap.not_mem_emptyc
    · rintro ⟨before,after,split,_⟩; simp at split
  | append_singleton history last ih =>
    rw [calls_append]
    cases last with
    | addSession =>
      rw [living_add,← ih,← calls_id makeShared]
      simp [call,WebsockSessionManager.addSession]
    | deleteById gone =>
      rw [living_delete,← ih]
      simp [call,WebsockSessionManager.deleteById]

-- A call of add_session finds its id in use exactly when the session of the call
-- 2^32 calls before it has not been deleted.
theorem next_living (history : List Call) : Living history (UInt32.ofNat (adds history)) ↔
    ∃ before after, history = before ++ .addSession :: after ∧ adds after + 1 = 2 ^ 32 ∧
      .deleteById (UInt32.ofNat (adds before)) ∉ after := by
  constructor
  · rintro ⟨before,after,rfl,same,few,kept⟩
    refine ⟨before,after,rfl,?_,by rwa [same]⟩
    have wrapped := congrArg UInt32.toNat same
    simp only [UInt32.toNat_ofNat',adds_append,adds_add] at wrapped
    omega
  · rintro ⟨before,after,rfl,full,kept⟩
    have wrapped : UInt32.ofNat (adds before) = UInt32.ofNat (adds (before ++ .addSession :: after)) := by
      rw [adds_append,adds_add,full,UInt32.ofNat_add]
      simp
    exact ⟨before,after,rfl,wrapped,by omega,by rwa [← wrapped]⟩

theorem never_reused_iff (makeShared : UInt32 → S) (history : List Call) :
    NeverReused makeShared history ↔ DeletedInTime history := by
  have turn : ∀ before, AddsFresh makeShared (calls makeShared before) ↔ ¬ ∃ first between,
      before = first ++ .addSession :: between ∧ adds between + 1 = 2 ^ 32 ∧
        .deleteById (UInt32.ofNat (adds first)) ∉ between := by
    intro before
    rw [adds_fresh,calls_id,mem_calls,next_living]
  constructor
  · intro never first between after split full
    by_contra kept
    exact (turn _).mp (never _ after (by rw [split]; simp)) ⟨first,between,rfl,full,kept⟩
  · rintro deleted before after rfl
    refine (turn before).mpr ?_
    rintro ⟨first,between,rfl,full,kept⟩
    exact kept (deleted first between after (by simp) full)

theorem wrap_reuses (makeShared : UInt32 → S) {n : Nat} (full : n + 1 = 2 ^ 32) :
    ¬ NeverReused makeShared (List.replicate (n + 2) .addSession) := by
  have ends : List.replicate (n + 2) Call.addSession =
      (.addSession :: List.replicate n .addSession) ++ .addSession :: [] := by
    rw [List.replicate_succ',List.replicate_succ]
  intro never
  have fresh := adds_fresh.mp (never _ _ ends)
  rw [calls_id,mem_calls,next_living] at fresh
  refine fresh ⟨[],List.replicate n .addSession,rfl,?_,?_⟩
  · rw [adds,List.count_replicate_self,full]
  · intro deleted
    cases List.eq_of_mem_replicate deleted

-- 2^32 + 1 sessions and no delete: the last call hands out the id of the first.
theorem wrapped_id_reused : ¬ NeverReused Session.make (List.replicate (2 ^ 32 + 1) .addSession) := by
  have full : 2 ^ 32 - 1 + 1 = 2 ^ 32 := by norm_num
  rw [← full]
  exact wrap_reuses Session.make full

end Geoff.SessionIds
