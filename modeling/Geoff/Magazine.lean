import Geoff.Expiry
import Geoff.Ship

-- The bullets of a gun with a note on each of them, over any sequence of shots, ticks and
-- erasures: which bullet a tick pops, and at what age.
namespace Geoff.Magazine
open Consts Expiry

structure Shot (τ : Type) where
  bullet : Bullet
  note : τ

variable {τ : Type}

def bullets (shots : List (Shot τ)) : List Bullet := shots.map Shot.bullet

section
variable (A : Arith) (u : Size)

-- Gun::Fire and Gun::TickEvent, bullet by bullet. A bullet that was just fired gets the
-- note `fresh`; a tick of the gun rewrites the notes by `older`.
def fire (fresh : τ) (ship : Ship) (shots : List (Shot τ)) : List (Shot τ) :=
  shots ++ ((Gun.fire A ⟨bullets shots⟩ ship).bullets.drop shots.length).map fun b => ⟨b,fresh⟩

def aged (older : τ → τ) (shots : List (Shot τ)) : List (Shot τ) :=
  shots.map fun s => ⟨(s.bullet.tickEvent A u).1,older s.note⟩

def timedOut (shots : List (Shot τ)) : Bool := shots.any fun s => (s.bullet.tickEvent A u).2

def tick (older : τ → τ) (shots : List (Shot τ)) : List (Shot τ) :=
  if timedOut A u shots then (aged A u older shots).tail else aged A u older shots

def popped (older : τ → τ) (shots : List (Shot τ)) : Option (Shot τ) :=
  if timedOut A u shots then (aged A u older shots).head? else none

-- CollisionDetection erases by iterator, so in any order and at any place.
inductive GunEvent where
  | fire (ship : Ship)
  | tick
  | erase (index : Nat)

def act (gun : Gun) : GunEvent → Gun
  | .fire ship => gun.fire A ship
  | .tick => gun.tickEvent A u
  | .erase index => ⟨gun.bullets.eraseIdx index⟩

def note (shots : List (Shot Nat)) : GunEvent → List (Shot Nat)
  | .fire ship => fire A 0 ship shots
  | .tick => tick A u (· + 1) shots
  | .erase index => shots.eraseIdx index

def acts (gun : Gun) (events : List GunEvent) : Gun := events.foldl (act A u) gun
def notes (shots : List (Shot Nat)) (events : List GunEvent) : List (Shot Nat) := events.foldl (note A u) shots

end

variable {A : Arith} {u : Size}

theorem fire_grows (gun : Gun) (ship : Ship) : ∃ new, (gun.fire A ship).bullets = gun.bullets ++ new ∧
    (gun.bullets.length = gunMagSize ∧ new = [] ∨
      gun.bullets.length ≠ gunMagSize ∧ ∃ b : Bullet, new = [b] ∧ b.ticksLeft = 180) := by
  unfold Gun.fire
  split
  · rename_i full
    exact ⟨[],by simp,.inl ⟨full,rfl⟩⟩
  · rename_i room
    exact ⟨_,rfl,.inr ⟨room,_,rfl,rfl⟩⟩

theorem fire_bullets (fresh : τ) (ship : Ship) (shots : List (Shot τ)) :
    bullets (fire A fresh ship shots) = (Gun.fire A ⟨bullets shots⟩ ship).bullets := by
  obtain ⟨new,grows,_⟩ := fire_grows (A := A) ⟨bullets shots⟩ ship
  have width : shots.length = (bullets shots).length := (List.length_map _).symm
  rw [fire,grows,width,List.drop_left]
  simp [bullets,Function.comp_def]

theorem aged_bullets (older : τ → τ) (shots : List (Shot τ)) :
    bullets (aged A u older shots) = ((bullets shots).map (Bullet.tickEvent A u)).map Prod.fst := by
  simp [bullets,aged,Function.comp_def]

theorem tick_bullets (older : τ → τ) (shots : List (Shot τ)) :
    bullets (tick A u older shots) = (Gun.tickEvent A u ⟨bullets shots⟩).bullets := by
  have late : timedOut A u shots = ((bullets shots).map (Bullet.tickEvent A u)).any Prod.snd := by
    simp [timedOut,bullets,Function.comp_def]
  unfold tick Gun.tickEvent
  cases shots with
  | nil => simp [timedOut,aged,bullets]
  | cons s rest =>
    rw [late]
    simp only [bullets,List.map_cons,List.isEmpty_cons,Bool.false_eq_true,if_false]
    split
    · rw [List.map_tail]
      exact congrArg List.tail (aged_bullets older (s :: rest))
    · exact aged_bullets older (s :: rest)

theorem notes_bullets (shots : List (Shot Nat)) (events : List GunEvent) :
    bullets (notes A u shots events) = (acts A u ⟨bullets shots⟩ events).bullets := by
  induction events generalizing shots with
  | nil => rfl
  | cons event rest ih =>
    have one : bullets (note A u shots event) = (act A u ⟨bullets shots⟩ event).bullets := by
      cases event with
      | fire ship => exact fire_bullets 0 ship shots
      | tick => exact tick_bullets (· + 1) shots
      | erase index => exact (List.eraseIdx_map ..).symm
    refine (ih (note A u shots event)).trans ?_
    rw [one]
    rfl

-- The gun as a line of expiring items, `age` of a note being the gun ticks seen.
section Line
variable (age : τ → Nat)

structure Tracks (shots : List (Shot τ)) (line : Line 180 gunMagSize) : Prop where
  ages : shots.map (fun s => age s.note) = line.ages
  left : ∀ s ∈ shots, s.bullet.ticksLeft = 180 - age s.note

variable {age} {shots : List (Shot τ)} {line : Line 180 gunMagSize}

theorem tracks_nil : Tracks age [] (Line.empty : Line 180 gunMagSize) := ⟨rfl,fun _ member => absurd member List.not_mem_nil⟩

theorem tracks_fire {fresh : τ} (new : age fresh = 0) (tracks : Tracks age shots line) (ship : Ship) :
    Tracks age (fire A fresh ship shots) (line.push (by decide)) := by
  obtain ⟨more,grows,room⟩ := fire_grows (A := A) ⟨bullets shots⟩ ship
  have width : shots.length = (bullets shots).length := (List.length_map _).symm
  have same : line.ages.length = (bullets shots).length := by rw [← tracks.ages,List.length_map,width]
  have added : fire A fresh ship shots = shots ++ more.map fun b => ⟨b,fresh⟩ := by rw [fire,grows,width,List.drop_left]
  rw [added]
  rcases room with ⟨full,rfl⟩ | ⟨free,b,rfl,loaded⟩
  · rw [Line.push,dif_pos (same.trans full)]
    simpa using tracks
  · rw [Line.push,dif_neg (by rw [same]; exact free)]
    constructor
    · simp [tracks.ages,new]
    · intro s member
      rcases List.mem_append.mp member with old | last
      · exact tracks.left s old
      · rw [List.mem_singleton.mp last,new]
        exact loaded

theorem tracks_sublist (tracks : Tracks age shots line) {rest : List (Shot τ)} (sub : rest.Sublist shots) :
    ∃ line', Tracks age rest line' := by
  have kept : (rest.map fun s => age s.note).Sublist line.ages := by
    rw [← tracks.ages]
    exact sub.map _
  exact ⟨line.keep kept,rfl,fun s member => tracks.left s (sub.subset member)⟩

variable {older : τ → τ} (counts : ∀ n, age (older n) = age n + 1)
include counts

theorem tick_left {s : Shot τ} (left : s.bullet.ticksLeft = 180 - age s.note) :
    (s.bullet.tickEvent A u).1.ticksLeft = 180 - age (older s.note) ∧
      (s.bullet.tickEvent A u).2 = decide (180 ≤ age (older s.note)) := by
  have down : (s.bullet.tickEvent A u).1.ticksLeft = s.bullet.ticksLeft - 1 := by
    unfold Bullet.tickEvent
    by_cases last : s.bullet.ticksLeft = 0
    · simp [last]
    · by_cases next : s.bullet.ticksLeft - 1 = 0 <;> simp [last,next]
  have flag : (s.bullet.tickEvent A u).2 = decide ((s.bullet.tickEvent A u).1.ticksLeft = 0) := rfl
  rw [flag,down,left,counts]
  refine ⟨by omega,?_⟩
  simp only [decide_eq_decide]
  omega

theorem timedOut_due (tracks : Tracks age shots line) : timedOut A u shots = due 180 line.ages := by
  have each : ∀ s ∈ shots, (s.bullet.tickEvent A u).2 = decide (180 ≤ age s.note + 1) := by
    intro s member
    rw [(tick_left counts (tracks.left s member)).2,counts]
  rw [due,Expiry.older,← tracks.ages,List.map_map,List.any_map,timedOut,Bool.eq_iff_iff,List.any_eq_true,List.any_eq_true]
  refine exists_congr fun s => and_congr_right fun member => ?_
  rw [each s member]
  rfl

theorem aged_ages (tracks : Tracks age shots line) :
    (aged A u older shots).map (fun s => age s.note) = Expiry.older line.ages ∧
      ∀ s ∈ aged A u older shots, s.bullet.ticksLeft = 180 - age s.note := by
  constructor
  · rw [← tracks.ages,Expiry.older,aged,List.map_map,List.map_map]
    exact List.map_congr_left fun s _ => counts s.note
  · intro s member
    obtain ⟨before,there,rfl⟩ := List.mem_map.mp member
    exact (tick_left counts (tracks.left before there)).1

theorem tracks_tick (tracks : Tracks age shots line) : Tracks age (tick A u older shots) line.tick := by
  obtain ⟨ages,left⟩ := aged_ages (A := A) (u := u) counts tracks
  unfold tick
  rw [timedOut_due counts tracks]
  constructor
  · show _ = Expiry.tick 180 line.ages
    unfold Expiry.tick
    split
    · rw [List.map_tail,ages]
    · exact ages
  · split
    · exact fun s member => left s (List.mem_of_mem_tail member)
    · exact left

theorem popped_age (tracks : Tracks age shots line) {s : Shot τ} (took : popped A u older shots = some s) :
    s.bullet.ticksLeft = 0 ∧ 180 ≤ age s.note ∧ age s.note ≤ 185 := by
  obtain ⟨ages,left⟩ := aged_ages (A := A) (u := u) counts tracks
  unfold popped at took
  rw [timedOut_due counts tracks] at took
  split at took
  · rename_i late
    have first : taken 180 line.ages = some (age s.note) := by
      rw [taken,if_pos late,← ages,List.head?_map,took]
      rfl
    obtain ⟨reached,bound⟩ := line.taken_age first
    have empty := left s (List.mem_of_mem_head? took)
    simp only [gunMagSize] at bound
    exact ⟨by omega,reached,by omega⟩
  · cases took

end Line

structure LiveKept (A : Arith) (u : Size) (shots : List (Shot Nat)) : Prop where
  few : (bullets shots).length ≤ gunMagSize
  sorted : (bullets shots).Pairwise (fun b later => b.ticksLeft ≤ later.ticksLeft)
  pops : ∀ s, popped A u (· + 1) shots = some s → s.bullet.ticksLeft = 0 ∧ 180 ≤ s.note ∧ s.note ≤ 185
  waiting : ∀ s ∈ shots, s.note < 185

theorem count_next (n : Nat) : id (n + 1) = id n + 1 := rfl

theorem tracks_kept {shots : List (Shot Nat)} {line : Line 180 gunMagSize} (tracks : Tracks id shots line) :
    LiveKept A u shots := by
  have width : (bullets shots).length = line.ages.length := by rw [← tracks.ages]; simp [bullets]
  refine ⟨by rw [width]; exact line.few,?_,fun s took => popped_age count_next tracks took,fun s member => ?_⟩
  · have falling := line.falling
    rw [← tracks.ages,List.pairwise_map] at falling
    refine List.pairwise_map.mpr (falling.imp_of_mem ?_)
    intro s later here there older
    rw [tracks.left s here,tracks.left later there]
    omega
  · have inside : s.note ∈ line.ages := by
      rw [← tracks.ages]
      exact List.mem_map_of_mem member
    have bound := line.age_bound inside
    simp only [gunMagSize] at bound
    omega

theorem notes_track (events : List GunEvent) : ∃ line, Tracks id (notes A u [] events) line := by
  have all : ∀ shots, (∃ line, Tracks id shots line) → ∃ line, Tracks id (notes A u shots events) line := by
    induction events with
    | nil => exact fun shots tracked => tracked
    | cons event rest ih =>
      rintro shots ⟨line,tracks⟩
      refine ih (note A u shots event) ?_
      cases event with
      | fire ship => exact ⟨_,tracks_fire (id_eq 0) tracks ship⟩
      | tick => exact ⟨_,tracks_tick count_next tracks⟩
      | erase index => exact tracks_sublist tracks (List.eraseIdx_sublist ..)
  exact all [] ⟨_,tracks_nil⟩

theorem live_bullets_kept (A : Arith) (u : Size) (events : List GunEvent) :
    (acts A u ⟨[]⟩ events).bullets = bullets (notes A u [] events) ∧ LiveKept A u (notes A u [] events) := by
  obtain ⟨line,tracks⟩ := notes_track (A := A) (u := u) events
  exact ⟨(notes_bullets [] events).symm,tracks_kept tracks⟩

end Geoff.Magazine
