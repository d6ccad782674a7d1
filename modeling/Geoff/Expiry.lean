import Mathlib.Data.List.Basic
import Mathlib.Tactic.Basic

-- Queues of at most `cap` items that age with every tick. A tick that finds an item of
-- age `life` takes one item away, whichever is in front. An item is written as its age.
namespace Expiry

def older (ages : List Nat) : List Nat := ages.map (· + 1)

def due (life : Nat) (ages : List Nat) : Bool := (older ages).any (life ≤ ·)

def tick (life : Nat) (ages : List Nat) : List Nat := if due life ages then (older ages).tail else older ages

def taken (life : Nat) (ages : List Nat) : Option Nat := if due life ages then (older ages).head? else none

-- The oldest item is in front, and an item that is due has at most as many ticks left to
-- wait as there are items before it.
structure Line (life cap : Nat) where
  ages : List Nat
  few : ages.length ≤ cap
  falling : ages.Pairwise (· ≥ ·)
  waiting : ∀ i age, ages[i]? = some age → age + i + 1 < life + cap

theorem sublist_index {α : Type} {rest all : List α} (sub : rest.Sublist all) {i : Nat} {x : α} (found : rest[i]? = some x) :
    ∃ j, i ≤ j ∧ all[j]? = some x := by
  induction sub generalizing i with
  | slnil => simp at found
  | cons y sub ih =>
    obtain ⟨j,behind,there⟩ := ih found
    exact ⟨j + 1,by omega,by simpa using there⟩
  | cons_cons y sub ih =>
    cases i with
    | zero => exact ⟨0,Nat.le_refl _,by simpa using found⟩
    | succ i =>
      obtain ⟨j,behind,there⟩ := ih (by simpa using found)
      exact ⟨j + 1,by omega,by simpa using there⟩

theorem older_index {ages : List Nat} {i age : Nat} (found : (older ages)[i]? = some age) :
    ∃ before, ages[i]? = some before ∧ age = before + 1 := by
  rw [older,List.getElem?_map] at found
  obtain ⟨before,there,rfl⟩ := Option.map_eq_some_iff.mp found
  exact ⟨before,there,rfl⟩

theorem older_falling {ages : List Nat} (falling : ages.Pairwise (· ≥ ·)) : (older ages).Pairwise (· ≥ ·) := by
  refine List.pairwise_map.mpr (falling.imp ?_)
  intro old young before
  omega

theorem not_due {life : Nat} {ages : List Nat} (fresh : due life ages = false) {age : Nat} (member : age ∈ older ages) :
    age < life := by
  by_contra late
  have some_due : due life ages = true := List.any_eq_true.mpr ⟨age,member,decide_eq_true (Nat.le_of_not_lt late)⟩
  rw [fresh] at some_due
  cases some_due

namespace Line
variable {life cap : Nat}

def empty : Line life cap := ⟨[],by simp,by simp,by simp⟩

def push (young : 0 < life) (line : Line life cap) : Line life cap :=
  if full : line.ages.length = cap then line else {
    ages := line.ages ++ [0]
    few := by
      have few := line.few
      simp only [List.length_append,List.length_singleton]
      omega
    falling := List.pairwise_append.mpr ⟨line.falling,by simp,by simp⟩
    waiting := by
      intro i age found
      have few := line.few
      by_cases old : i < line.ages.length
      · exact line.waiting i age (by rwa [List.getElem?_append_left old] at found)
      · rw [List.getElem?_append_right (by omega)] at found
        have last := List.mem_of_getElem? found
        have bound := (List.getElem?_eq_some_iff.mp found).1
        simp only [List.length_singleton] at bound
        rw [List.mem_singleton.mp last]
        omega }

def keep (line : Line life cap) {ages : List Nat} (sub : ages.Sublist line.ages) : Line life cap where
  ages := ages
  few := Nat.le_trans sub.length_le line.few
  falling := line.falling.sublist sub
  waiting := by
    intro i age found
    obtain ⟨j,behind,there⟩ := sublist_index sub found
    have bound := line.waiting j age there
    omega

def tick (line : Line life cap) : Line life cap where
  ages := Expiry.tick life line.ages
  few := by
    have few := line.few
    unfold Expiry.tick older
    split
    · simp only [List.length_tail,List.length_map]; omega
    · simpa using few
  falling := by
    unfold Expiry.tick
    split
    · exact (older_falling line.falling).sublist (List.tail_sublist _)
    · exact older_falling line.falling
  waiting := by
    intro i age found
    unfold Expiry.tick at found
    split at found
    · -- the queue moves up by the item that is taken
      rw [List.getElem?_tail] at found
      obtain ⟨before,there,rfl⟩ := older_index found
      have bound := line.waiting (i + 1) before there
      omega
    · rename_i fresh
      have young := not_due (Bool.eq_false_iff.mpr fresh) (List.mem_of_getElem? found)
      have few := line.few
      obtain ⟨before,there,rfl⟩ := older_index found
      have bound := (List.getElem?_eq_some_iff.mp there).1
      omega

theorem age_bound (line : Line life cap) {age : Nat} (member : age ∈ line.ages) : age + 1 < life + cap := by
  obtain ⟨i,found⟩ := List.mem_iff_getElem?.mp member
  have bound := line.waiting i age found
  omega

-- The item that is taken is the oldest, so it is due itself.
theorem taken_age (line : Line life cap) {age : Nat} (took : taken life line.ages = some age) :
    life ≤ age ∧ age < life + cap := by
  unfold taken at took
  split at took
  · rename_i late
    obtain ⟨other,member,reached⟩ := List.any_eq_true.mp late
    have reached : life ≤ other := of_decide_eq_true reached
    obtain ⟨rest,split⟩ := List.head?_eq_some_iff.mp took
    have falling := older_falling line.falling
    rw [split] at member falling
    have oldest : other ≤ age := by
      rcases List.mem_cons.mp member with rfl | later
      · exact Nat.le_refl _
      · exact (List.pairwise_cons.mp falling).1 other later
    have first : (older line.ages)[0]? = some age := by rw [split]; rfl
    obtain ⟨before,there,rfl⟩ := older_index first
    have bound := line.waiting 0 before there
    omega
  · cases took

end Line
end Expiry
