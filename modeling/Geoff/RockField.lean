import Geoff.AppBuffer
import Geoff.Ship

namespace Geoff
open Consts

-- apps/asteroids/src/Rock.cpp
structure Rock extends Position, Velocity where
  radius : ℚ
deriving DecidableEq, Inhabited

-- A std::list node; its number stands for the iterator, which an erase of other
-- nodes leaves valid and which is never handed out again.
structure RockNode where
  iter : Nat
  rock : Rock
deriving DecidableEq

-- apps/asteroids/src/RockField.cpp
structure RockField where
  rocks : List RockNode
  nextIter : Nat
  distinct : (rocks.map RockNode.iter).Nodup
  issued : ∀ node ∈ rocks, node.iter < nextIter

variable (A : Arith) (u : Size)

def Rock.tickEvent (r : Rock) : Rock :=
  {r with
    posX := wrapCoordinate u.sizeW (A.fl (r.posX + r.deltaX)),
    posY := wrapCoordinate u.sizeH (A.fl (r.posY + r.deltaY))}

namespace RockField

def make : RockField := ⟨[],0,by simp,by simp⟩

def pushBack (field : RockField) (rock : Rock) : RockField where
  rocks := field.rocks ++ [⟨field.nextIter,rock⟩]
  nextIter := field.nextIter + 1
  distinct := by
    rw [List.map_append,List.nodup_append]
    refine ⟨field.distinct,by simp,?_⟩
    intro i old j new
    obtain ⟨node,member,rfl⟩ := List.mem_map.mp old
    have bound := field.issued node member
    simp only [List.map_cons,List.map_nil,List.mem_singleton] at new
    omega
  issued := by
    intro node member
    rcases List.mem_append.mp member with old | new
    · exact Nat.lt_succ_of_lt (field.issued node old)
    · rw [List.mem_singleton.mp new]; exact Nat.lt_succ_self _

def find (field : RockField) (iter : Nat) : Option Rock :=
  (field.rocks.find? (fun node => node.iter == iter)).map RockNode.rock

def erase (field : RockField) (iter : Nat) : RockField where
  rocks := field.rocks.filter (fun node => node.iter ≠ iter)
  nextIter := field.nextIter
  distinct := (List.filter_sublist.map RockNode.iter).nodup field.distinct
  issued := fun node member => field.issued node (List.mem_of_mem_filter member)

def randomDelta (rand : Rand) : ℚ × Rand :=
  let (magnitude,rand) := rand.random A
  let (sign,rand) := rand.random A
  (A.fl (A.fl (A.fl (magnitude * rockSpeed) / fps) * if sign < 1 / 2 then 1 else -1),rand)

def launchOne (field : RockField) (rand : Rand) (x y r : ℚ) : RockField × Rand :=
  let (dx,rand) := randomDelta A rand
  let (dy,rand) := randomDelta A rand
  (field.pushBack ⟨⟨x,y⟩,⟨dx,dy⟩,r⟩,rand)

def launchFragments (field : RockField) (rand : Rand) (x y r : ℚ) : RockField × Rand :=
  let (field,rand) := field.launchOne A rand x y (A.fl (r / 2))
  field.launchOne A rand x y (A.fl (r / 2))

-- Dereferencing or erasing an iterator whose node is gone is undefined.
def destroyRock (field : RockField) (rand : Rand) (rockIt : Nat) : Except Fault (RockField × Rand) :=
  match field.find rockIt with
  | none => .error .erasedRock
  | some rock =>
    let field := field.erase rockIt
    if rock.radius ≥ rockRadius then .ok (field.launchFragments A rand rock.posX rock.posY rock.radius)
    else if rock.radius ≥ rockRadius / 2 then .ok (field.launchFragments A rand rock.posX rock.posY rock.radius)
    else .ok (field,rand)

def tickEvent (field : RockField) : RockField where
  rocks := field.rocks.map (fun node => {node with rock := node.rock.tickEvent A u})
  nextIter := field.nextIter
  distinct := by simpa [Function.comp_def] using field.distinct
  issued := by
    intro node member
    obtain ⟨old,present,rfl⟩ := List.mem_map.mp member
    exact field.issued old present

theorem find_isSome {field : RockField} {iter : Nat} : (field.find iter).isSome ↔ iter ∈ field.rocks.map RockNode.iter := by
  simp [find]

theorem find_member {field : RockField} {node : RockNode} (member : node ∈ field.rocks) :
    field.find node.iter = some node.rock := by
  obtain ⟨before,after,split⟩ := List.append_of_mem member
  have distinct := field.distinct
  rw [split,List.map_append,List.map_cons,List.nodup_middle,List.nodup_cons] at distinct
  have earlier : before.find? (fun other => other.iter == node.iter) = none := by
    refine List.find?_eq_none.mpr fun other here same => distinct.1 (List.mem_append_left _ ?_)
    rw [← eq_of_beq same]
    exact List.mem_map_of_mem here
  simp [find,split,List.find?_append,earlier]

theorem find_bound {field : RockField} {iter : Nat} {rock : Rock} (found : field.find iter = some rock) :
    iter < field.nextIter := by
  obtain ⟨node,member,rfl⟩ := List.mem_map.mp (find_isSome.mp (by rw [found]; rfl))
  exact field.issued node member

theorem find_pushBack {field : RockField} {iter : Nat} (old : iter < field.nextIter) (rock : Rock) :
    (field.pushBack rock).find iter = field.find iter := by
  have other : ¬ field.nextIter = iter := by omega
  simp [find,pushBack,List.find?_append,other]

theorem find_erase_self (field : RockField) (iter : Nat) : (field.erase iter).find iter = none := by
  simp [find,erase,List.find?_filter]

theorem find_erase_other {field : RockField} {iter other : Nat} (ne : other ≠ iter) :
    (field.erase iter).find other = field.find other := by
  have test : (fun node : RockNode => decide (decide (node.iter ≠ iter) = true ∧ (node.iter == other) = true)) =
      fun node => node.iter == other := by
    funext node
    by_cases same : node.iter = other
    · simp [same,ne]
    · simp [same]
  simp only [find,erase,List.find?_filter,test]

theorem find_launchFragments {field : RockField} {iter : Nat} (old : iter < field.nextIter) (rand : Rand) (x y r : ℚ) :
    (field.launchFragments A rand x y r).1.find iter = field.find iter := by
  simp only [launchFragments,launchOne]
  rw [find_pushBack (by simp only [pushBack]; omega),find_pushBack old]

theorem destroyRock_found {field : RockField} {iter : Nat} {rock : Rock} (found : field.find iter = some rock) (rand : Rand) :
    ∃ next, field.destroyRock A rand iter = .ok next ∧ field.nextIter ≤ next.1.nextIter ∧
      ∀ other, other < field.nextIter → next.1.find other = if other = iter then none else field.find other := by
  have left : ∀ other, (field.erase iter).find other = if other = iter then none else field.find other := by
    intro other
    by_cases same : other = iter
    · rw [if_pos same,same,find_erase_self]
    · rw [if_neg same,find_erase_other same]
  have split : ∀ x y r, field.nextIter ≤ ((field.erase iter).launchFragments A rand x y r).1.nextIter ∧
      ∀ other, other < field.nextIter →
        ((field.erase iter).launchFragments A rand x y r).1.find other = if other = iter then none else field.find other := by
    intro x y r
    refine ⟨?_,fun other old => ?_⟩
    · simp only [launchFragments,launchOne,pushBack,erase]; omega
    · rw [find_launchFragments A (show other < (field.erase iter).nextIter from old),left]
  simp only [destroyRock,found]
  split
  · exact ⟨_,rfl,split _ _ _⟩
  · split
    · exact ⟨_,rfl,split _ _ _⟩
    · exact ⟨_,rfl,Nat.le_refl _,fun other _ => left other⟩

end RockField
end Geoff
