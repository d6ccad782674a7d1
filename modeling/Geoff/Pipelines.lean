import Mathlib.Data.List.Basic

-- A line of work of which the first item is in progress: an item that joins an empty line
-- is started at once, and when the first one is done it leaves and the next is started.
namespace Pipelines
universe u
variable {α : Type u}

structure Line (α : Type u) where
  items : List α
  started : List α

namespace Line

def push (l : Line α) (x : α) : Line α := ⟨l.items ++ [x],if l.items = [] then l.started ++ [x] else l.started⟩

def finish (l : Line α) : Line α := ⟨l.items.tail,l.started ++ l.items.tail.head?.toList⟩

def joined (l : Line α) : List α := l.started ++ l.items.tail

def Chained (kept : α → Prop) (l : Line α) : Prop :=
  match l.items with
  | [] => ∀ x ∈ l.started, kept x
  | front :: _ => ∃ before, l.started = before ++ [front] ∧ ∀ x ∈ before, kept x

variable {kept : α → Prop}

theorem push_joined (l : Line α) (x : α) : (l.push x).joined = l.joined ++ [x] := by
  unfold push joined
  cases l.items with
  | nil => simp
  | cons front rest => simp

theorem finish_joined {l : Line α} (busy : l.items ≠ []) : l.finish.joined = l.joined := by
  unfold finish joined
  obtain ⟨front,rest,items⟩ := List.exists_cons_of_ne_nil busy
  rw [items]
  cases rest with
  | nil => simp
  | cons next rest => simp

theorem push_chained {l : Line α} (chained : l.Chained kept) (x : α) : (l.push x).Chained kept := by
  unfold Chained at chained ⊢
  unfold push
  cases items : l.items with
  | nil =>
    rw [items] at chained
    exact ⟨l.started,by rw [if_pos rfl],chained⟩
  | cons front rest =>
    rw [items] at chained
    rw [if_neg (List.cons_ne_nil front rest)]
    exact chained

theorem finish_chained {l : Line α} {front : α} {rest : List α} (chained : l.Chained kept)
    (items : l.items = front :: rest) (goes : kept front) : l.finish.Chained kept := by
  unfold Chained at chained ⊢
  rw [items] at chained
  obtain ⟨before,started,all⟩ := chained
  have done : ∀ x ∈ l.started, kept x := by
    intro x member
    rw [started] at member
    rcases List.mem_append.mp member with early | last
    · exact all x early
    · rw [List.mem_singleton.mp last]
      exact goes
  unfold finish
  rw [items]
  cases rest with
  | nil =>
    intro x member
    rw [List.tail_cons,List.head?_nil,Option.toList_none,List.append_nil] at member
    exact done x member
  | cons next rest => exact ⟨l.started,rfl,done⟩

theorem chained_started {l : Line α} (chained : l.Chained kept) : ∀ x ∈ l.started.dropLast, kept x := by
  unfold Chained at chained
  cases items : l.items with
  | nil =>
    rw [items] at chained
    exact fun x member => chained x (List.dropLast_subset l.started member)
  | cons front rest =>
    rw [items] at chained
    obtain ⟨before,started,all⟩ := chained
    rw [started,List.dropLast_concat]
    exact all

end Line
end Pipelines
