import Mathlib.Data.List.Infix

-- Paths as lists of characters: their parts, and the directory a path leads to when
-- every part is taken as it is written.
namespace Paths
universe u
variable {α : Type u} [DecidableEq α]

def parts (sep : α → Bool) (path : List α) : List (List α) := path.splitOnP sep

-- One part from the directory `here`: an empty part and a dot stay, two dots go up.
def enter (dot : α) (here : List (List α)) (part : List α) : List (List α) :=
  if part = [] ∨ part = [dot] then here
  else if part = [dot,dot] then here.dropLast
  else here ++ [part]

def walk (dot : α) (here : List (List α)) (way : List (List α)) : List (List α) := way.foldl (enter dot) here

-- A path that starts with a separator is followed from the root, any other from `cwd`.
def resolve (sep : α → Bool) (dot : α) (cwd : List (List α)) (path : List α) : List (List α) :=
  walk dot (if path.head?.any sep then [] else cwd) (parts sep path)

variable {sep : α → Bool} {dot : α} {here cwd : List (List α)}

theorem enter_below {part : List α} (down : part ≠ [dot,dot]) : here <+: enter dot here part := by
  unfold enter
  split
  · exact List.prefix_rfl
  · exact List.prefix_append here [part]

theorem walk_below {way : List (List α)} (down : ∀ part ∈ way, part ≠ [dot,dot]) : here <+: walk dot here way := by
  induction way generalizing here with
  | nil => exact List.prefix_rfl
  | cons part rest ih =>
    obtain ⟨first,later⟩ := List.forall_mem_cons.mp down
    exact (enter_below first).trans (ih later)

omit [DecidableEq α] in
theorem parts_pieces (sep : α → Bool) (path : List α) :
    ∃ first others, parts sep path = first :: others ∧ first <+: path ∧ ∀ part ∈ others, part <:+: path := by
  unfold parts
  induction path with
  | nil => exact ⟨[],[],List.splitOnP_nil,List.prefix_rfl,fun _ member => absurd member List.not_mem_nil⟩
  | cons x rest ih =>
    obtain ⟨first,others,split,start,pieces⟩ := ih
    rw [List.splitOnP_cons_eq_if_modifyHead,split]
    by_cases edge : sep x = true
    · rw [if_pos edge]
      refine ⟨[],first :: others,rfl,List.nil_prefix,List.forall_mem_cons.mpr ⟨?_,fun part member => ?_⟩⟩
      · exact List.infix_cons start.isInfix
      · exact List.infix_cons (pieces part member)
    · rw [if_neg edge]
      refine ⟨x :: first,others,rfl,List.cons_prefix_cons.mpr ⟨rfl,start⟩,fun part member => ?_⟩
      exact List.infix_cons (pieces part member)

omit [DecidableEq α] in
theorem part_within {path part : List α} (member : part ∈ parts sep path) : part <:+: path := by
  obtain ⟨first,others,split,start,pieces⟩ := parts_pieces sep path
  rw [split] at member
  rcases List.mem_cons.mp member with rfl | later
  · exact start.isInfix
  · exact pieces part later

-- Which separator stands between two parts does not matter.
omit [DecidableEq α] in
theorem parts_map {f : α → α} (edges : ∀ c, sep (f c) = sep c) (others : ∀ c, sep c = false → f c = c)
    (path : List α) : parts sep (path.map f) = parts sep path := by
  unfold parts
  induction path with
  | nil => rfl
  | cons x rest ih =>
    rw [List.map_cons,List.splitOnP_cons_eq_if_modifyHead,List.splitOnP_cons_eq_if_modifyHead,edges,ih]
    cases edge : sep x with
    | true => rfl
    | false => rw [others x edge]

theorem resolve_map {f : α → α} (edges : ∀ c, sep (f c) = sep c) (others : ∀ c, sep c = false → f c = c)
    (path : List α) : resolve sep dot cwd (path.map f) = resolve sep dot cwd path := by
  have head : (path.map f).head?.any sep = path.head?.any sep := by
    cases path with
    | nil => rfl
    | cons x rest => exact edges x
  rw [resolve,head,parts_map edges others]
  rfl

theorem resolve_append {s : α} (edge : sep s = true) {base : List α} (started : base ≠ []) (rest : List α) :
    resolve sep dot cwd (base ++ s :: rest) = walk dot (resolve sep dot cwd base) (parts sep rest) := by
  have head : (base ++ s :: rest).head? = base.head? := List.head?_append_of_ne_nil base started
  have split : parts sep (base ++ s :: rest) = parts sep base ++ parts sep rest := List.splitOnP_append_cons base rest edge
  rw [resolve,head,split]
  exact List.foldl_append

theorem resolve_absolute {s : α} (edge : sep s = true) (rest : List α) :
    resolve sep dot cwd (s :: rest) = walk dot [] (parts sep rest) := by
  have split : parts sep (s :: rest) = [] :: parts sep rest := List.splitOnP_append_cons [] rest edge
  have rooted : (s :: rest).head?.any sep = true := edge
  rw [resolve,rooted,if_pos rfl,split]
  rfl

theorem resolve_slash {s : α} (edge : sep s = true) {base : List α} (started : base ≠ []) :
    resolve sep dot cwd (base ++ [s]) = resolve sep dot cwd base := by
  rw [resolve_append edge started]
  rfl

theorem resolve_below {s : α} (edge : sep s = true) (base : List α) {rest : List α} (free : ¬ [dot,dot] <:+: rest) :
    resolve sep dot cwd (base ++ [s]) <+: resolve sep dot cwd (base ++ s :: rest) := by
  have down : ∀ part ∈ parts sep rest, part ≠ [dot,dot] := by
    rintro part member rfl
    exact free (part_within member)
  by_cases started : base = []
  · subst started
    rw [List.nil_append,List.nil_append,resolve_absolute edge,resolve_absolute edge]
    exact walk_below down
  · rw [resolve_slash edge started,resolve_append edge started]
    exact walk_below down

end Paths
