import Geoff.HandleRequest

-- Which files a request can reach: the ones below the document root, whatever its target
-- is. Links in the file system are outside of this.
namespace Geoff.Http
open Paths

def isSeparator (boostMsvc : Bool) (c : Char) : Bool := c == '/' || (boostMsvc && c == '\\')

def place (boostMsvc : Bool) (cwd : List Text) (path : Text) : List Text := resolve (isSeparator boostMsvc) '.' cwd path

def rootPlace (boostMsvc : Bool) (cwd : List Text) (docRoot : Text) : List Text :=
  place boostMsvc cwd (cStr (docRoot ++ ['/']))

theorem slash_separates (boostMsvc : Bool) : isSeparator boostMsvc '/' = true := by cases boostMsvc <;> rfl

theorem separator_separates (boostMsvc : Bool) : isSeparator boostMsvc (pathSeparator boostMsvc) = true := by
  cases boostMsvc <;> rfl

theorem backslash_edge (c : Char) : isSeparator true (backslash c) = isSeparator true c := by
  unfold backslash
  split
  · rename_i slash
    rw [slash]
    rfl
  · rfl

theorem backslash_other (c : Char) (inner : isSeparator true c = false) : backslash c = c := by
  unfold backslash
  rw [if_neg]
  rintro rfl
  cases inner

theorem backslash_place (cwd : List Text) (path : Text) : place true cwd (path.map backslash) = place true cwd path :=
  resolve_map backslash_edge backslash_other path

theorem backslash_cStr (path : Text) : cStr (path.map backslash) = (cStr path).map backslash := by
  have ends : ((fun c => decide (c ≠ '\x00')) ∘ backslash) = fun c => decide (c ≠ '\x00') := by
    funext c
    simp only [Function.comp,backslash]
    split
    · rename_i slash
      rw [slash]
      rfl
    · rfl
  unfold cStr
  rw [List.takeWhile_map,ends]

theorem cStr_append {base : Text} (free : '\x00' ∉ base) (rest : Text) : cStr (base ++ rest) = base ++ cStr rest := by
  refine List.takeWhile_append_of_pos fun c member => decide_eq_true ?_
  rintro rfl
  exact free member

theorem cStr_cut {base : Text} (ends : '\x00' ∈ base) (rest : Text) : cStr (base ++ rest) = cStr base := by
  unfold cStr
  induction base with
  | nil => exact absurd ends List.not_mem_nil
  | cons c base ih =>
    by_cases here : c = '\x00'
    · subst here
      rfl
    · have later : '\x00' ∈ base := (List.mem_cons.mp ends).resolve_left fun same => here same.symm
      rw [List.cons_append,List.takeWhile_cons_of_pos (by simpa using here),
        List.takeWhile_cons_of_pos (by simpa using here),ih later]

theorem dots_append {front back : Text} (start : back.head? ≠ some '.') (inside : dots <:+: front ++ back) :
    dots <:+: front ∨ dots <:+: back := by
  induction front with
  | nil => exact .inr inside
  | cons c rest ih =>
    rcases List.infix_cons_iff.mp inside with here | later
    · obtain ⟨same,next⟩ := List.cons_prefix_cons.mp here
      cases rest with
      | nil =>
        cases back with
        | nil => simp at next
        | cons d _ =>
          obtain ⟨again,_⟩ := List.cons_prefix_cons.mp next
          exact absurd (congrArg some again.symm) start
      | cons d _ =>
        obtain ⟨again,_⟩ := List.cons_prefix_cons.mp next
        subst same again
        exact .inl (List.prefix_append dots _).isInfix
    · rcases ih later with front | back
      · exact .inl (List.infix_cons front)
      · exact .inr back

-- The path that is opened: the root, less a separator at its end, and behind it the
-- target, in which nothing goes up.
theorem filePath_shape (b : Build) {req : Request} (docRoot : Text) (allowed : legal req.target = true) :
    ∃ base rest, ¬ dots <:+: rest ∧
      (base = docRoot ∨ docRoot = base ++ [pathSeparator b.boostMsvc]) ∧
      (filePath b req docRoot = base ++ '/' :: rest ∨
        (b.boostMsvc = true ∧ filePath b req docRoot = (base ++ '/' :: rest).map backslash)) := by
  obtain ⟨absolute,free⟩ := of_decide_eq_true allowed
  obtain ⟨rest,target⟩ := List.head?_eq_some_iff.mp absolute
  -- index.html behind a target that ends with a slash
  obtain ⟨page,safe,plain,paged⟩ : ∃ page : Text, (¬ dots <:+: rest ++ page) ∧ page.map backslash = page ∧
      ∀ path, (if req.target.getLast? = some '/' then path ++ "index.html".toList else path) = path ++ page := by
    have inner : ¬ dots <:+: rest := fun inside => free (target ▸ List.infix_cons inside)
    by_cases directory : req.target.getLast? = some '/'
    · refine ⟨"index.html".toList,fun inside => ?_,by decide,fun path => if_pos directory⟩
      rcases dots_append (by decide) inside with front | back
      · exact inner front
      · revert back
        decide
    · exact ⟨[],by rwa [List.append_nil],rfl,fun path => by rw [if_neg directory,List.append_nil]⟩
  have file : filePath b req docRoot = pathCat b.boostMsvc docRoot req.target ++ page := paged _
  by_cases empty : docRoot = []
  · refine ⟨[],rest ++ page,safe,.inl empty.symm,.inl ?_⟩
    rw [file,pathCat,if_pos empty,target]
    rfl
  · obtain ⟨base,stripped,same⟩ : ∃ base, (base = docRoot ∨ docRoot = base ++ [pathSeparator b.boostMsvc]) ∧
        (if docRoot.getLast? = some (pathSeparator b.boostMsvc) then docRoot.dropLast else docRoot) = base := by
      split
      · rename_i last
        exact ⟨_,.inr (List.dropLast_append_getLast? _ last).symm,rfl⟩
      · exact ⟨_,.inl rfl,rfl⟩
    refine ⟨base,rest ++ page,safe,stripped,?_⟩
    rw [file,pathCat,if_neg empty]
    dsimp only
    rw [same,target]
    cases msvc : b.boostMsvc with
    | false =>
      refine .inl ?_
      simp
    | true =>
      refine .inr ⟨rfl,?_⟩
      rw [if_pos rfl,← plain,← List.map_append,plain]
      simp

theorem root_stripped (boostMsvc : Bool) (cwd : List Text) {base docRoot : Text}
    (stripped : base = docRoot ∨ docRoot = base ++ [pathSeparator boostMsvc]) (free : '\x00' ∉ base) :
    rootPlace boostMsvc cwd docRoot = place boostMsvc cwd (base ++ ['/']) := by
  have slash := slash_separates boostMsvc
  have sep := separator_separates boostMsvc
  rcases stripped with rfl | same
  · rw [rootPlace,cStr_append free]
    rfl
  · have plain : cStr [pathSeparator boostMsvc,'/'] = [pathSeparator boostMsvc,'/'] := by cases boostMsvc <;> rfl
    rw [rootPlace,same,List.append_assoc,List.singleton_append,cStr_append free,plain]
    unfold place
    by_cases started : base = []
    · subst started
      rw [List.nil_append,List.nil_append,resolve_absolute sep,resolve_absolute slash]
      cases boostMsvc <;> rfl
    · rw [resolve_append sep started,resolve_slash slash started]
      cases boostMsvc <;> rfl

theorem file_below_root (b : Build) {req : Request} (docRoot : Text) (cwd : List Text) (allowed : legal req.target = true) :
    rootPlace b.boostMsvc cwd docRoot <+: place b.boostMsvc cwd (cStr (filePath b req docRoot)) := by
  obtain ⟨base,rest,free,stripped,file⟩ := filePath_shape b docRoot allowed
  have named : place b.boostMsvc cwd (cStr (filePath b req docRoot)) = place b.boostMsvc cwd (cStr (base ++ '/' :: rest)) := by
    rcases file with same | ⟨msvc,same⟩
    · rw [same]
    · rw [same,msvc,backslash_cStr,backslash_place]
  rw [named]
  by_cases ends : '\x00' ∈ base
  · -- a root that ends early is all there is
    have root : cStr (docRoot ++ ['/']) = cStr base := by
      rcases stripped with rfl | same
      · exact cStr_cut ends _
      · rw [same,List.append_assoc]
        exact cStr_cut ends _
    rw [rootPlace,root,cStr_cut ends]
  · rw [root_stripped b.boostMsvc cwd stripped ends,cStr_append ends]
    have cut : cStr ('/' :: rest) = '/' :: cStr rest := rfl
    rw [cut]
    apply resolve_below (slash_separates _)
    exact fun inside => free (inside.trans (List.takeWhile_prefix _).isInfix)

-- A response tells nothing about the files outside of the document root: with other
-- files there it is the same.
theorem outside_unseen (b : Build) (req : Request) (docRoot : Text) (cwd : List Text) {files files' : Text → Opened}
    (same : ∀ path, rootPlace b.boostMsvc cwd docRoot <+: place b.boostMsvc cwd path → files path = files' path) :
    handleRequest b req docRoot files = handleRequest b req docRoot files' := by
  unfold handleRequest
  cases allowed : legal req.target with
  | false => rfl
  | true => rw [same _ (file_below_root b docRoot cwd allowed)]

def sampleBuild : Build := ⟨false,"Boost.Beast/248".toList⟩

def sampleRequest (method : Verb) (target : Text) : Request := ⟨method,target,11,true,false⟩

-- A server that runs in /srv on www/ and has one page.
def sampleFiles (path : Text) : Opened :=
  if path = "www/index.html".toList then .file "hello".toList else .noSuchFileOrDirectory

theorem secret_unseen :
    handleRequest sampleBuild (sampleRequest .get "/../secret".toList) "www/".toList sampleFiles =
      handleRequest sampleBuild (sampleRequest .get "/../secret".toList) "www/".toList fun path =>
        if path = "www/../secret".toList then .file "secret".toList else sampleFiles path := by
  refine outside_unseen sampleBuild _ _ ["srv".toList] fun path inside => ?_
  have apart : path ≠ "www/../secret".toList := by
    rintro rfl
    revert inside
    decide
  exact (if_neg apart).symm

end Geoff.Http
