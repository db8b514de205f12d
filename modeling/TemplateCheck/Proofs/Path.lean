import Mathlib.Tactic.Common
import TemplateCheck.Path

/-!
# Normal paths

A normal path is its own normal form (`Path.normalize_normalize`), so a file is found under the path
that it is stored with.

1. Entering segments one by one keeps them settled (`Settled.enter`): there is no empty segment, no
   `.`, and a `..` has only others before it.
2. Entering settled segments again gives them back (`Settled.foldl_enter`).
3. Splitting undoes joining (`Text.splitOn_join`), so a normal path splits into its own segments.
-/

namespace TemplateCheck

/-! ## Splitting and joining -/

namespace Text

variable {c : Char}

theorem splitOn_cons_self (c : Char) (t : Text) : splitOn c (c :: t) = [] :: splitOn c t := by
  rw [splitOn, if_pos rfl]

theorem not_mem_of_mem_splitOn {t part : Text} (h : part ∈ splitOn c t) : c ∉ part := by
  induction t generalizing part with
  | nil =>
    obtain rfl := List.mem_singleton.mp h
    exact List.not_mem_nil
  | cons d t ih =>
    unfold splitOn at h
    split_ifs at h with hd
    · rcases List.mem_cons.mp h with rfl | h
      · exact List.not_mem_nil
      · exact ih h
    · split at h
      · obtain rfl := List.mem_singleton.mp h
        simpa using Ne.symm hd
      · rename_i first parts hParts
        rw [hParts] at ih
        rcases List.mem_cons.mp h with rfl | h
        · rw [List.mem_cons, not_or]
          exact ⟨Ne.symm hd, ih List.mem_cons_self⟩
        · exact ih (List.mem_cons_of_mem first h)

theorem splitOn_append {part : Text} (h : c ∉ part) {t first : Text} {parts : List Text}
    (hParts : splitOn c t = first :: parts) : splitOn c (part ++ t) = (part ++ first) :: parts := by
  induction part with
  | nil => exact hParts
  | cons d part ih =>
    obtain ⟨hd, hPart⟩ := not_or.mp (List.mem_cons.not.mp h)
    rw [List.cons_append, splitOn, if_neg (Ne.symm hd), ih hPart]
    rfl

theorem splitOn_join {parts : List Text} (hParts : parts ≠ []) (h : ∀ part ∈ parts, c ∉ part) :
    splitOn c (join [c] parts) = parts := by
  induction parts with
  | nil => exact absurd rfl hParts
  | cons part parts ih =>
    obtain ⟨hPart, hLater⟩ := List.forall_mem_cons.mp h
    cases parts with
    | nil =>
      have hSplit := splitOn_append hPart (show splitOn c [] = [[]] from rfl)
      rwa [List.append_nil] at hSplit
    | cons next parts =>
      have hRest : splitOn c (c :: join [c] (next :: parts)) = [] :: next :: parts := by
        rw [splitOn_cons_self, ih (List.cons_ne_nil next parts) hLater]
      have hSplit := splitOn_append hPart hRest
      rw [List.append_nil] at hSplit
      rw [join, List.append_assoc, List.singleton_append, hSplit]
      exact List.cons_ne_nil next parts

end Text

namespace Path

/-! ## Settled segments -/

/-- The segments, the latest first, are those of a normal path. -/
inductive Settled (rooted : Bool) : List Text → Prop
  | nil : Settled rooted []
  | name {segment : Text} {segments : List Text} (empty : segment ≠ []) (point : segment ≠ ['.'])
      (points : segment ≠ ['.', '.']) (slash : '/' ∉ segment) (before : Settled rooted segments) :
      Settled rooted (segment :: segments)
  | up {segments : List Text} (free : rooted = false) (ups : ∀ s ∈ segments, s = ['.', '.'])
      (before : Settled rooted segments) : Settled rooted (['.', '.'] :: segments)

variable {rooted : Bool} {segments : List Text} {segment : Text}

theorem Settled.tail (h : Settled rooted (segment :: segments)) : Settled rooted segments := by
  cases h with
  | name _ _ _ _ before => exact before
  | up _ _ before => exact before

theorem enter_name (empty : segment ≠ []) (point : segment ≠ ['.'])
    (points : segment ≠ ['.', '.']) :
    enter rooted segments segment = segment :: segments := by
  unfold enter
  rw [if_neg (not_or.mpr ⟨empty, point⟩), if_neg points]

theorem enter_up_nil (rooted : Bool) :
    enter rooted [] ['.', '.'] = if rooted then [] else [['.', '.']] := rfl

theorem enter_up_cons (rooted : Bool) (last : Text) (before : List Text) :
    enter rooted (last :: before) ['.', '.'] =
      if last = ['.', '.'] then ['.', '.'] :: last :: before else before := rfl

theorem Settled.enter (h : Settled rooted segments) (hSegment : '/' ∉ segment) :
    Settled rooted (enter rooted segments segment) := by
  by_cases hStay : segment = [] ∨ segment = ['.']
  · unfold Path.enter
    rwa [if_pos hStay]
  · obtain ⟨hEmpty, hPoint⟩ := not_or.mp hStay
    by_cases hUp : segment = ['.', '.']
    · subst hUp
      cases h with
      | nil =>
        rw [enter_up_nil]
        cases rooted with
        | true => exact .nil
        | false => exact .up rfl (by simp) .nil
      | name empty point points slash before =>
        rwa [enter_up_cons, if_neg points]
      | up free ups before =>
        rw [enter_up_cons, if_pos rfl]
        exact .up free (List.forall_mem_cons.mpr ⟨rfl, ups⟩) (.up free ups before)
    · rw [enter_name hEmpty hPoint hUp]
      exact .name hEmpty hPoint hUp hSegment h

theorem settled_foldl_enter {names : List Text} (hNames : ∀ name ∈ names, '/' ∉ name)
    (h : Settled rooted segments) : Settled rooted (names.foldl (Path.enter rooted) segments) := by
  induction names generalizing segments with
  | nil => exact h
  | cons name names ih =>
    obtain ⟨hName, hLater⟩ := List.forall_mem_cons.mp hNames
    exact ih hLater (h.enter hName)

theorem Settled.enter_eq (h : Settled rooted (segment :: segments)) :
    Path.enter rooted segments segment = segment :: segments := by
  cases h with
  | name empty point points slash before => exact enter_name empty point points
  | up free ups before =>
    cases segments with
    | nil => rw [enter_up_nil, free, if_neg (by decide)]
    | cons last before => rw [enter_up_cons, if_pos (ups last List.mem_cons_self)]

/-- Entering settled segments gives them back. -/
theorem Settled.foldl_enter (h : Settled rooted segments) :
    segments.reverse.foldl (Path.enter rooted) [] = segments := by
  rw [List.foldl_reverse]
  induction segments with
  | nil => rfl
  | cons segment segments ih => rw [List.foldr_cons, ih h.tail, h.enter_eq]

theorem Settled.slash_not_mem (h : Settled rooted segments) : ∀ s ∈ segments, '/' ∉ s := by
  induction h with
  | nil => simp
  | name empty point points slash before ih => exact List.forall_mem_cons.mpr ⟨slash, ih⟩
  | up free ups before ih => exact List.forall_mem_cons.mpr ⟨by decide, ih⟩

theorem Settled.ne_nil (h : Settled rooted segments) : ∀ s ∈ segments, s ≠ [] := by
  induction h with
  | nil => simp
  | name empty point points slash before ih => exact List.forall_mem_cons.mpr ⟨empty, ih⟩
  | up free ups before ih => exact List.forall_mem_cons.mpr ⟨by decide, ih⟩

/-! ## Normal paths -/

theorem leadingSlashes_cases (path : Text) :
    leadingSlashes path = [] ∨ leadingSlashes path = ['/'] ∨ leadingSlashes path = ['/', '/'] := by
  unfold leadingSlashes
  split <;> simp

theorem head?_join_ne_slash {names : List Text} (hEmpty : ∀ name ∈ names, name ≠ [])
    (hSlash : ∀ name ∈ names, '/' ∉ name) : (Text.join ['/'] names).head? ≠ some '/' := by
  cases names with
  | nil => simp [Text.join]
  | cons name names =>
    obtain ⟨c, name, rfl⟩ := List.exists_cons_of_ne_nil (hEmpty name List.mem_cons_self)
    have hHead : (Text.join ['/'] ((c :: name) :: names)).head? = some c := by
      cases names <;> rfl
    rw [hHead]
    rintro h
    obtain rfl := Option.some.inj h
    exact hSlash _ List.mem_cons_self List.mem_cons_self

theorem leadingSlashes_append {slashes t : Text}
    (hSlashes : slashes = [] ∨ slashes = ['/'] ∨ slashes = ['/', '/']) (ht : t.head? ≠ some '/') :
    leadingSlashes (slashes ++ t) = slashes := by
  cases t with
  | nil => rcases hSlashes with rfl | rfl | rfl <;> rfl
  | cons c t =>
    have hc : c ≠ '/' := fun h => ht (congrArg some h)
    rcases hSlashes with rfl | rfl | rfl <;> simp [leadingSlashes, hc]

/-- Leading slashes only add empty segments, which are passed over. -/
theorem foldl_enter_append {slashes : Text}
    (hSlashes : slashes = [] ∨ slashes = ['/'] ∨ slashes = ['/', '/']) (t : Text) :
    (Text.splitOn '/' (slashes ++ t)).foldl (enter rooted) [] =
      (Text.splitOn '/' t).foldl (enter rooted) [] := by
  rcases hSlashes with rfl | rfl | rfl
  · rfl
  · rw [List.singleton_append, Text.splitOn_cons_self]
    rfl
  · rw [List.cons_append, List.singleton_append, Text.splitOn_cons_self, Text.splitOn_cons_self]
    rfl

theorem Settled.foldl_enter_splitOn (h : Settled rooted segments) :
    (Text.splitOn '/' (Text.join ['/'] segments.reverse)).foldl (Path.enter rooted) [] =
      segments := by
  by_cases hEmpty : segments = []
  · subst hEmpty
    rfl
  · rw [Text.splitOn_join, h.foldl_enter]
    · simpa using hEmpty
    · intro name hName
      exact h.slash_not_mem name (List.mem_reverse.mp hName)

/-- Settled segments after slashes are a path in normal form. -/
theorem normalize_eq_self {slashes : Text} {segments : List Text}
    (hSlashes : slashes = [] ∨ slashes = ['/'] ∨ slashes = ['/', '/'])
    (hSettled : Settled (slashes ≠ []) segments)
    (hNormal : slashes ++ Text.join ['/'] segments.reverse ≠ []) :
    normalize (slashes ++ Text.join ['/'] segments.reverse) =
      slashes ++ Text.join ['/'] segments.reverse := by
  have hHead : (Text.join ['/'] segments.reverse).head? ≠ some '/' :=
    head?_join_ne_slash (fun name h => hSettled.ne_nil name (List.mem_reverse.mp h))
      fun name h => hSettled.slash_not_mem name (List.mem_reverse.mp h)
  unfold normalize
  rw [leadingSlashes_append hSlashes hHead]
  dsimp only
  rw [foldl_enter_append hSlashes, hSettled.foldl_enter_splitOn, if_neg hNormal]

/-- A normal path is its own normal form. -/
theorem normalize_normalize (path : Text) : normalize (normalize path) = normalize path := by
  have hSettled : Settled (leadingSlashes path ≠ [])
      ((Text.splitOn '/' path).foldl (enter (leadingSlashes path ≠ [])) []) :=
    settled_foldl_enter (fun _ => Text.not_mem_of_mem_splitOn) .nil
  by_cases hNormal : leadingSlashes path ++ Text.join ['/']
      ((Text.splitOn '/' path).foldl (enter (leadingSlashes path ≠ [])) []).reverse = []
  · have hPoint : normalize path = ['.'] := if_pos hNormal
    rw [hPoint]
    rfl
  · have hPath : normalize path = leadingSlashes path ++ Text.join ['/']
        ((Text.splitOn '/' path).foldl (enter (leadingSlashes path ≠ [])) []).reverse :=
      if_neg hNormal
    rw [hPath]
    exact normalize_eq_self (leadingSlashes_cases path) hSettled hNormal

theorem normalize_ne_nil (path : Text) : normalize path ≠ [] := by
  unfold normalize
  dsimp only
  split_ifs with hNil
  · exact List.cons_ne_nil _ _
  · exact hNil

end Path

end TemplateCheck
