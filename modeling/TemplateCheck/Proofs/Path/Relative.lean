import TemplateCheck.Proofs.Path
import TemplateCheck.Proofs.Text.Blank
import TemplateCheck.Proofs.Text.Occurrence

/-!
# Paths between normal paths

The way from the directory of one file to another leads to that file (`Path.normalize_append_join`,
`Path.foldl_enter_steps`): it goes up from the part of the directory that the two paths do not share
and down to the rest of the other path.

Normal paths are spelled from names, none of which is a step (`Path.normal`, `Path.exists_names`),
so a directory is what is left of the names without the last one, and whatever changes the last name
of a path changes the last name of the way to it.
-/

namespace TemplateCheck

namespace Text

variable {c : Char}

theorem join_cons {parts : List Text} (part : Text) (h : parts ≠ []) :
    join [c] (part :: parts) = part ++ c :: join [c] parts := by
  obtain ⟨next, parts, rfl⟩ := List.exists_cons_of_ne_nil h
  exact List.append_assoc part [c] _

theorem join_append {parts later : List Text} (hParts : parts ≠ []) (hLater : later ≠ []) :
    join [c] (parts ++ later) = join [c] parts ++ c :: join [c] later := by
  induction parts with
  | nil => exact absurd rfl hParts
  | cons part parts ih =>
    by_cases h : parts = []
    · rw [h, List.singleton_append, join_cons part hLater, join]
    · rw [List.cons_append, join_cons part (List.append_ne_nil_of_left_ne_nil h later), ih h,
        join_cons part h, List.append_assoc, List.cons_append]

theorem join_concat {parts : List Text} (hParts : parts ≠ []) (last : Text) :
    join [c] (parts ++ [last]) = join [c] parts ++ c :: last :=
  join_append hParts (List.cons_ne_nil last [])

end Text

namespace Path

/-! ## Names -/

/-- A segment that is no step of its own kind. -/
structure IsName (segment : Text) : Prop where
  empty : segment ≠ []
  point : segment ≠ ['.']
  points : segment ≠ ['.', '.']
  slash : '/' ∉ segment

/-- Segments with slashes between them, after the slash of the root if they hang off it. -/
def spell (rooted : Bool) (segments : List Text) : Text :=
  (if rooted then ['/'] else []) ++ Text.join ['/'] segments

/-- The normal path with the given names. -/
def normal (rooted : Bool) (names : List Text) : Text :=
  if spell rooted names = [] then ['.'] else spell rooted names

variable {rooted : Bool} {names segments : List Text}

theorem slashes_cases (rooted : Bool) : (if rooted then ['/'] else [] : Text) = [] ∨
    (if rooted then ['/'] else [] : Text) = ['/'] ∨
    (if rooted then ['/'] else [] : Text) = ['/', '/'] := by
  cases rooted with
  | false => exact .inl rfl
  | true => exact .inr (.inl rfl)

theorem join_ne_nil (hSegments : segments ≠ []) (hEmpty : ∀ s ∈ segments, s ≠ []) :
    Text.join ['/'] segments ≠ [] := by
  obtain ⟨segment, segments, rfl⟩ := List.exists_cons_of_ne_nil hSegments
  have hFirst := hEmpty segment List.mem_cons_self
  cases segments <;> simp [Text.join, hFirst]

theorem spell_ne_nil (hSegments : segments ≠ []) (hEmpty : ∀ s ∈ segments, s ≠ []) (rooted : Bool) :
    spell rooted segments ≠ [] := by
  rw [spell, Ne, List.append_eq_nil_iff, not_and_or]
  exact .inr (join_ne_nil hSegments hEmpty)

theorem normal_eq_spell (hSegments : segments ≠ []) (hEmpty : ∀ s ∈ segments, s ≠ [])
    (rooted : Bool) :
    normal rooted segments = spell rooted segments :=
  if_neg (spell_ne_nil hSegments hEmpty rooted)

/-- Normalizing enters the segments one by one. -/
theorem normalize_spell (hEmpty : ∀ s ∈ segments, s ≠ []) (hSlash : ∀ s ∈ segments, '/' ∉ s)
    (rooted : Bool) :
    normalize (spell rooted segments) =
      normal rooted (segments.foldl (enter rooted) []).reverse := by
  have hSlashes := leadingSlashes_append (slashes_cases rooted) (head?_join_ne_slash hEmpty hSlash)
  have hRooted : decide ((if rooted then ['/'] else [] : Text) ≠ []) = rooted := by
    cases rooted <;> rfl
  have hFold : (Text.splitOn '/' (Text.join ['/'] segments)).foldl (enter rooted) [] =
      segments.foldl (enter rooted) [] := by
    by_cases hSegments : segments = []
    · rw [hSegments]
      rfl
    · rw [Text.splitOn_join hSegments hSlash]
  unfold normalize
  rw [spell, hSlashes]
  dsimp only
  rw [foldl_enter_append (slashes_cases rooted), hRooted, hFold]
  rfl

theorem foldl_enter_names (hNames : ∀ name ∈ names, IsName name) (segments : List Text) :
    names.foldl (enter rooted) segments = names.reverse ++ segments := by
  induction names generalizing segments with
  | nil => rfl
  | cons name names ih =>
    obtain ⟨hName, hLater⟩ := List.forall_mem_cons.mp hNames
    rw [List.foldl_cons, enter_name hName.empty hName.point hName.points, ih hLater,
      List.reverse_cons, List.append_assoc, List.singleton_append]

theorem foldl_enter_ups (hNames : ∀ name ∈ names, IsName name) (segments : List Text) :
    (List.replicate names.length ['.', '.']).foldl (enter rooted) (names ++ segments) =
      segments := by
  induction names with
  | nil => rfl
  | cons name names ih =>
    obtain ⟨hName, hLater⟩ := List.forall_mem_cons.mp hNames
    rw [List.length_cons, List.replicate_succ, List.foldl_cons, List.cons_append, enter_up_cons,
      if_neg hName.points]
    exact ih hLater

/-! ## The names of a normal path -/

/-- The path does not hang off the root and does not start with a step up. -/
def IsInside (path : Text) : Prop :=
  leadingSlashes path = [] ∧ (Text.splitOn '/' path).head? ≠ some ['.', '.']

/-- Settled segments that do not start with a step up are names. -/
theorem Settled.isName (h : Settled rooted segments)
    (hFirst : rooted = true ∨ segments.getLast? ≠ some ['.', '.']) :
    ∀ s ∈ segments, IsName s := by
  induction h with
  | nil => simp
  | @name segment segments empty point points slash before ih =>
    refine List.forall_mem_cons.mpr ⟨⟨empty, point, points, slash⟩,
      ih (hFirst.imp_right fun hLast => ?_)⟩
    cases segments with
    | nil => simp
    | cons next segments => rwa [List.getLast?_cons_cons] at hLast
  | @up segments free ups before ih =>
    exfalso
    rcases hFirst with rfl | hLast
    · cases free
    · refine hLast ?_
      rw [List.getLast?_eq_some_getLast (List.cons_ne_nil _ _)]
      refine congrArg some ?_
      rcases List.mem_cons.mp
        (List.getLast_mem (List.cons_ne_nil ['.', '.'] segments)) with hHere | hLater
      · exact hHere
      · exact ups _ hLater

/-- A normal path is spelled from names if it hangs off the root or stays inside the
root directory. -/
theorem exists_names {path : Text} (hNormal : normalize path = path)
    (hPath : rooted = true ∧ leadingSlashes path = ['/'] ∨ rooted = false ∧ IsInside path) :
    ∃ names, (∀ name ∈ names, IsName name) ∧ path = normal rooted names := by
  have hSlashes : leadingSlashes path = if rooted then ['/'] else [] := by
    rcases hPath with ⟨rfl, h⟩ | ⟨rfl, h, -⟩ <;> exact h
  have hRooted : decide ((if rooted then ['/'] else [] : Text) ≠ []) = rooted := by
    cases rooted <;> rfl
  have hPath' : path = normal rooted ((Text.splitOn '/' path).foldl (enter rooted) []).reverse := by
    conv_lhs => rw [← hNormal, normalize, hSlashes, hRooted]
    rfl
  have hSettled : Settled rooted ((Text.splitOn '/' path).foldl (enter rooted) []) :=
    settled_foldl_enter (fun _ => Text.not_mem_of_mem_splitOn) .nil
  generalize (Text.splitOn '/' path).foldl (enter rooted) [] = segments at hPath' hSettled
  refine ⟨segments.reverse, fun name hName => ?_, hPath'⟩
  refine hSettled.isName ?_ name (List.mem_reverse.mp hName)
  rcases hPath with ⟨hTrue, -⟩ | ⟨rfl, -, hFirst⟩
  · exact .inl hTrue
  · right
    by_cases hSegments : segments = []
    · simp [hSegments]
    · have hNonempty : segments.reverse ≠ [] := by simpa using hSegments
      have hEmpty : ∀ s ∈ segments.reverse, s ≠ [] :=
        fun s hs => hSettled.ne_nil s (List.mem_reverse.mp hs)
      have hSplit : Text.splitOn '/' path = segments.reverse := by
        rw [hPath', normal_eq_spell hNonempty hEmpty]
        exact Text.splitOn_join hNonempty fun s hs =>
          hSettled.slash_not_mem s (List.mem_reverse.mp hs)
      rwa [hSplit, List.head?_reverse] at hFirst

/-! ## Directories -/

theorem forall_ne_nil (h : ∀ name ∈ names, IsName name) : ∀ name ∈ names, name ≠ [] :=
  fun name hName => (h name hName).empty

theorem forall_slash_not_mem (h : ∀ name ∈ names, IsName name) : ∀ name ∈ names, '/' ∉ name :=
  fun name hName => (h name hName).slash

/-- One more segment stands behind a slash, unless the path is empty or the root. -/
theorem spell_concat (hSegments : segments ≠ []) (rooted : Bool) (last : Text) :
    spell rooted (segments ++ [last]) = spell rooted segments ++ '/' :: last := by
  rw [spell, Text.join_concat hSegments, spell, List.append_assoc]

theorem directory_append {s last : Text} (h : Text.afterLast '/' (s ++ last) = last) :
    directory (s ++ last) = if s.all (· = '/') then s else Text.dropRightWhile (· = '/') s := by
  rw [directory, h, List.length_append, Nat.add_sub_cancel, List.take_left]

theorem exists_getLast?_spell (hSegments : segments ≠ []) (hNames : ∀ s ∈ segments, IsName s)
    (rooted : Bool) :
    ∃ c, (spell rooted segments).getLast? = some c ∧ c ≠ '/' := by
  obtain ⟨before, last, rfl⟩ := (List.eq_nil_or_concat segments).resolve_left hSegments
  have hLast : IsName last := hNames last (by simp)
  obtain ⟨start, c, rfl⟩ := (List.eq_nil_or_concat last).resolve_left hLast.empty
  refine ⟨c, ?_, ?_⟩
  · rw [List.concat_eq_append, List.concat_eq_append]
    by_cases hBefore : before = []
    · simp [hBefore, spell, Text.join]
    · rw [spell_concat hBefore, ← List.cons_append, ← List.append_assoc, List.getLast?_concat]
  · rintro rfl
    exact hLast.slash (by simp)

theorem dropRightWhile_slash {t : Text} {c : Char} (h : t.getLast? = some c) (hc : c ≠ '/') :
    Text.dropRightWhile (· = '/') (t ++ ['/']) = t := by
  have hEnd : ∀ d ∈ t.getLast?, decide (d = '/') = false := by
    rintro d hd
    obtain rfl := Option.some.inj (h.symm.trans hd)
    exact decide_eq_false hc
  rw [Text.dropRightWhile, List.reverse_append, List.reverse_singleton, List.singleton_append,
    List.dropWhile_cons_of_pos (by simp)]
  exact Text.dropRightWhile_eq_self hEnd

theorem directory_normal (hNames : ∀ name ∈ names, IsName name) (rooted : Bool) :
    directory (normal rooted names) = spell rooted names.dropLast := by
  rcases List.eq_nil_or_concat names with rfl | ⟨before, last, rfl⟩
  · cases rooted <;> decide
  rw [List.concat_eq_append] at hNames ⊢
  have hLast : IsName last := hNames last (by simp)
  rw [normal_eq_spell (by simp) (forall_ne_nil hNames), List.dropLast_concat]
  by_cases hBefore : before = []
  · subst hBefore
    cases rooted with
    | false => exact directory_append (s := []) (Text.afterLast_of_not_mem hLast.slash)
    | true => exact directory_append (s := ['/']) (Text.afterLast_append_cons hLast.slash [])
  · obtain ⟨c, hEnd, hc⟩ :=
      exists_getLast?_spell hBefore (fun s hs => hNames s (by simp [hs])) rooted
    have hMem : c ∈ spell rooted before ++ ['/'] :=
      List.mem_append_left _ (List.mem_of_getLast? hEnd)
    have hNotAll : ¬ (spell rooted before ++ ['/']).all (· = '/') = true := fun hAll =>
      hc (of_decide_eq_true (List.all_eq_true.mp hAll c hMem))
    have hSpell : spell rooted (before ++ [last]) = (spell rooted before ++ ['/']) ++ last := by
      rw [spell_concat hBefore, List.append_assoc, List.singleton_append]
    rw [hSpell, directory_append
      (by rw [← hSpell, spell_concat hBefore, Text.afterLast_append_cons hLast.slash]),
      if_neg hNotAll, dropRightWhile_slash hEnd hc]

theorem fileName_normal {last : Text} (hNames : ∀ name ∈ names ++ [last], IsName name)
    (rooted : Bool) :
    fileName (normal rooted (names ++ [last])) = last := by
  have hLast : IsName last := hNames last (by simp)
  rw [normal_eq_spell (by simp) (forall_ne_nil hNames), fileName]
  by_cases hBefore : names = []
  · subst hBefore
    cases rooted with
    | false => exact Text.afterLast_of_not_mem hLast.slash
    | true => exact Text.afterLast_append_cons hLast.slash []
  · rw [spell_concat hBefore, Text.afterLast_append_cons hLast.slash]

/-! ## The way from a directory to a path -/

/-- What two lists of names share is dropped from both. -/
theorem exists_shared (xs ys : List Text) : ∃ shared,
    xs = shared ++ (dropShared xs ys).1 ∧ ys = shared ++ (dropShared xs ys).2 := by
  fun_induction dropShared xs ys with
  | case1 xs y ys ih =>
    obtain ⟨shared, hLeft, hRight⟩ := ih
    exact ⟨y :: shared, congrArg (y :: ·) hLeft, congrArg (y :: ·) hRight⟩
  | case2 => exact ⟨[], rfl, rfl⟩
  | case3 => exact ⟨[], rfl, rfl⟩

theorem splitOn_spell (hNonempty : segments ≠ []) (hSlash : ∀ s ∈ segments, '/' ∉ s) :
    Text.splitOn '/' (spell true segments) = [] :: segments := by
  show Text.splitOn '/' ('/' :: Text.join ['/'] segments) = _
  rw [Text.splitOn_cons_self, Text.splitOn_join hNonempty hSlash]

/-- Seen from the root directory a normal path has its own names. -/
theorem absoluteSegments_normal (hNames : ∀ name ∈ names, IsName name) (rooted : Bool) :
    absoluteSegments (normal rooted names) = names := by
  have hFold : (names.foldl (enter true) []).reverse = names := by
    rw [foldl_enter_names hNames, List.append_nil, List.reverse_reverse]
  by_cases hNonempty : names = []
  · subst hNonempty
    cases rooted <;> decide
  have hRoot : append ['/'] (normal rooted names) = spell true names := by
    rw [normal_eq_spell hNonempty (forall_ne_nil hNames)]
    cases rooted with
    | false =>
      have hHead := head?_join_ne_slash (forall_ne_nil hNames) (forall_slash_not_mem hNames)
      exact (if_neg hHead).trans (if_pos (.inr rfl))
    | true => exact if_pos rfl
  rw [absoluteSegments, hRoot,
    normalize_spell (forall_ne_nil hNames) (forall_slash_not_mem hNames), hFold,
    normal_eq_spell hNonempty (forall_ne_nil hNames),
    splitOn_spell hNonempty (forall_slash_not_mem hNames), List.filter_cons_of_neg (by simp),
    List.filter_eq_self]
  exact fun name hName => decide_eq_true (hNames name hName).empty

theorem forall_mem_steps {n : Nat} (h : ∀ s ∈ names, IsName s) :
    (∀ s ∈ List.replicate n ['.', '.'] ++ names, s ≠ []) ∧
    ∀ s ∈ List.replicate n ['.', '.'] ++ names, '/' ∉ s := by
  constructor <;> intro s hs <;> rcases List.mem_append.mp hs with hUp | hDown
  · rw [List.eq_of_mem_replicate hUp]
    decide
  · exact (h s hDown).empty
  · rw [List.eq_of_mem_replicate hUp]
    decide
  · exact (h s hDown).slash

/-- What is joined from segments is entered after the names of the base. -/
theorem normalize_append_join {base : List Text} (hBase : ∀ name ∈ base, IsName name)
    (hWay : segments ≠ []) (hEmpty : ∀ s ∈ segments, s ≠ []) (hSlash : ∀ s ∈ segments, '/' ∉ s)
    (rooted : Bool) :
    normalize (append (spell rooted base) (Text.join ['/'] segments)) =
      normal rooted (segments.foldl (enter rooted) base.reverse).reverse := by
  have hHead := head?_join_ne_slash hEmpty hSlash
  have hAppend : append (spell rooted base) (Text.join ['/'] segments) =
      spell rooted (base ++ segments) := by
    rw [append, if_neg hHead]
    by_cases hNonempty : base = []
    · subst hNonempty
      cases rooted with
      | false => exact if_pos (.inl rfl)
      | true => exact if_pos (.inr rfl)
    · obtain ⟨c, hEnd, hc⟩ := exists_getLast?_spell hNonempty hBase rooted
      have hOpen : ¬ (spell rooted base = [] ∨ (spell rooted base).getLast? = some '/') := by
        rw [hEnd]
        rintro (hNil | hLast)
        · exact spell_ne_nil hNonempty (forall_ne_nil hBase) rooted hNil
        · exact hc (Option.some.inj hLast)
      rw [if_neg hOpen, spell, spell, Text.join_append hNonempty hWay, List.append_assoc]
  have hEmpty' : ∀ s ∈ base ++ segments, s ≠ [] := fun s hs =>
    (List.mem_append.mp hs).elim (forall_ne_nil hBase s) (hEmpty s)
  have hSlash' : ∀ s ∈ base ++ segments, '/' ∉ s := fun s hs =>
    (List.mem_append.mp hs).elim (forall_slash_not_mem hBase s) (hSlash s)
  rw [hAppend, normalize_spell hEmpty' hSlash', List.foldl_append, foldl_enter_names hBase,
    List.append_nil]

/-- Going up from what is not shared and down again ends at the names that lie there. -/
theorem foldl_enter_steps {shared up down : List Text} (hUp : ∀ name ∈ up, IsName name)
    (hDown : ∀ name ∈ down, IsName name) :
    (List.replicate up.length ['.', '.'] ++ down).foldl (enter rooted) (shared ++ up).reverse =
      (shared ++ down).reverse := by
  have hBack : ∀ name ∈ up.reverse, IsName name := fun name h => hUp name (List.mem_reverse.mp h)
  rw [List.foldl_append, List.reverse_append, ← List.length_reverse, foldl_enter_ups hBack,
    foldl_enter_names hDown, List.reverse_append]

end Path

end TemplateCheck
