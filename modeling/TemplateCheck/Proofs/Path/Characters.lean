import TemplateCheck.Path
import TemplateCheck.Proofs.Path.Relative

/-!
# The characters of specifiers

A module specifier is made of the characters of the imported path, slashes and points, whatever the
importing file is called (`Path.forall_specifier`): what leads up from the importer is spelled with
points, and what leads down is part of the imported path.
-/

namespace TemplateCheck

variable {p : Char → Prop}

namespace Text

theorem forall_of_mem_splitOn {c : Char} {t part : Text} (h : ∀ d ∈ t, p d)
    (hPart : part ∈ splitOn c t) :
    ∀ d ∈ part, p d := by
  induction t generalizing part with
  | nil =>
    obtain rfl := List.mem_singleton.mp hPart
    simp
  | cons d t ih =>
    obtain ⟨hd, ht⟩ := List.forall_mem_cons.mp h
    unfold splitOn at hPart
    split_ifs at hPart
    · rcases List.mem_cons.mp hPart with rfl | hPart
      · simp
      · exact ih ht hPart
    · split at hPart
      · obtain rfl := List.mem_singleton.mp hPart
        simpa using hd
      · rename_i first parts hParts
        rw [hParts] at ih
        rcases List.mem_cons.mp hPart with rfl | hPart
        · exact List.forall_mem_cons.mpr ⟨hd, ih ht List.mem_cons_self⟩
        · exact ih ht (List.mem_cons_of_mem first hPart)

theorem forall_join {separator : Text} (hSeparator : ∀ d ∈ separator, p d) {parts : List Text}
    (hParts : ∀ part ∈ parts, ∀ d ∈ part, p d) : ∀ d ∈ join separator parts, p d := by
  fun_induction join separator parts with
  | case1 => simp
  | case2 part => exact hParts part List.mem_cons_self
  | case3 part parts _ ih =>
    obtain ⟨hPart, hLater⟩ := List.forall_mem_cons.mp hParts
    exact List.forall_mem_append.mpr ⟨List.forall_mem_append.mpr ⟨hPart, hSeparator⟩, ih hLater⟩

end Text

theorem Pattern.forall_replaceAll {ι : Type} (pattern : Pattern ι) {replacement t : Text}
    (h : ∀ d ∈ replacement, p d) (ht : ∀ d ∈ t, p d) :
    ∀ d ∈ pattern.replaceAll replacement t, p d := by
  have hGo (offset : Nat) (founds : List (Match ι)) :
      ∀ d ∈ replaceAll.go replacement t offset founds, p d := by
    induction founds generalizing offset with
    | nil => exact fun d hd => ht d (List.mem_of_mem_drop hd)
    | cons found founds ih =>
      refine List.forall_mem_append.mpr ⟨List.forall_mem_append.mpr ⟨fun d hd => ?_, h⟩,
        ih found.stop⟩
      exact ht d (List.mem_of_mem_drop (List.mem_of_mem_take hd))
  exact hGo 0 _

namespace Path

theorem forall_enter {rooted : Bool} {segments : List Text} {segment : Text}
    (hSegments : ∀ s ∈ segments, ∀ d ∈ s, p d) (hSegment : ∀ d ∈ segment, p d) :
    ∀ s ∈ enter rooted segments segment, ∀ d ∈ s, p d := by
  have hNext : ∀ s ∈ segment :: segments, ∀ d ∈ s, p d :=
    List.forall_mem_cons.mpr ⟨hSegment, hSegments⟩
  unfold enter
  by_cases hStay : segment = [] ∨ segment = ['.']
  · rwa [if_pos hStay]
  rw [if_neg hStay]
  by_cases hUp : segment = ['.', '.']
  · rw [if_pos hUp]
    cases segments with
    | nil =>
      cases rooted with
      | true => simp
      | false => exact hNext
    | cons last before =>
      dsimp only
      split_ifs
      · exact hNext
      · exact (List.forall_mem_cons.mp hSegments).2
  · rwa [if_neg hUp]

theorem forall_normalize (hSlash : p '/') (hPoint : p '.') {path : Text} (h : ∀ d ∈ path, p d) :
    ∀ d ∈ normalize path, p d := by
  have hSlashes : ∀ d ∈ leadingSlashes path, p d := by
    unfold leadingSlashes
    split <;> simp [hSlash]
  have hSegments (segments : List Text) (hSegments : ∀ s ∈ segments, ∀ d ∈ s, p d) (rooted : Bool)
      (names : List Text) (hNames : ∀ s ∈ names, ∀ d ∈ s, p d) :
      ∀ s ∈ names.foldl (enter rooted) segments, ∀ d ∈ s, p d := by
    induction names generalizing segments with
    | nil => exact hSegments
    | cons name names ih =>
      obtain ⟨hName, hNames⟩ := List.forall_mem_cons.mp hNames
      exact ih _ (forall_enter hSegments hName) hNames
  have hNormal : ∀ d ∈ leadingSlashes path ++ Text.join ['/'] ((Text.splitOn '/' path).foldl
      (enter (leadingSlashes path ≠ [])) []).reverse, p d := by
    refine List.forall_mem_append.mpr ⟨hSlashes,
      Text.forall_join (by simpa using hSlash) fun s hs => ?_⟩
    exact hSegments [] (by simp) _ _ (fun part hPart => Text.forall_of_mem_splitOn h hPart) s
      (List.mem_reverse.mp hs)
  unfold normalize
  dsimp only
  split_ifs
  · simpa using hPoint
  · exact hNormal

theorem forall_relative (hSlash : p '/') (hPoint : p '.') {target : Text} (h : ∀ d ∈ target, p d)
    (base : Text) :
    ∀ d ∈ relative target base, p d := by
  have hAppend : ∀ d ∈ append ['/'] target, p d := by
    unfold append
    split_ifs
    · exact h
    · exact List.forall_mem_append.mpr ⟨by simpa using hSlash, h⟩
    · exact List.forall_mem_append.mpr ⟨by simpa using hSlash, List.forall_mem_cons.mpr ⟨hSlash, h⟩⟩
  have hTarget : ∀ s ∈ absoluteSegments target, ∀ d ∈ s, p d := fun s hs =>
    Text.forall_of_mem_splitOn (forall_normalize hSlash hPoint hAppend) (List.mem_filter.mp hs).1
  obtain ⟨shared, -, hDown⟩ := exists_shared (absoluteSegments base) (absoluteSegments target)
  unfold relative
  dsimp only
  split_ifs
  · simpa using hPoint
  · refine Text.forall_join (by simpa using hSlash)
      (List.forall_mem_append.mpr ⟨fun s hs => ?_, fun s hs => ?_⟩)
    · rw [List.eq_of_mem_replicate hs]
      simpa using hPoint
    · exact hTarget s (hDown ▸ List.mem_append_right shared hs)

/-- A way that begins with a point, or gets one in front. -/
theorem specifier_eq (importer imported : Text) : ∃ base, specifier importer imported =
    if (moduleExtension.replaceAll [] (relative imported base)).head? = some '.' then
      moduleExtension.replaceAll [] (relative imported base)
    else "./" ++ moduleExtension.replaceAll [] (relative imported base) := by
  unfold specifier
  exact ⟨_, rfl⟩

/-- A specifier is made of the characters of the imported path, slashes and points. -/
theorem forall_specifier (hSlash : p '/') (hPoint : p '.') {imported : Text}
    (h : ∀ d ∈ imported, p d) (importer : Text) : ∀ d ∈ specifier importer imported, p d := by
  obtain ⟨base, hSpecifier⟩ := specifier_eq importer imported
  have hWay : ∀ d ∈ moduleExtension.replaceAll [] (relative imported base), p d :=
    Pattern.forall_replaceAll _ (by simp) (forall_relative hSlash hPoint h base)
  rw [hSpecifier]
  generalize moduleExtension.replaceAll [] (relative imported base) = way at hWay ⊢
  split_ifs
  · exact hWay
  · exact List.forall_mem_cons.mpr ⟨hPoint, List.forall_mem_cons.mpr ⟨hSlash, hWay⟩⟩

theorem specifier_ne_nil (importer imported : Text) : specifier importer imported ≠ [] := by
  obtain ⟨base, hSpecifier⟩ := specifier_eq importer imported
  rw [hSpecifier]
  generalize moduleExtension.replaceAll [] (relative imported base) = way
  split_ifs with hHead
  · exact List.ne_nil_of_mem (List.mem_of_mem_head? hHead)
  · exact List.cons_ne_nil '.' _

end Path

end TemplateCheck
