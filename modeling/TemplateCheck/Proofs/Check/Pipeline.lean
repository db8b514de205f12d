import Mathlib.Data.List.Nodup
import Mathlib.Tactic.Common
import TemplateCheck.Check.Pipeline

/-!
# What the pipeline does with each file

For one file the stages first drop reports about its unused imports and then add what the checks
find (`diagnostics_foldl_regular`). A whole run is a fold of this over the files
(`diagnostics_runPipeline`).

When each file adds only diagnostics that carry its own path, the files do not disturb each other:
the part of the result that belongs to a file is what its own turn makes of the part of the input
that belongs to it (`filter_foldl_turn`).
-/

namespace TemplateCheck

/-- What the checks find in one file. -/
def findings (context : CheckContext) (path : Text) : List Diagnostic :=
  checkUsages context.registry context.program path ++
    ((checkMultiwordNames context.registry path ++ checkDuplicatedNames context.registry path) ++
      ((checkRequiredProps context.registry path ++ checkUnknownAttributes context.registry path ++
        checkRepeatedAttributes context.registry path) ++
        checkBindingTypes context.registry context.oracle path))

/-- The turn of one file: reports are dropped, then findings are added. -/
def turn (context : CheckContext) (diagnostics : List Diagnostic) (path : Text) : List Diagnostic :=
  suppressUnusedImports context.registry context.program path diagnostics ++ findings context path

/-- The diagnostic carries the path. -/
def Diagnostic.isIn (path : Text) (d : Diagnostic) : Bool := d.filePath = some path

theorem Diagnostic.isIn_iff {path : Text} {d : Diagnostic} :
    d.isIn path = true ↔ d.filePath = some path := by
  rw [Diagnostic.isIn, decide_eq_true_iff]

theorem Diagnostic.isIn_unique {path other : Text} {d : Diagnostic} (h : d.isIn path = true)
    (hOther : d.isIn other = true) : path = other := by
  rw [Diagnostic.isIn_iff] at h hOther
  exact Option.some.inj (h.symm.trans hOther)

/-! ## Runs as folds -/

theorem diagnostics_foldl_regular (context : CheckContext) (path : Text) (sofar : Checked) :
    (Stage.regular.foldl (Stage.step context path) sofar).diagnostics =
      turn context sofar.diagnostics path := by
  have hStages : (Stage.regular.foldl (Stage.step context path) sofar).diagnostics =
      suppressUnusedImports context.registry context.program path sofar.diagnostics ++
        checkUsages context.registry context.program path ++
        (checkMultiwordNames context.registry path ++ checkDuplicatedNames context.registry path) ++
        (checkRequiredProps context.registry path ++ checkUnknownAttributes context.registry path ++
          checkRepeatedAttributes context.registry path) ++
        checkBindingTypes context.registry context.oracle path := rfl
  rw [hStages]
  unfold turn findings
  simp only [List.append_assoc]

/-- A run of the regular stages takes the turns of the files and locates the result. -/
theorem diagnostics_runPipeline (host : List Diagnostic) (context : CheckContext) :
    (runPipeline host context Stage.regular).diagnostics =
      (context.filePaths.foldl (turn context) host).map (Diagnostic.locate context.program) := by
  unfold runPipeline
  refine congrArg (List.map _) (Eq.symm ?_)
  show context.filePaths.foldl (turn context) (Checked.mk host []).diagnostics = _
  exact List.foldl_hom Checked.diagnostics fun sofar path =>
    (diagnostics_foldl_regular context path sofar).symm

theorem Diagnostic.apply_locate {α : Type} {f : Diagnostic → α}
    (h : ∀ (d : Diagnostic) line character, f { d with line := line, character := character } = f d)
    (program : Program) (d : Diagnostic) : f (d.locate program) = f d := by
  unfold Diagnostic.locate
  split
  · exact h d _ _
  · rfl

/-- What reads neither line nor character selects the same diagnostics before they are located. -/
theorem Diagnostic.filter_map_locate {p : Diagnostic → Bool}
    (h : ∀ (d : Diagnostic) line character, p { d with line := line, character := character } = p d)
    (program : Program) (diagnostics : List Diagnostic) :
    (diagnostics.map (Diagnostic.locate program)).filter p =
      (diagnostics.filter p).map (Diagnostic.locate program) := by
  rw [List.filter_map]
  exact congrArg (List.map _) (List.filter_congr fun d _ => Diagnostic.apply_locate h program d)

theorem Diagnostic.filePath_locate (program : Program) (d : Diagnostic) :
    (d.locate program).filePath = d.filePath :=
  Diagnostic.apply_locate (f := Diagnostic.filePath) (fun _ _ _ => rfl) program d

theorem Diagnostic.filter_isIn_map_locate (program : Program) (path : Text)
    (diagnostics : List Diagnostic) :
    (diagnostics.map (Diagnostic.locate program)).filter (Diagnostic.isIn path) =
      (diagnostics.filter (Diagnostic.isIn path)).map (Diagnostic.locate program) :=
  Diagnostic.filter_map_locate (fun _ _ _ => rfl) program diagnostics

/-! ## Files do not disturb each other -/

section Turns

variable {context : CheckContext} {path other : Text}

theorem isIn_of_isSuppressed {usedNames : List Text} {program : Program} {d : Diagnostic}
    (h : isSuppressed usedNames program path d = true) : d.isIn path = true := by
  unfold isSuppressed at h
  rw [Bool.and_eq_true, Bool.and_eq_true] at h
  exact h.1.1

theorem filter_suppressUnusedImports_self (registry : Registry) (program : Program) (path : Text)
    (diagnostics : List Diagnostic) :
    (suppressUnusedImports registry program path diagnostics).filter (Diagnostic.isIn path) =
      suppressUnusedImports registry program path (diagnostics.filter (Diagnostic.isIn path)) := by
  unfold suppressUnusedImports
  dsimp only
  split_ifs
  · rfl
  · rw [List.filter_filter, List.filter_filter]
    exact List.filter_congr fun d _ => Bool.and_comm _ _

theorem filter_suppressUnusedImports_of_ne (registry : Registry) (program : Program)
    (h : other ≠ path) (diagnostics : List Diagnostic) :
    (suppressUnusedImports registry program other diagnostics).filter (Diagnostic.isIn path) =
      diagnostics.filter (Diagnostic.isIn path) := by
  unfold suppressUnusedImports
  dsimp only
  split_ifs
  · rfl
  · rw [List.filter_filter]
    refine List.filter_congr fun d _ => ?_
    by_cases hPath : d.isIn path = true
    · have hKept : isSuppressed (registry.usedNames other) program other d = false := by
        by_contra hSuppressed
        rw [Bool.not_eq_false] at hSuppressed
        exact h (Diagnostic.isIn_unique (isIn_of_isSuppressed hSuppressed) hPath)
      rw [hPath, hKept]
      rfl
    · rw [Bool.not_eq_true] at hPath
      rw [hPath]
      rfl

/-- All that is found in a file carries its path. -/
def LabelsFindings (context : CheckContext) (path : Text) : Prop :=
  ∀ d ∈ findings context path, d.isIn path = true

theorem LabelsFindings.filter_self (h : LabelsFindings context path) :
    (findings context path).filter (Diagnostic.isIn path) = findings context path :=
  List.filter_eq_self.mpr h

theorem LabelsFindings.filter_of_ne (h : LabelsFindings context other) (hNe : other ≠ path) :
    (findings context other).filter (Diagnostic.isIn path) = [] := by
  refine List.filter_eq_nil_iff.mpr fun d hd hPath => ?_
  exact hNe (Diagnostic.isIn_unique (h d hd) hPath)

theorem filter_turn_self (h : LabelsFindings context path) (diagnostics : List Diagnostic) :
    (turn context diagnostics path).filter (Diagnostic.isIn path) =
      turn context (diagnostics.filter (Diagnostic.isIn path)) path := by
  unfold turn
  rw [List.filter_append, filter_suppressUnusedImports_self, h.filter_self]

theorem filter_turn_of_ne (h : LabelsFindings context other) (hNe : other ≠ path)
    (diagnostics : List Diagnostic) :
    (turn context diagnostics other).filter (Diagnostic.isIn path) =
      diagnostics.filter (Diagnostic.isIn path) := by
  unfold turn
  rw [List.filter_append, filter_suppressUnusedImports_of_ne _ _ hNe, h.filter_of_ne hNe,
    List.append_nil]

theorem filter_foldl_turn_of_not_mem {paths : List Text}
    (hLabels : ∀ other ∈ paths, LabelsFindings context other) (hPath : path ∉ paths)
    (diagnostics : List Diagnostic) :
    (paths.foldl (turn context) diagnostics).filter (Diagnostic.isIn path) =
      diagnostics.filter (Diagnostic.isIn path) := by
  induction paths generalizing diagnostics with
  | nil => rfl
  | cons other paths ih =>
    obtain ⟨hOther, hLater⟩ := List.forall_mem_cons.mp hLabels
    obtain ⟨hNe, hPath⟩ := not_or.mp (List.mem_cons.not.mp hPath)
    rw [List.foldl_cons, ih hLater hPath, filter_turn_of_ne hOther (Ne.symm hNe)]

/-- The diagnostics of a file come from its own turn alone. -/
theorem filter_foldl_turn {paths : List Text}
    (hLabels : ∀ other ∈ paths, LabelsFindings context other) (hDistinct : paths.Nodup)
    (hPath : path ∈ paths) (diagnostics : List Diagnostic) :
    (paths.foldl (turn context) diagnostics).filter (Diagnostic.isIn path) =
      turn context (diagnostics.filter (Diagnostic.isIn path)) path := by
  obtain ⟨before, after, rfl⟩ := List.append_of_mem hPath
  obtain ⟨-, hAfter, hDisjoint⟩ := List.nodup_append'.mp hDistinct
  have hNotBefore : path ∉ before := fun h => hDisjoint h List.mem_cons_self
  have hNotAfter : path ∉ after := (List.nodup_cons.mp hAfter).1
  rw [List.foldl_append, List.foldl_cons, filter_foldl_turn_of_not_mem _ hNotAfter,
    filter_turn_self (hLabels path hPath), filter_foldl_turn_of_not_mem _ hNotBefore]
  · intro other hOther
    exact hLabels other (List.mem_append_left _ hOther)
  · intro other hOther
    exact hLabels other (List.mem_append_right _ (List.mem_cons_of_mem path hOther))

end Turns

/-! ## Where a diagnostic comes from -/

theorem mem_of_mem_suppressUnusedImports {registry : Registry} {program : Program} {path : Text}
    {diagnostics : List Diagnostic} {d : Diagnostic}
    (h : d ∈ suppressUnusedImports registry program path diagnostics) : d ∈ diagnostics := by
  unfold suppressUnusedImports at h
  dsimp only at h
  split_ifs at h
  · exact h
  · exact (List.mem_filter.mp h).1

/-- A diagnostic of a run was given to it or found in one of the files. -/
theorem mem_or_mem_findings_of_mem_foldl {context : CheckContext} {paths : List Text}
    {diagnostics : List Diagnostic} {d : Diagnostic}
    (h : d ∈ paths.foldl (turn context) diagnostics) :
    d ∈ diagnostics ∨ ∃ path ∈ paths, d ∈ findings context path := by
  induction paths generalizing diagnostics with
  | nil => exact .inl h
  | cons path paths ih =>
    rcases ih h with hTurn | ⟨other, hOther, hFound⟩
    · rcases List.mem_append.mp hTurn with hGiven | hFound
      · exact .inl (mem_of_mem_suppressUnusedImports hGiven)
      · exact .inr ⟨path, List.mem_cons_self, hFound⟩
    · exact .inr ⟨other, List.mem_cons_of_mem path hOther, hFound⟩

end TemplateCheck
