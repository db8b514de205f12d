import TemplateCheck.Proofs.Check.Contracts

/-!
# Pipelines in closed form

A pipeline may have the stages of the checker in any order, some of them several times, and stages
that fail. One list passes through every stage of every file, yet the result has a closed form.

1. Each stage drops some diagnostics one by one and appends its own (`diagnostics_step`). A failing
   stage does neither.
2. No check reports a code of the host (`isHostReport_of_mem_finds`), so what was appended is never
   dropped, and folding such steps filters the input and appends all findings in order
   (`foldl_filter_append`). This is used for the stages of a file and again for the files.
3. An oracle that fails on an expression takes away the reports about the bindings for which it was
   asked about that expression (`checkBindingTypes_failingOn`).
-/

namespace TemplateCheck

/-! ## Stages -/

/-- A stage of the checker, or one that always fails. -/
inductive StageKind where
  | suppression
  | imports
  | names
  | props
  | types
  | failing (name reason : Text)
deriving DecidableEq, Repr

namespace StageKind

/-- The stage of a kind. -/
def stage : StageKind → Stage
  | suppression => .suppressTemplateImports
  | imports => .checkImports
  | names => .checkNames
  | props => .checkProps
  | types => .checkTypes
  | failing name reason => ⟨name, fun _ _ _ => .error reason⟩

/-- What a stage finds in a file. -/
def finds (context : CheckContext) (path : Text) : StageKind → List Diagnostic
  | suppression => []
  | imports => checkUsages context.registry context.program path
  | names => checkMultiwordNames context.registry path ++ checkDuplicatedNames context.registry path
  | props =>
    checkRequiredProps context.registry path ++ checkUnknownAttributes context.registry path ++
      checkRepeatedAttributes context.registry path
  | types => checkBindingTypes context.registry context.oracle path
  | failing _ _ => []

/-- The stages of a regular run, in order. -/
def regular : List StageKind := [suppression, imports, names, props, types]

theorem map_stage_regular : regular.map stage = Stage.regular := rfl

end StageKind

/-! ## Reports of the host -/

/-- Whether the diagnostic has one of the codes of the host for unused imports. -/
def Diagnostic.isHostReport (d : Diagnostic) : Bool :=
  d.code = DiagnosticCode.unusedDeclaration.number ||
    d.code = DiagnosticCode.unusedImportDeclaration.number

/-- Whether the diagnostic belongs to a file and is a report of the host that is dropped for it. -/
def CheckContext.drops (context : CheckContext) (path : Text) (d : Diagnostic) : Bool :=
  d.isIn path && d.isHostReport &&
    (suppressUnusedImports context.registry context.program path [d]).isEmpty

theorem Diagnostic.isHostReport_of_isAboutContract {d : Diagnostic} (h : d.isAboutContract = true) :
    d.isHostReport = false := by
  have hCodes : ∀ code ∈ contractCodes, code.number ≠ DiagnosticCode.unusedDeclaration.number ∧
      code.number ≠ DiagnosticCode.unusedImportDeclaration.number := by decide
  unfold Diagnostic.isAboutContract at h
  rw [decide_eq_true_iff] at h
  obtain ⟨code, hCode, hNumber⟩ := List.mem_map.mp h
  obtain ⟨hDeclaration, hImport⟩ := hCodes code hCode
  unfold Diagnostic.isHostReport
  rw [← hNumber, decide_eq_false hDeclaration, decide_eq_false hImport]
  rfl

theorem isHostReport_of_mem_checkUsages {registry : Registry} {program : Program} {path : Text}
    {d : Diagnostic} (h : d ∈ checkUsages registry program path) : d.isHostReport = false := by
  unfold checkUsages at h
  split at h
  · cases h
  · obtain ⟨used, -, hError⟩ := List.mem_filterMap.mp h
    unfold usageError? at hError
    split_ifs at hError
    · rw [← Option.some.inj hError]
      rfl
    · rw [← Option.some.inj hError]
      rfl

theorem isHostReport_of_mem_finds {context : CheckContext} {path : Text} {kind : StageKind}
    {d : Diagnostic} (h : d ∈ kind.finds context path) : d.isHostReport = false := by
  cases kind with
  | suppression => cases h
  | imports => exact isHostReport_of_mem_checkUsages h
  | names =>
    rcases List.mem_append.mp h with h | h
    · obtain ⟨component, -, rfl⟩ := List.mem_map.mp h
      rfl
    · obtain ⟨component, -, rfl⟩ := List.mem_map.mp h
      rfl
  | props =>
    rcases List.mem_append.mp h with h | h
    · rcases List.mem_append.mp h with h | h
      · exact Diagnostic.isHostReport_of_isAboutContract
          (isAboutContract_of_mem_checkRequiredProps h)
      · exact Diagnostic.isHostReport_of_isAboutContract
          (isAboutContract_of_mem_checkUnknownAttributes h)
    · obtain ⟨⟨scan, tag⟩, -, h⟩ := List.mem_flatMap.mp h
      obtain ⟨attr, -, rfl⟩ := List.mem_map.mp h
      rfl
  | types =>
    exact Diagnostic.isHostReport_of_isAboutContract (isAboutContract_of_mem_checkBindingTypes h)
  | failing name reason => cases h

/-- Suppression judges each diagnostic alone. -/
theorem suppressUnusedImports_eq_filter (context : CheckContext) (path : Text)
    (diagnostics : List Diagnostic) :
    suppressUnusedImports context.registry context.program path diagnostics =
      diagnostics.filter fun d => !context.drops path d := by
  unfold CheckContext.drops suppressUnusedImports
  dsimp only
  by_cases hNames : context.registry.usedNames path = []
  · simp [hNames]
  · rw [if_neg hNames]
    refine List.filter_congr fun d _ => ?_
    rw [if_neg hNames, List.filter_singleton]
    cases hSuppressed : isSuppressed (context.registry.usedNames path) context.program path d with
    | false => simp
    | true =>
      unfold isSuppressed at hSuppressed
      rw [Bool.and_eq_true, Bool.and_eq_true] at hSuppressed
      obtain ⟨⟨hPath, hCode⟩, -⟩ := hSuppressed
      have hIn : d.isIn path = true := hPath
      have hHost : d.isHostReport = true := hCode
      simp [hIn, hHost]

/-! ## Folding the stages -/

/-- Steps that drop elements one by one and append others, which no step drops. -/
theorem foldl_filter_append {α β : Type} (keeps : β → α → Bool) (adds : β → List α)
    (hAdds : ∀ b, ∀ a ∈ adds b, ∀ b', keeps b' a = true) (bs : List β) (as : List α) :
    bs.foldl (fun as b => as.filter (keeps b) ++ adds b) as =
      (as.filter fun a => bs.all fun b => keeps b a) ++ bs.flatMap adds := by
  induction bs generalizing as with
  | nil => simp
  | cons b bs ih =>
    have hKept : (adds b).filter (fun a => bs.all fun b => keeps b a) = adds b := by
      refine List.filter_eq_self.mpr fun a ha => ?_
      exact List.all_eq_true.mpr fun b' _ => hAdds b a ha b'
    rw [List.foldl_cons, ih, List.filter_append, List.filter_filter, hKept, List.flatMap_cons,
      List.append_assoc]
    refine congrArg (· ++ _) (List.filter_congr fun a _ => ?_)
    rw [List.all_cons, Bool.and_comm]

/-- Whether a stage leaves a diagnostic in the list when it runs for a file. -/
def StageKind.keeps (context : CheckContext) (path : Text) (kind : StageKind) (d : Diagnostic) :
    Bool :=
  kind ≠ .suppression || !context.drops path d

theorem StageKind.keeps_of_mem_finds {context : CheckContext} {path : Text} {kind : StageKind}
    {d : Diagnostic} (h : d ∈ kind.finds context path) (other : Text) (kind' : StageKind) :
    kind'.keeps context other d = true := by
  unfold StageKind.keeps CheckContext.drops
  rw [isHostReport_of_mem_finds h]
  simp

/-- One stage drops reports of the host and appends what it finds. -/
theorem diagnostics_step (context : CheckContext) (path : Text) (sofar : Checked)
    (kind : StageKind) :
    (Stage.step context path sofar kind.stage).diagnostics =
      sofar.diagnostics.filter (kind.keeps context path) ++ kind.finds context path := by
  by_cases hKind : kind = .suppression
  · subst hKind
    show suppressUnusedImports context.registry context.program path sofar.diagnostics = _
    rw [suppressUnusedImports_eq_filter]
    exact (List.append_nil _).symm
  · have hAll : sofar.diagnostics.filter (kind.keeps context path) = sofar.diagnostics := by
      refine List.filter_eq_self.mpr fun d _ => ?_
      unfold StageKind.keeps
      rw [decide_eq_true hKind]
      rfl
    rw [hAll]
    cases kind with
    | suppression => exact absurd rfl hKind
    | imports => rfl
    | names => rfl
    | props => rfl
    | types => rfl
    | failing name reason => exact (List.append_nil _).symm

theorem diagnostics_foldl_stages (context : CheckContext) (kinds : List StageKind) (sofar : Checked)
    (path : Text) :
    ((kinds.map StageKind.stage).foldl (Stage.step context path) sofar).diagnostics =
      (sofar.diagnostics.filter fun d => kinds.all fun kind => kind.keeps context path d) ++
        kinds.flatMap (StageKind.finds context path) := by
  rw [← foldl_filter_append (StageKind.keeps context path) (StageKind.finds context path)
    fun kind d hd kind' => StageKind.keeps_of_mem_finds hd path kind', List.foldl_map]
  exact (List.foldl_hom Checked.diagnostics fun sofar kind =>
    (diagnostics_step context path sofar kind).symm).symm

/-- The stages of all files: what the host reported is kept unless a stage drops it for a file, and
the findings follow, file by file and stage by stage. -/
theorem diagnostics_runPipeline_eq (host : List Diagnostic) (context : CheckContext)
    (kinds : List StageKind) :
    (runPipeline host context (kinds.map StageKind.stage)).diagnostics =
      ((host.filter fun d => context.filePaths.all fun path =>
          kinds.all fun kind => kind.keeps context path d) ++
        context.filePaths.flatMap fun path =>
          kinds.flatMap (StageKind.finds context path)).map (Diagnostic.locate
            context.program) := by
  unfold runPipeline
  refine congrArg (List.map _) ?_
  rw [← foldl_filter_append (fun path d => kinds.all fun kind => kind.keeps context path d)
    (fun path => kinds.flatMap (StageKind.finds context path))]
  · exact (List.foldl_hom Checked.diagnostics fun sofar path =>
      (diagnostics_foldl_stages context kinds sofar path).symm).symm
  · intro path d hd other
    obtain ⟨kind, -, hFound⟩ := List.mem_flatMap.mp hd
    exact List.all_eq_true.mpr fun kind' _ => StageKind.keeps_of_mem_finds hFound other kind'

theorem all_keeps_iff {context : CheckContext} {kinds : List StageKind} {d : Diagnostic} :
    (context.filePaths.all fun path => kinds.all fun kind => kind.keeps context path d) = true ↔
      ¬ (.suppression ∈ kinds ∧ ∃ path ∈ context.filePaths, context.drops path d = true) := by
  simp only [List.all_eq_true, StageKind.keeps, Bool.or_eq_true, decide_eq_true_eq,
    Bool.not_eq_true']
  constructor
  · rintro hKeeps ⟨hKind, path, hPath, hDrops⟩
    rcases hKeeps path hPath _ hKind with hOther | hKept
    · exact hOther rfl
    · rw [hDrops] at hKept
      cases hKept
  · intro hKeeps path hPath kind hKind
    by_cases hOther : kind = .suppression
    · subst hOther
      refine .inr (Bool.eq_false_iff.mpr fun hDrops => ?_)
      exact hKeeps ⟨hKind, path, hPath, hDrops⟩
    · exact .inl hOther

/-! ## Oracles that fail -/

namespace TypeOracle

/-- The oracle that always answers. -/
def answering (typeOf : Expression → TypeRef) (isAssignable : (source target : TypeRef) → Bool) :
    TypeOracle where
  typeOf expression := .ok (typeOf expression)
  isAssignable := isAssignable

/-- The oracle that fails on the expressions that have a reason for it. -/
def failingOn (oracle : TypeOracle) (reason? : Expression → Option Text) : TypeOracle where
  typeOf expression :=
    match reason? expression with
    | some reason => .error reason
    | none => oracle.typeOf expression
  isAssignable := oracle.isAssignable

end TypeOracle

/-- The expression whose type is asked for when a binding is checked: the component is known and
declares the key with a type. -/
def queried? (registry : Registry) (binding : Binding) : Option Expression := do
  let component ← registry.find? (binding.component.getD [])
  let declared ← component.find? (binding.kind.getD .emit) (binding.key.getD [])
  let _ ← declared.type
  binding.expression

/-- What the check of a binding finds. -/
def bindingFinding? (registry : Registry) (oracle : TypeOracle) (path : Text)
    (pair : TemplateScan × Binding) : Option Diagnostic :=
  match bindingError? registry oracle path pair.1 pair.2 with
  | .ok found => found
  | .error _ => none

section Queries

variable {registry : Registry} {oracle oracle' : TypeOracle} {path : Text} {scan : TemplateScan}
  {binding : Binding} {expression : Expression}

theorem exists_declared_of_queried? (h : queried? registry binding = some expression) :
    ∃ component declared type, registry.find? (binding.component.getD []) = some component ∧
      component.find? (binding.kind.getD .emit) (binding.key.getD []) = some declared ∧
      declared.type = some type ∧ binding.expression = some expression := by
  unfold queried? at h
  obtain ⟨component, hComponent, h⟩ := Option.bind_eq_some_iff.mp h
  obtain ⟨declared, hDeclared, h⟩ := Option.bind_eq_some_iff.mp h
  obtain ⟨type, hType, hExpression⟩ := Option.bind_eq_some_iff.mp h
  exact ⟨component, declared, type, hComponent, hDeclared, hType, hExpression⟩

theorem bindingError?_of_queried?_eq_none (h : queried? registry binding = none) :
    bindingError? registry oracle path scan binding = .ok none := by
  unfold bindingError?
  dsimp only
  split
  · rename_i declared expression hDeclared hExpression
    obtain ⟨component, hComponent, hDeclared⟩ := Option.bind_eq_some_iff.mp hDeclared
    cases hType : declared.type with
    | none => rfl
    | some type =>
      have hQueried : queried? registry binding = some expression := by
        unfold queried?
        rw [hComponent, hExpression]
        dsimp only [Option.bind_eq_bind, Option.bind_some]
        rw [hDeclared]
        dsimp only [Option.bind_some]
        rw [hType]
        rfl
      rw [h] at hQueried
      cases hQueried
  · rfl

/-- The check of a binding looks at the answer to its own question only. -/
theorem bindingError?_congr (h : queried? registry binding = some expression)
    (hType : oracle.typeOf expression = oracle'.typeOf expression)
    (hAssignable : ∀ component declared type provided,
      registry.find? (binding.component.getD []) = some component →
      component.find? (binding.kind.getD .emit) (binding.key.getD []) = some declared →
      declared.type = some type → oracle.typeOf expression = .ok provided →
      oracle.isAssignable provided type = oracle'.isAssignable provided type) :
    bindingError? registry oracle path scan binding =
      bindingError? registry oracle' path scan binding := by
  obtain ⟨component, declared, type, hComponent, hDeclared, hDeclaredType, hExpression⟩ :=
    exists_declared_of_queried? h
  unfold bindingError?
  dsimp only
  rw [hComponent, Option.bind_some, hDeclared, hExpression]
  dsimp only
  rw [hDeclaredType, ← hType]
  dsimp only
  cases hProvided : oracle.typeOf expression with
  | error reason => rfl
  | ok provided =>
    show (if oracle.isAssignable provided type = true then _ else _) =
      if oracle'.isAssignable provided type = true then _ else _
    rw [hAssignable component declared type provided hComponent hDeclared hDeclaredType hProvided]

theorem bindingError?_of_error (h : queried? registry binding = some expression) {reason : Text}
    (hError : oracle.typeOf expression = .error reason) :
    bindingError? registry oracle path scan binding = .error reason := by
  obtain ⟨component, declared, type, hComponent, hDeclared, hType, hExpression⟩ :=
    exists_declared_of_queried? h
  unfold bindingError?
  dsimp only
  rw [hComponent, Option.bind_some, hDeclared, hExpression]
  dsimp only
  rw [hType, hError]
  rfl

/-- The check of a binding fails when its question does, and goes on as before otherwise. -/
theorem bindingError?_failingOn (reason? : Expression → Option Text) :
    bindingError? registry (oracle.failingOn reason?) path scan binding =
      match (queried? registry binding).bind reason? with
      | some reason => .error reason
      | none => bindingError? registry oracle path scan binding := by
  cases hQueried : queried? registry binding with
  | none =>
    rw [bindingError?_of_queried?_eq_none hQueried]
    exact (bindingError?_of_queried?_eq_none hQueried).symm
  | some expression =>
    rw [Option.bind_some]
    cases hReason : reason? expression with
    | none =>
      refine bindingError?_congr hQueried ?_ fun _ _ _ _ _ _ _ _ => rfl
      unfold TypeOracle.failingOn
      dsimp only
      rw [hReason]
    | some reason =>
      refine bindingError?_of_error hQueried ?_
      unfold TypeOracle.failingOn
      dsimp only
      rw [hReason]

end Queries

/-- The check of types leaves out the bindings for which the oracle failed, and only these. -/
theorem checkBindingTypes_failingOn (registry : Registry) (oracle : TypeOracle)
    (reason? : Expression → Option Text) (path : Text) :
    checkBindingTypes registry (oracle.failingOn reason?) path =
      ((actionableBindings registry path).filter fun pair =>
        ((queried? registry pair.2).bind reason?).isNone).filterMap
          (bindingFinding? registry oracle path) := by
  rw [List.filterMap_filter]
  refine List.filterMap_congr fun pair _ => ?_
  dsimp only
  rw [bindingError?_failingOn]
  cases (queried? registry pair.2).bind reason? with
  | none => rfl
  | some reason => rfl

/-- For every context, in or out of step, every list of the host, every list of stages of the
checker and failing stages, and every set of expressions on which the oracle fails: the result is,
located, the list of the host without the reports that suppression drops for the covered file that
they belong to, if it is among the stages, and after it, file by file and stage by stage, what each
stage finds; the check of types leaves out the bindings whose question failed. -/
theorem runPipeline_closedForm (host : List Diagnostic) (registry : Registry) (program : Program)
    (filePath : Option Text) (kinds : List StageKind) (typeOf : Expression → TypeRef)
    (isAssignable : (source target : TypeRef) → Bool) (reason? : Expression → Option Text) :
    let oracle := TypeOracle.answering typeOf isAssignable
    let context : CheckContext := ⟨registry, program, oracle.failingOn reason?, filePath⟩
    (runPipeline host context (kinds.map StageKind.stage)).diagnostics =
      ((host.filter fun d =>
          ¬ (.suppression ∈ kinds ∧ ∃ path ∈ context.filePaths, context.drops path d = true)) ++
        context.filePaths.flatMap fun path =>
          kinds.flatMap (StageKind.finds context path)).map (Diagnostic.locate program) ∧
    ∀ path, StageKind.finds context path .types =
      ((actionableBindings registry path).filter fun pair =>
        ((queried? registry pair.2).bind reason?).isNone).filterMap
          (bindingFinding? registry oracle path) := by
  intro oracle context
  constructor
  · rw [diagnostics_runPipeline_eq]
    refine congrArg (fun kept => List.map _ (kept ++ _)) (List.filter_congr fun d _ => ?_)
    rw [Bool.eq_iff_iff, all_keeps_iff, decide_eq_true_iff]
  · exact checkBindingTypes_failingOn registry oracle reason?

end TemplateCheck
