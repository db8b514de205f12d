import TemplateCheck.Proofs.Check.Stages
import TemplateCheck.Proofs.Registry.History
import TemplateCheck.Proofs.Service.Agreement
import TemplateCheck.Proofs.TypeText.Dependence

/-!
# What the diagnostics of a file depend on

The diagnostics of a file come from its own turn (`filter_foldl_turn`), and its turn looks at the
rest of the program in three ways only: it looks components up by name, it asks whether the names of
its own components are duplicated, and it asks about the types of its expressions and of the
contracts of components.

Two programs that give the same answers to these questions are alike around the file
(`Program.AlikeAround`). They have the same diagnostics for it (`AlikeAround.filter_checkProgram`).
-/

namespace TemplateCheck

open TypeText

/-! ## Components -/

section Components

variable {inside : Option Text → Prop} {program program' : Program} {file : SourceFile}

theorem contract_eq (h : program.AgreeOn inside program') (hFile : inside (some file.path))
    (type : Option Text) : contract program file type = contract program' file type := by
  cases type with
  | none => rfl
  | some text =>
    have hMembers : members program ⟨text, some file.path⟩ =
        members program' ⟨text, some file.path⟩ :=
      h.members_eq hFile
    unfold contract
    dsimp only
    rw [hMembers]

/-- Programs that resolve the types in a file alike extract the same components from it. -/
theorem componentsIn_eq (h : program.AgreeOn inside program')
    (hConfig : program.config = program'.config) (hFile : inside (some file.path)) :
    componentsIn program file = componentsIn program' file := by
  unfold componentsIn
  rw [hConfig]
  refine List.map_congr_left fun declaration _ => ?_
  unfold Component.ofClass
  rw [contract_eq h hFile, contract_eq h hFile]

theorem inside_of_mem_contract (h : program.AgreeOn inside program')
    (hFile : inside (some file.path)) {spelled : Option Text} {declared : PropDeclaration}
    (hDeclared : declared ∈ contract program file spelled) {type : TypeRef}
    (hType : declared.type = some type) : inside type.file := by
  cases spelled with
  | none => cases hDeclared
  | some text =>
    obtain ⟨member, hMember, rfl⟩ := List.mem_map.mp hDeclared
    rw [← Option.some.inj hType]
    exact h.inside_of_mem_members hFile hMember

end Components

theorem Component.mem_of_find? {component : Component} {kind : BindingKind} {key : Text}
    {declared : PropDeclaration} (h : component.find? kind key = some declared) :
    declared ∈ component.props ∨ declared ∈ component.emits := by
  cases kind with
  | prop => exact .inl (List.mem_of_find?_eq_some h)
  | emit => exact .inr (List.mem_of_find?_eq_some h)

theorem map_name_componentsOf (program : Program) :
    (componentsOf program).map (·.name) =
      (program.sourceFiles.flatMap (componentsIn program)).map (·.name) := by
  rw [componentsOf_eq, List.map_map]
  rfl

theorem Registry.find?_populate {program : Program} (h : program.WellFormed) (registry : Registry)
    (name : Text) :
    (registry.populate program).find? name = (componentsOf program).find? (·.name = name) := by
  unfold Registry.find?
  rw [Registry.components_populate h]

theorem Registry.componentsIn_populate {program : Program} (h : program.WellFormed)
    (registry : Registry) {file : SourceFile} (hFile : file ∈ program.sourceFiles) :
    (registry.populate program).componentsIn file.path =
      (TemplateCheck.componentsIn program file).map
      (Component.mark (program.sourceFiles.flatMap (TemplateCheck.componentsIn program))) := by
  rw [Registry.componentsIn_eq (declarations_populate h registry), getD_get?_publicationsOf h hFile,
    flatten_values_publicationsOf]

/-! ## Turns -/

theorem TypeOracle.typeOf_ofProgram (program : Program) (expression : Expression) :
    (ofProgram program).typeOf expression = .ok (infer program expression) := rfl

theorem TypeOracle.isAssignable_ofProgram (program : Program) :
    (ofProgram program).isAssignable = TypeText.isAssignable program := by
  simp only [ofProgram]

/-- An expression bound in a template of a file carries the path of the file. -/
theorem Registry.Reflects.filePath_of_binding {registry : Registry} {file : SourceFile}
    (h : registry.Reflects file) {scan : TemplateScan} {binding : Binding}
    (hBinding : (scan, binding) ∈ actionableBindings registry file.path) {expression : Expression}
    (hExpression : binding.expression = some expression) : expression.filePath = file.path := by
  obtain ⟨scan', hScan, hPair⟩ := List.mem_flatMap.mp hBinding
  obtain ⟨binding', hBinding', hEq⟩ := List.mem_map.mp hPair
  obtain ⟨rfl, rfl⟩ := Prod.mk.inj hEq
  obtain ⟨template, -, rfl⟩ := h.exists_template hScan
  obtain ⟨bound, -, hOf⟩ := List.mem_filterMap.mp (List.mem_filter.mp hBinding').1
  obtain ⟨span, -, hOf⟩ := Option.bind_eq_some_iff.mp hOf
  obtain ⟨tag, -, hOf⟩ := Option.bind_eq_some_iff.mp hOf
  rw [← Option.some.inj hOf] at hExpression
  rw [← Option.some.inj hExpression]

/-- A turn looks at the scan of the file, at its components, at components found by name, at the
file itself and at the types of its bindings. -/
theorem turn_eq_of_same {context context' : CheckContext} {path : Text}
    (hScan : context.registry.scan? path = context'.registry.scan? path)
    (hComponents : context.registry.componentsIn path = context'.registry.componentsIn path)
    (hFind : context.registry.find? = context'.registry.find?)
    (hFile : context.program.file? path = context'.program.file? path)
    (hTypes : checkBindingTypes context.registry context.oracle path =
      checkBindingTypes context'.registry context'.oracle path) (diagnostics : List Diagnostic) :
    turn context diagnostics path = turn context' diagnostics path := by
  have hUsed : context.registry.usedIn path = context'.registry.usedIn path := by
    unfold Registry.usedIn
    rw [hScan]
  have hTags : componentTagsIn context.registry path = componentTagsIn context'.registry path := by
    unfold componentTagsIn Registry.templatesIn
    rw [hScan]
  have hError : usageError? context.registry = usageError? context'.registry := by
    unfold usageError?
    rw [hFind]
  unfold turn findings suppressUnusedImports isSuppressed checkUsages checkMultiwordNames
    checkDuplicatedNames checkRequiredProps checkUnknownAttributes checkRepeatedAttributes
    Registry.usedNames
  rw [hUsed, hTags, hError, hFind, hFile, hComponents, hTypes]

/-- The context of a check of a whole program, with a registry filled from it. -/
def CheckContext.filled (program : Program) (registry : Registry) : CheckContext :=
  ⟨registry.populate program, program, .ofProgram program, none⟩

theorem checkProgram_populate (program : Program) (registry : Registry) :
    checkProgram program (registry.populate program) =
      runPipeline (hostDiagnostics program) (.filled program registry) Stage.regular := rfl

/-- What a check of a whole program makes of a file before the result is located. -/
theorem filter_foldl_turn_populate {program : Program} (h : program.WellFormed)
    (registry : Registry) {file : SourceFile} (hFile : file ∈ program.sourceFiles) :
    ((CheckContext.filled program registry).filePaths.foldl (turn (.filled program registry))
        (hostDiagnostics program)).filter (Diagnostic.isIn file.path) =
      turn (.filled program registry) (hostReports program file.path) file.path := by
  have hLabels : ∀ path ∈ program.sourceFiles.map (·.path),
      LabelsFindings (.filled program registry) path := by
    intro path hPath
    obtain ⟨other, hOther, rfl⟩ := List.mem_map.mp hPath
    exact labels_findings h registry _ _ hOther
  have hPaths : (CheckContext.filled program registry).filePaths =
      program.sourceFiles.map (·.path) := CheckContext.filePaths_populate h registry _
  rw [hPaths, filter_foldl_turn hLabels h.nodup_paths (List.mem_map_of_mem hFile),
    filter_hostDiagnostics h hFile]

theorem exists_file_of_mem_checkProgram {program : Program} (h : program.WellFormed)
    (registry : Registry) {d : Diagnostic}
    (hd : d ∈ (checkProgram program (registry.populate program)).diagnostics) :
    ∃ file ∈ program.sourceFiles, d.filePath = some file.path := by
  obtain ⟨file, hFile, plain, rfl, hPlain⟩ := host_or_placed h registry hd
  refine ⟨file, hFile, ?_⟩
  rw [Diagnostic.filePath_locate]
  rcases hPlain with hHost | ⟨code, start, shown, hPoints⟩
  · exact (of_mem_findUnusedImports hHost).1
  · exact hPoints.filePath_eq

/-! ## Programs that are alike around a file -/

/-- In two programs, a file sees the same of the rest: types resolve alike in the file and where
components are declared, and the components are the same by name. -/
structure Program.AlikeAround (inside : Option Text → Prop) (program program' : Program)
    (file : SourceFile) : Prop where
  wellFormed : program.WellFormed
  wellFormed' : program'.WellFormed
  config_eq : program.config = program'.config
  agreeOn : program.AgreeOn inside program'
  mem : file ∈ program.sourceFiles
  mem' : file ∈ program'.sourceFiles
  inside_file : inside (some file.path)
  inside_declaring : ∀ other ∈ program.sourceFiles,
    componentsIn program other ≠ [] → inside (some other.path)
  perm_names : ((componentsOf program).map (·.name)).Perm ((componentsOf program').map (·.name))
  find?_eq : ∀ name,
    (componentsOf program).find? (·.name = name) = (componentsOf program').find? (·.name = name)

namespace Program.AlikeAround

variable {inside : Option Text → Prop} {program program' : Program} {file : SourceFile}

theorem file?_eq (h : program.AlikeAround inside program' file) :
    program.file? file.path = program'.file? file.path := by
  rw [h.wellFormed.file?_path h.mem, h.wellFormed'.file?_path h.mem']

theorem agreeAt (h : program.AlikeAround inside program' file) :
    program.AgreeAt inside program' file.path where
  file?_eq := h.file?_eq
  inside_path := h.inside_file
  inside_file := by
    intro found hFound
    rw [h.wellFormed.file?_path h.mem] at hFound
    rw [← Option.some.inj hFound]
    exact h.inside_file

theorem inside_of_find? (h : program.AlikeAround inside program' file) {name : Text}
    {component : Component}
    (hComponent : (componentsOf program).find? (·.name = name) = some component)
    {kind : BindingKind} {key : Text} {declared : PropDeclaration}
    (hDeclared : component.find? kind key = some declared) {type : TypeRef}
    (hType : declared.type = some type) : inside type.file := by
  have hMem := List.mem_of_find?_eq_some hComponent
  rw [componentsOf_eq] at hMem
  obtain ⟨plain, hPlain, rfl⟩ := List.mem_map.mp hMem
  obtain ⟨other, hOther, hPlain⟩ := List.mem_flatMap.mp hPlain
  have hInside := h.inside_declaring other hOther (List.ne_nil_of_mem hPlain)
  obtain ⟨declaration, -, rfl⟩ := List.mem_map.mp hPlain
  rcases Component.mem_of_find? hDeclared with hDeclared | hDeclared
  · exact inside_of_mem_contract h.agreeOn hInside hDeclared hType
  · exact inside_of_mem_contract h.agreeOn hInside hDeclared hType

variable (registry registry' : Registry)

theorem scan?_eq (h : program.AlikeAround inside program' file) :
    (registry.populate program).scan? file.path =
      (registry'.populate program').scan? file.path := by
  rw [Registry.scan?_eq (Registry.scans_populate h.wellFormed registry) h.wellFormed h.mem,
    Registry.scan?_eq (Registry.scans_populate h.wellFormed' registry') h.wellFormed' h.mem']

theorem find?_populate_eq (h : program.AlikeAround inside program' file) :
    (registry.populate program).find? = (registry'.populate program').find? := by
  funext name
  rw [Registry.find?_populate h.wellFormed, Registry.find?_populate h.wellFormed', h.find?_eq]

theorem componentsIn_populate_eq (h : program.AlikeAround inside program' file) :
    (registry.populate program).componentsIn file.path =
      (registry'.populate program').componentsIn file.path := by
  have hNames := h.perm_names
  rw [map_name_componentsOf, map_name_componentsOf] at hNames
  rw [Registry.componentsIn_populate h.wellFormed registry h.mem,
    Registry.componentsIn_populate h.wellFormed' registry' h.mem',
    componentsIn_eq h.agreeOn h.config_eq h.inside_file, Component.mark_congr hNames]

theorem bindingError?_ofProgram_eq (h : program.AlikeAround inside program' file)
    {scan : TemplateScan} {binding : Binding}
    (hBinding : (scan, binding) ∈ actionableBindings (registry.populate program) file.path) :
    bindingError? (registry.populate program) (.ofProgram program) file.path scan binding =
      bindingError? (registry.populate program) (.ofProgram program') file.path scan binding := by
  cases hQueried : queried? (registry.populate program) binding with
  | none =>
    rw [bindingError?_of_queried?_eq_none hQueried, bindingError?_of_queried?_eq_none hQueried]
  | some expression =>
    obtain ⟨_, _, _, _, _, _, hExpression⟩ := exists_declared_of_queried? hQueried
    have hAt := h.agreeAt
    rw [← (Registry.reflects_populate h.wellFormed registry h.mem).filePath_of_binding hBinding
      hExpression] at hAt
    refine bindingError?_congr hQueried ?_ ?_
    · rw [TypeOracle.typeOf_ofProgram, TypeOracle.typeOf_ofProgram, h.agreeOn.infer_eq hAt]
    · intro component declared type provided hComponent hDeclared hType hProvided
      rw [Registry.find?_populate h.wellFormed] at hComponent
      rw [TypeOracle.typeOf_ofProgram] at hProvided
      rw [TypeOracle.isAssignable_ofProgram, TypeOracle.isAssignable_ofProgram,
        ← Except.ok.inj hProvided]
      exact h.agreeOn.isAssignable_eq (h.agreeOn.inside_infer hAt)
        (h.inside_of_find? hComponent hDeclared hType)

theorem checkBindingTypes_eq (h : program.AlikeAround inside program' file) :
    checkBindingTypes (registry.populate program) (.ofProgram program) file.path =
      checkBindingTypes (registry'.populate program') (.ofProgram program') file.path := by
  have hBindings : actionableBindings (registry.populate program) file.path =
      actionableBindings (registry'.populate program') file.path := by
    unfold actionableBindings Registry.templatesIn
    rw [h.scan?_eq registry registry']
  have hRegistry : bindingError? (registry.populate program) =
      bindingError? (registry'.populate program') := by
    unfold bindingError?
    rw [h.find?_populate_eq registry registry']
  unfold checkBindingTypes
  rw [← hBindings, ← hRegistry]
  refine List.filterMap_congr ?_
  rintro ⟨scan, binding⟩ hBinding
  dsimp only
  rw [h.bindingError?_ofProgram_eq registry hBinding]

/-! ## Diagnostics -/

theorem turn_eq (h : program.AlikeAround inside program' file) (diagnostics : List Diagnostic) :
    turn (.filled program registry) diagnostics file.path =
      turn (.filled program' registry') diagnostics file.path :=
  turn_eq_of_same (h.scan?_eq registry registry') (h.componentsIn_populate_eq registry registry')
    (h.find?_populate_eq registry registry') h.file?_eq (h.checkBindingTypes_eq registry registry')
    diagnostics

theorem hostReports_eq (h : program.AlikeAround inside program' file) :
    hostReports program file.path = hostReports program' file.path := by
  unfold hostReports findUnusedImports
  rw [h.config_eq, h.file?_eq]

theorem locate_eq (h : program.AlikeAround inside program' file) {d : Diagnostic}
    (hd : d.isIn file.path = true) : d.locate program = d.locate program' := by
  unfold Diagnostic.locate
  rw [Diagnostic.isIn_iff.mp hd, Option.bind_some, Option.bind_some, h.file?_eq]

/-- Programs that are alike around a file have the same diagnostics for it. -/
theorem filter_checkProgram (h : program.AlikeAround inside program' file) :
    (checkProgram program (registry.populate program)).diagnostics.filter
        (Diagnostic.isIn file.path) =
      (checkProgram program' (registry'.populate program')).diagnostics.filter
        (Diagnostic.isIn file.path) := by
  have hSame := filter_foldl_turn_populate h.wellFormed registry h.mem
  rw [h.turn_eq registry registry', h.hostReports_eq,
    ← filter_foldl_turn_populate h.wellFormed' registry' h.mem'] at hSame
  rw [checkProgram_populate, checkProgram_populate, diagnostics_runPipeline,
    diagnostics_runPipeline, Diagnostic.filter_isIn_map_locate,
    Diagnostic.filter_isIn_map_locate, ← hSame]
  exact List.map_congr_left fun d hd => h.locate_eq (List.mem_filter.mp hd).2

end Program.AlikeAround

end TemplateCheck
