import TemplateCheck.Proofs.Check.Pipeline
import TemplateCheck.Proofs.Markup.Written
import TemplateCheck.Proofs.Registry
import TemplateCheck.Proofs.Source.Mask
import TemplateCheck.Proofs.Source.Templates

/-!
# Diagnostics point at the text that they name

Each check puts its diagnostics at offsets that it computes from the start of a template, from a
place in its body or from a class declaration. Here these offsets are followed back to the text.

1. `DiagnosticCode.Names` lists the messages and the text that each of them speaks about.
2. What the tokenizer reports of a body stands in the file, one character after the opening backtick
   (`Tag.Written.placed_name`, `Attribute.Written.placed`, `Attribute.Written.placed_key`).
3. So everything that the checks find in a file is placed in it, provided that the registry knows
   the file (`Registry.Reflects.placed_findings`), as a filled one does
   (`Registry.reflects_populate`).
-/

namespace TemplateCheck

/-! ## Messages -/

/-- The code of a report about an attribute that is not declared. -/
def BindingKind.unknownCode : BindingKind → DiagnosticCode
  | prop => .unknownProp
  | emit => .unknownEmit

/-- The code of a report about a binding whose type does not fit. -/
def BindingKind.mismatchCode : BindingKind → DiagnosticCode
  | prop => .propTypeMismatch
  | emit => .emitTypeMismatch

/-- The message of a code, and the text that it names. -/
inductive DiagnosticCode.Names : DiagnosticCode → (message shown : Text) → Prop
  | notImported (name : Text) :
      Names .notImported ("Component <" ++ name ++ "> is used in template but not imported.") name
  | unknownComponent (name : Text) :
      Names .unknownComponent ("Component <" ++ name ++ "> does not exist.") name
  | missingRequiredProp (name key : Text) :
      Names .missingRequiredProp
        ("Component <" ++ name ++ "> is missing required prop ':" ++ key ++ "'.") name
  | nonMultiwordName (name : Text) :
      Names .nonMultiwordName
        ("Component <" ++ name ++ "> must have a multiword name (e.g., \"UserCard\").") name
  | duplicatedName (name : Text) :
      Names .duplicatedName ("Duplicated component name detected: \"<" ++ name ++ ">\"") name
  | unknownAttribute (kind : BindingKind) (name key : Text) :
      Names kind.unknownCode
        ("Component <" ++ name ++ "> does not declare " ++ kind.name ++ " '" ++
          kind.label key ++ "'.")
        (kind.label key)
  | duplicatedBinding (kind : BindingKind) (name key : Text) :
      Names .duplicatedBinding
        ("Duplicated " ++ kind.name ++ " declaration '" ++ kind.label key ++
          "' on <" ++ name ++ ">.")
        (kind.label key)
  | typeMismatch (kind : BindingKind) (name key expected provided : Text) :
      Names kind.mismatchCode
        ("Type mismatch for " ++ bindingLabel kind key ++ " on <" ++ name ++ ">. Expected " ++
          expected ++ ", but got " ++ provided ++ ".")
        key

/-- Whether a code reports the name of a tag. -/
def DiagnosticCode.isAboutTag : DiagnosticCode → Bool
  | notImported | unknownComponent | missingRequiredProp => true
  | _ => false

/-- Whether a code reports the name of a class. -/
def DiagnosticCode.isAboutClass : DiagnosticCode → Bool
  | nonMultiwordName | duplicatedName => true
  | _ => false

/-! ## Places -/

/-- The diagnostic has the code and points at the text in the file that its message names. The name
of a tag stands after a `<`, and the name of a class is that of a declaration. -/
structure Diagnostic.PointsAt (d : Diagnostic) (file : SourceFile) (code : DiagnosticCode)
    (start : Nat) (shown : Text) : Prop where
  filePath_eq : d.filePath = some file.path
  code_eq : d.code = code.number
  start_eq : d.start = some (start : Int)
  length_eq : d.length = (shown.length : Int)
  slice_eq : Text.slice file.text start (start + shown.length) = shown
  names : code.Names d.message shown
  opening : code.isAboutTag = true → 0 < start ∧ file.text[start - 1]? = some '<'
  declared : code.isAboutClass = true →
    ∃ declaration ∈ file.classes, declaration.name = shown ∧ declaration.nameStart = start

/-- The diagnostic points at the text in the file that its message names. -/
def Diagnostic.IsPlaced (d : Diagnostic) (file : SourceFile) : Prop :=
  ∃ code start shown, d.PointsAt file code start shown

/-! ## Pieces of a template body -/

section Body

variable {file : SourceFile} {template : TaggedTemplate}

theorem Tag.Written.placed_name {tag : Tag} (h : tag.Written template.body)
    (hShaped : template.Shaped file.text) {code : DiagnosticCode} {message : Text}
    (hNames : code.Names message tag.name) (hClass : code.isAboutClass = false) :
    (Diagnostic.error file.path (tagNameOffset template.start tag.start) tag.name.length message
      code).IsPlaced file := by
  refine ⟨code, template.start + 1 + (tag.start + 1), tag.name, ?_⟩
  exact {
    filePath_eq := rfl
    code_eq := rfl
    start_eq := by
      simp only [Diagnostic.error, tagNameOffset, bodyOffset, absoluteOffset, Option.some.injEq]
      omega
    length_eq := rfl
    slice_eq := hShaped.slice_body h.name_eq
    names := hNames
    opening := fun _ => ⟨by omega, hShaped.getElem?_body h.opening⟩
    declared := fun hCode => nomatch hClass.symm.trans hCode }

theorem Attribute.Written.placed {attr : Attribute} (h : attr.Written template.body)
    (hShaped : template.Shaped file.text) {code : DiagnosticCode} {message : Text}
    (hNames : code.Names message (attr.kind.label attr.key)) (hTag : code.isAboutTag = false)
    (hClass : code.isAboutClass = false) :
    (Diagnostic.error file.path (bodyOffset template.start attr.start) attr.length message
      code).IsPlaced file := by
  obtain ⟨hSlice, hLength⟩ := h
  refine ⟨code, template.start + 1 + attr.start, attr.kind.label attr.key, ?_⟩
  exact {
    filePath_eq := rfl
    code_eq := rfl
    start_eq := by
      simp only [Diagnostic.error, bodyOffset, absoluteOffset, Option.some.injEq]
      omega
    length_eq := congrArg Int.ofNat hLength
    slice_eq := hShaped.slice_body (by rwa [← hLength])
    names := hNames
    opening := fun hCode => nomatch hTag.symm.trans hCode
    declared := fun hCode => nomatch hClass.symm.trans hCode }

theorem BindingKind.exists_label_eq (kind : BindingKind) (key : Text) :
    ∃ sigil, kind.label key = sigil ++ key := by
  cases kind with
  | prop => exact ⟨[':'], rfl⟩
  | emit => exact ⟨"@emits:", rfl⟩

theorem Attribute.Written.placed_key {attr : Attribute} (h : attr.Written template.body)
    (hShaped : template.Shaped file.text) {code : DiagnosticCode} {message : Text}
    (hNames : code.Names message attr.key) (hTag : code.isAboutTag = false)
    (hClass : code.isAboutClass = false) :
    (Diagnostic.error file.path
      (absoluteOffset template.start (1 + (attr.start : Int) + attr.length - attr.key.length))
      attr.key.length message code).IsPlaced file := by
  obtain ⟨hSlice, hLength⟩ := h
  obtain ⟨sigil, hLabel⟩ := attr.kind.exists_label_eq attr.key
  rw [hLabel] at hSlice hLength
  have hText := hShaped.slice_body (show Text.slice template.body attr.start
    (attr.start + (sigil ++ attr.key).length) = sigil ++ attr.key by rwa [← hLength])
  rw [List.length_append] at hLength
  refine ⟨code, template.start + 1 + attr.start + sigil.length, attr.key, ?_⟩
  exact {
    filePath_eq := rfl
    code_eq := rfl
    start_eq := by
      simp only [Diagnostic.error, absoluteOffset, Option.some.injEq]
      omega
    length_eq := rfl
    slice_eq := Text.slice_right hText
    names := hNames
    opening := fun hCode => nomatch hTag.symm.trans hCode
    declared := fun hCode => nomatch hClass.symm.trans hCode }

end Body

/-! ## Attributes of a tag -/

theorem Attribute.mem_of_mem_firstsFrom {attr : Attribute} {seen attributes : List Attribute}
    (h : attr ∈ Attribute.firstsFrom seen attributes) : attr ∈ attributes := by
  fun_induction Attribute.firstsFrom seen attributes with
  | case1 => exact h
  | case2 seen a rest hSeen ih => exact List.mem_cons_of_mem a (ih h)
  | case3 seen a rest hSeen ih =>
    rcases List.mem_cons.mp h with rfl | h
    · exact List.mem_cons_self
    · exact List.mem_cons_of_mem a (ih h)

theorem Attribute.mem_of_mem_repeatsFrom {attr : Attribute} {seen attributes : List Attribute}
    (h : attr ∈ Attribute.repeatsFrom seen attributes) : attr ∈ attributes := by
  fun_induction Attribute.repeatsFrom seen attributes with
  | case1 => exact h
  | case2 seen a rest hSeen ih =>
    rcases List.mem_cons.mp h with rfl | h
    · exact List.mem_cons_self
    · exact List.mem_cons_of_mem a (ih h)
  | case3 seen a rest hSeen ih => exact List.mem_cons_of_mem a (ih h)

theorem Tag.mem_of_mem_repeated {tag : Tag} {kind : BindingKind} {attr : Attribute}
    (h : attr ∈ tag.repeated kind) : attr ∈ tag.attributes :=
  Attribute.mem_of_mem_repeatsFrom (List.mem_filter.mp h).1

/-! ## Checks of one file -/

theorem eq_error_of_bindingError? {registry : Registry} {oracle : TypeOracle} {path : Text}
    {scan : TemplateScan} {binding : Binding} {d : Diagnostic}
    (h : bindingError? registry oracle path scan binding = .ok (some d)) :
    ∃ expected provided, d = .error path (binding.keyOffset scan.templateStart)
      (binding.key.getD []).length
      ("Type mismatch for " ++ bindingLabel (binding.kind.getD .emit) (binding.key.getD []) ++
        " on <" ++ binding.component.getD [] ++ ">. Expected " ++ expected ++ ", but got " ++
        provided ++ ".")
      (binding.kind.getD .emit).mismatchCode := by
  unfold bindingError? at h
  dsimp only at h
  split at h
  · rename_i declared expression hDeclared hExpression
    split at h
    · cases h
    · rename_i type hType
      cases hProvided : oracle.typeOf expression with
      | error reason =>
        rw [hProvided] at h
        cases h
      | ok provided =>
        rw [hProvided] at h
        change (if oracle.isAssignable provided type then _ else _) = _ at h
        split_ifs at h
        · cases h
        · refine ⟨declared.displayType, TypeText.normalize provided.text, ?_⟩
          obtain rfl := Option.some.inj (Except.ok.inj h)
          rfl
  · cases h

/-- The registry knows of a file what was read from it. -/
structure Registry.Reflects (registry : Registry) (file : SourceFile) : Prop where
  read : ∃ marker, file = SourceFile.read marker file.path file.text
  scan?_eq : registry.scan? file.path = some (FileScan.ofFile file)
  components : ∀ component ∈ registry.componentsIn file.path, component.filePath = file.path ∧
    ∃ declaration ∈ file.classes,
      component.name = declaration.name ∧ component.start = declaration.nameStart

namespace Registry.Reflects

variable {registry : Registry} {file : SourceFile}

theorem shaped (h : registry.Reflects file) :
    ∀ template ∈ file.templates, template.Shaped file.text := by
  obtain ⟨marker, hRead⟩ := h.read
  intro template hTemplate
  rw [hRead] at hTemplate
  exact Code.shaped_templates marker file.text template hTemplate

theorem exists_template (h : registry.Reflects file) {scan : TemplateScan}
    (hScan : scan ∈ registry.templatesIn file.path) :
    ∃ template ∈ file.templates, scan = TemplateScan.ofTemplate file template := by
  unfold Registry.templatesIn at hScan
  rw [h.scan?_eq] at hScan
  obtain ⟨template, hTemplate, rfl⟩ := List.mem_map.mp hScan
  exact ⟨template, hTemplate, rfl⟩

theorem exists_template_of_tag (h : registry.Reflects file) {scan : TemplateScan} {tag : Tag}
    (hTag : (scan, tag) ∈ componentTagsIn registry file.path) :
    ∃ template ∈ file.templates, scan = TemplateScan.ofTemplate file template ∧
      tag.Written template.body := by
  obtain ⟨scan', hScan, hPair⟩ := List.mem_flatMap.mp hTag
  obtain ⟨tag', hTag', hEq⟩ := List.mem_map.mp hPair
  obtain ⟨rfl, rfl⟩ := Prod.mk.inj hEq
  obtain ⟨template, hTemplate, rfl⟩ := h.exists_template hScan
  exact ⟨template, hTemplate, rfl,
    Tokenizer.tokenize_tags_written _ _ tag' (List.mem_filter.mp hTag').1⟩

theorem exists_template_of_used (h : registry.Reflects file) {used : UsedComponent}
    (hUsed : used ∈ registry.usedIn file.path) :
    ∃ template ∈ file.templates, ∃ tag : Tag, tag.Written template.body ∧ used.name = tag.name ∧
      used.start = tagNameOffset template.start tag.start := by
  unfold Registry.usedIn at hUsed
  rw [h.scan?_eq] at hUsed
  obtain ⟨scan, hScan, hUsed⟩ := List.mem_flatMap.mp (List.mem_mergeSort.mp hUsed)
  obtain ⟨template, hTemplate, rfl⟩ := List.mem_map.mp hScan
  obtain ⟨tag, hTag, rfl⟩ := List.mem_map.mp hUsed
  exact ⟨template, hTemplate, tag,
    Tokenizer.tokenize_tags_written _ _ tag (List.mem_filter.mp hTag).1, rfl, rfl⟩

theorem placed_checkUsages (h : registry.Reflects file) (program : Program) :
    ∀ d ∈ checkUsages registry program file.path, d.IsPlaced file := by
  intro d hd
  unfold checkUsages at hd
  split at hd
  · cases hd
  · rename_i found hFound
    obtain ⟨used, hUsed, hError⟩ := List.mem_filterMap.mp hd
    obtain ⟨template, hTemplate, tag, hTag, hName, hStart⟩ := h.exists_template_of_used hUsed
    have hShaped := h.shaped template hTemplate
    unfold usageError? at hError
    rw [hName, hStart] at hError
    split_ifs at hError
    · rw [← Option.some.inj hError]
      exact hTag.placed_name hShaped (.unknownComponent _) rfl
    · rw [← Option.some.inj hError]
      exact hTag.placed_name hShaped (.notImported _) rfl

theorem placed_nameError (h : registry.Reflects file) {component : Component}
    (hComponent : component ∈ registry.componentsIn file.path) {message : Text}
    {code : DiagnosticCode} (hNames : code.Names message component.name)
    (hTag : code.isAboutTag = false) : (component.nameError message code).IsPlaced file := by
  obtain ⟨hPath, declaration, hDeclaration, hName, hStart⟩ := h.components component hComponent
  have hText : ∃ rest, file.text.drop declaration.nameStart = declaration.name ++ rest := by
    obtain ⟨marker, hRead⟩ := h.read
    rw [hRead] at hDeclaration
    exact ClassDeclaration.exists_drop_nameStart (Code.masks_ofText file.text) hDeclaration
  obtain ⟨rest, hRest⟩ := hText
  refine ⟨code, declaration.nameStart, declaration.name, ?_⟩
  exact {
    filePath_eq := congrArg some hPath
    code_eq := rfl
    start_eq := congrArg some hStart
    length_eq := by rw [← hName]; rfl
    slice_eq := Text.slice_of_drop hRest
    names := by rwa [← hName]
    opening := fun hCode => nomatch hTag.symm.trans hCode
    declared := fun _ => ⟨declaration, hDeclaration, rfl, rfl⟩ }

theorem placed_checkMultiwordNames (h : registry.Reflects file) :
    ∀ d ∈ checkMultiwordNames registry file.path, d.IsPlaced file := by
  intro d hd
  obtain ⟨component, hComponent, rfl⟩ := List.mem_map.mp hd
  exact h.placed_nameError (List.mem_filter.mp hComponent).1 (.nonMultiwordName _) rfl

theorem placed_checkDuplicatedNames (h : registry.Reflects file) :
    ∀ d ∈ checkDuplicatedNames registry file.path, d.IsPlaced file := by
  intro d hd
  obtain ⟨component, hComponent, rfl⟩ := List.mem_map.mp hd
  exact h.placed_nameError (List.mem_filter.mp hComponent).1 (.duplicatedName _) rfl

theorem placed_checkRequiredProps (h : registry.Reflects file) :
    ∀ d ∈ checkRequiredProps registry file.path, d.IsPlaced file := by
  intro d hd
  obtain ⟨⟨scan, tag⟩, hTag, hd⟩ := List.mem_flatMap.mp hd
  obtain ⟨template, hTemplate, rfl, hWritten⟩ := h.exists_template_of_tag hTag
  dsimp only at hd
  split at hd
  · obtain ⟨prop, -, rfl⟩ := List.mem_map.mp hd
    exact hWritten.placed_name (h.shaped template hTemplate) (.missingRequiredProp _ _) rfl
  · cases hd

theorem placed_checkUnknownAttributes (h : registry.Reflects file) :
    ∀ d ∈ checkUnknownAttributes registry file.path, d.IsPlaced file := by
  intro d hd
  obtain ⟨⟨scan, tag⟩, hTag, hd⟩ := List.mem_flatMap.mp hd
  obtain ⟨template, hTemplate, rfl, hWritten⟩ := h.exists_template_of_tag hTag
  dsimp only at hd
  split at hd
  · obtain ⟨attr, hAttr, hError⟩ := List.mem_filterMap.mp hd
    have hAttrWritten := hWritten.attributes attr (Attribute.mem_of_mem_firstsFrom hAttr)
    unfold unknownAttribute? at hError
    split_ifs at hError
    rw [← Option.some.inj hError]
    have hNames := DiagnosticCode.Names.unknownAttribute attr.kind tag.name attr.key
    have hTag : attr.kind.unknownCode.isAboutTag = false := by cases attr.kind <;> rfl
    have hClass : attr.kind.unknownCode.isAboutClass = false := by cases attr.kind <;> rfl
    exact hAttrWritten.placed (h.shaped template hTemplate) hNames hTag hClass
  · cases hd

theorem placed_checkRepeatedAttributes (h : registry.Reflects file) :
    ∀ d ∈ checkRepeatedAttributes registry file.path, d.IsPlaced file := by
  intro d hd
  obtain ⟨⟨scan, tag⟩, hTag, hd⟩ := List.mem_flatMap.mp hd
  obtain ⟨template, hTemplate, rfl, hWritten⟩ := h.exists_template_of_tag hTag
  obtain ⟨attr, hAttr, rfl⟩ := List.mem_map.mp hd
  have hMem : attr ∈ tag.attributes := by
    rcases List.mem_append.mp (Attribute.mem_of_mem_firstsFrom hAttr) with hAttr | hAttr
    · exact Tag.mem_of_mem_repeated hAttr
    · exact Tag.mem_of_mem_repeated hAttr
  exact (hWritten.attributes attr hMem).placed (h.shaped template hTemplate)
    (.duplicatedBinding _ _ _) rfl rfl

theorem exists_template_of_binding (h : registry.Reflects file) {scan : TemplateScan}
    {binding : Binding} (hBinding : (scan, binding) ∈ actionableBindings registry file.path) :
    ∃ template ∈ file.templates, scan = TemplateScan.ofTemplate file template ∧
      ∃ attr : Attribute, attr.Written template.body ∧ binding.kind = some attr.kind ∧
        binding.key = some attr.key ∧
        binding.keyStart = some (1 + (attr.start : Int) + attr.length - attr.key.length) := by
  obtain ⟨scan', hScan, hPair⟩ := List.mem_flatMap.mp hBinding
  obtain ⟨binding', hBinding', hEq⟩ := List.mem_map.mp hPair
  obtain ⟨rfl, rfl⟩ := Prod.mk.inj hEq
  obtain ⟨template, hTemplate, rfl⟩ := h.exists_template hScan
  obtain ⟨bound, hBound, hOf⟩ := List.mem_filterMap.mp (List.mem_filter.mp hBinding').1
  refine ⟨template, hTemplate, rfl, bound.attr,
    Tokenizer.tokenize_bound_written _ _ bound hBound, ?_⟩
  obtain ⟨span, -, hOf⟩ := Option.bind_eq_some_iff.mp hOf
  obtain ⟨tag, -, hOf⟩ := Option.bind_eq_some_iff.mp hOf
  obtain rfl := Option.some.inj hOf
  exact ⟨rfl, rfl, rfl⟩

theorem placed_checkBindingTypes (h : registry.Reflects file) (oracle : TypeOracle) :
    ∀ d ∈ checkBindingTypes registry oracle file.path, d.IsPlaced file := by
  intro d hd
  obtain ⟨⟨scan, binding⟩, hBinding, hd⟩ := List.mem_filterMap.mp hd
  obtain ⟨template, hTemplate, rfl, attr, hAttr, hKind, hKey, hKeyStart⟩ :=
    h.exists_template_of_binding hBinding
  dsimp only at hd
  split at hd
  · rename_i found hFound
    rw [hd] at hFound
    obtain ⟨expected, provided, rfl⟩ := eq_error_of_bindingError? hFound
    have hNames := DiagnosticCode.Names.typeMismatch attr.kind (binding.component.getD []) attr.key
      expected provided
    have hTag : attr.kind.mismatchCode.isAboutTag = false := by cases attr.kind <;> rfl
    have hClass : attr.kind.mismatchCode.isAboutClass = false := by cases attr.kind <;> rfl
    unfold Binding.keyOffset
    rw [hKind, hKey, hKeyStart]
    exact hAttr.placed_key (h.shaped template hTemplate) hNames hTag hClass
  · cases hd

/-- Everything that is found in a file is placed in it. -/
theorem placed_findings (context : CheckContext) (h : context.registry.Reflects file) :
    ∀ d ∈ findings context file.path, d.IsPlaced file := by
  intro d hd
  unfold findings at hd
  simp only [List.mem_append] at hd
  rcases hd with hd | (hd | hd) | ((hd | hd) | hd) | hd
  · exact h.placed_checkUsages context.program d hd
  · exact h.placed_checkMultiwordNames d hd
  · exact h.placed_checkDuplicatedNames d hd
  · exact h.placed_checkRequiredProps d hd
  · exact h.placed_checkUnknownAttributes d hd
  · exact h.placed_checkRepeatedAttributes d hd
  · exact h.placed_checkBindingTypes context.oracle d hd

end Registry.Reflects

/-! ## Checks of a whole program -/

/-- A filled registry knows of every file what was read from it. -/
theorem Registry.reflects_populate {program : Program} (h : program.WellFormed)
    (registry : Registry) {file : SourceFile} (hFile : file ∈ program.sourceFiles) :
    (registry.populate program).Reflects file where
  read := ⟨program.config.templateTag, h.read_path hFile⟩
  scan?_eq := scan?_eq (scans_populate h registry) h hFile
  components := by
    intro component hComponent
    rw [componentsIn_eq (declarations_populate h registry), getD_get?_publicationsOf h hFile]
      at hComponent
    obtain ⟨plain, hPlain, rfl⟩ := List.mem_map.mp hComponent
    obtain ⟨declaration, hDeclaration, rfl⟩ := List.mem_map.mp hPlain
    exact ⟨rfl, declaration, (List.mem_filter.mp hDeclaration).1, rfl, rfl⟩

theorem CheckContext.filePaths_populate {program : Program} (h : program.WellFormed)
    (registry : Registry) (oracle : TypeOracle) :
    CheckContext.filePaths ⟨registry.populate program, program, oracle, none⟩ =
      program.sourceFiles.map (·.path) := by
  unfold CheckContext.filePaths
  dsimp only
  rw [Registry.files_eq (Registry.scans_populate h registry) h, List.filter_eq_nil_iff.mpr,
    List.append_nil]
  intro path hPath
  simpa using hPath

/-! ## Reports of the host -/

theorem of_mem_findUnusedImports {program : Program} {path : Text} {d : Diagnostic}
    (h : d ∈ findUnusedImports program path) : d.filePath = some path ∧
      (d.code = DiagnosticCode.unusedDeclaration.number ∨
        d.code = DiagnosticCode.unusedImportDeclaration.number) := by
  unfold findUnusedImports at h
  split at h
  · cases h
  · obtain ⟨⟨range, bindings⟩, -, h⟩ := List.mem_flatMap.mp h
    unfold unusedInStatement at h
    dsimp only at h
    split_ifs at h
    · rw [List.mem_singleton.mp h]
      exact ⟨rfl, .inr rfl⟩
    · obtain ⟨binding, -, rfl⟩ := List.mem_map.mp h
      exact ⟨rfl, .inl rfl⟩

theorem exists_of_mem_hostDiagnostics {program : Program} {d : Diagnostic}
    (h : d ∈ hostDiagnostics program) :
    ∃ file ∈ program.sourceFiles, d ∈ findUnusedImports program file.path := by
  unfold hostDiagnostics at h
  split_ifs at h
  · exact List.mem_flatMap.mp h
  · cases h

/-! ## The places of all diagnostics -/

theorem Diagnostic.PointsAt.locate {d : Diagnostic} {file : SourceFile} {code : DiagnosticCode}
    {start : Nat} {shown : Text} (h : d.PointsAt file code start shown) (program : Program) :
    (d.locate program).PointsAt file code start shown := by
  unfold Diagnostic.locate
  split
  · exact ⟨h.filePath_eq, h.code_eq, h.start_eq, h.length_eq, h.slice_eq, h.names, h.opening,
      h.declared⟩
  · exact h

/-- Every diagnostic of a checked program was reported by the host or is placed in a file. -/
theorem host_or_placed {program : Program} (h : program.WellFormed) (registry : Registry)
    {d : Diagnostic} (hd : d ∈ (checkProgram program (registry.populate program)).diagnostics) :
    ∃ file ∈ program.sourceFiles, ∃ plain : Diagnostic, d = plain.locate program ∧
      (plain ∈ findUnusedImports program file.path ∨ plain.IsPlaced file) := by
  unfold checkProgram at hd
  rw [diagnostics_runPipeline] at hd
  obtain ⟨plain, hPlain, rfl⟩ := List.mem_map.mp hd
  rcases mem_or_mem_findings_of_mem_foldl hPlain with hHost | ⟨path, hPath, hFound⟩
  · obtain ⟨file, hFile, hMem⟩ := exists_of_mem_hostDiagnostics hHost
    exact ⟨file, hFile, plain, rfl, .inl hMem⟩
  · rw [CheckContext.filePaths_populate h] at hPath
    obtain ⟨file, hFile, rfl⟩ := List.mem_map.mp hPath
    exact ⟨file, hFile, plain, rfl,
      .inr ((Registry.reflects_populate h registry hFile).placed_findings _ plain hFound)⟩

/-- Every diagnostic of the checker about any program points at the text in one of its files that
the message names: the component name after a `<`, the name of a declared class, the attribute as it
is written, or the bare key of a binding. -/
theorem diagnostics_pointAt (config : Config) (files : List (Text × Text)) (registry : Registry) :
    let program := Program.ofFiles config files
    ∀ d ∈ (checkProgram program (registry.populate program)).diagnostics,
      9990 ≤ d.code → d.code ≤ 9999 →
      ∃ file ∈ program.sourceFiles, ∃ code start shown, d.PointsAt file code start shown := by
  intro program d hd hLow hHigh
  have hProgram : program.WellFormed := Program.wellFormed_ofFiles config files
  obtain ⟨file, hFile, plain, rfl, hHost | ⟨code, start, shown, hPoints⟩⟩ :=
    host_or_placed hProgram registry hd
  · have hCode : (plain.locate program).code = plain.code := by
      unfold Diagnostic.locate
      split <;> rfl
    obtain ⟨-, hUnused | hUnused⟩ := of_mem_findUnusedImports hHost
    · rw [hCode, hUnused] at hLow
      exact absurd hLow (by decide)
    · rw [hCode, hUnused] at hLow
      exact absurd hLow (by decide)
  · exact ⟨file, hFile, code, start, shown, hPoints.locate program⟩

theorem diagnostics_pointAt_unknownComponent :
    ∃ file ∈ (Program.ofFiles {} [("a.ts", "html`<A/>`")]).sourceFiles, ∃ code start shown,
      Diagnostic.PointsAt
        { filePath := some "a.ts", start := some 6, length := 1,
          message := "Component <A> does not exist.", code := 9991,
          line := some 0, character := some 6 } file code start shown :=
  diagnostics_pointAt {} [("a.ts", "html`<A/>`")] Registry.empty _ (by decide +kernel)
    (by decide) (by decide)

end TemplateCheck
