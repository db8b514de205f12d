import Mathlib.Data.List.Basic
import TemplateCheck.Proofs.Check.Places
import TemplateCheck.Proofs.Distinct

/-!
# What the findings need of the registry

Only three checks look at the contracts of components: required props, unknown attributes and types
of bindings. All other findings need no more than the outlines of the components, and these do not
depend on other files.

1. Registries with the same outlines give the same findings but for the codes of those three checks
   (`Registry.SameOutline.filter_turn`).
2. If the components used in a file have the same contracts too, all findings in the file are the
   same (`Registry.SameOutline.turn_eq`).
-/

namespace TemplateCheck

/-- A component without its contract. -/
def Component.outline (component : Component) : Component :=
  { component with props := [], emits := [] }

/-- The contract of a component: its props and its emits. -/
def Component.contract (component : Component) : List PropDeclaration × List PropDeclaration :=
  (component.props, component.emits)

/-- The codes of reports that hold a tag against the contract of its component. -/
def contractCodes : List DiagnosticCode :=
  [.missingRequiredProp, .unknownProp, .unknownEmit, .propTypeMismatch, .emitTypeMismatch]

/-- Whether the diagnostic holds a tag against the contract of its component. -/
def Diagnostic.isAboutContract (d : Diagnostic) : Bool := d.code ∈ contractCodes.map (·.number)

/-! ## Reports about contracts -/

section Codes

variable {registry : Registry} {path : Text} {d : Diagnostic}

theorem isAboutContract_of_mem_checkRequiredProps (h : d ∈ checkRequiredProps registry path) :
    d.isAboutContract = true := by
  obtain ⟨⟨scan, tag⟩, -, h⟩ := List.mem_flatMap.mp h
  dsimp only at h
  split at h
  · obtain ⟨prop, -, rfl⟩ := List.mem_map.mp h
    rfl
  · cases h

theorem isAboutContract_of_mem_checkUnknownAttributes
    (h : d ∈ checkUnknownAttributes registry path) :
    d.isAboutContract = true := by
  obtain ⟨⟨scan, tag⟩, -, h⟩ := List.mem_flatMap.mp h
  dsimp only at h
  split at h
  · obtain ⟨attr, -, hError⟩ := List.mem_filterMap.mp h
    unfold unknownAttribute? at hError
    split_ifs at hError
    rw [← Option.some.inj hError]
    cases attr.kind <;> rfl
  · cases h

theorem isAboutContract_of_mem_checkBindingTypes {oracle : TypeOracle}
    (h : d ∈ checkBindingTypes registry oracle path) : d.isAboutContract = true := by
  obtain ⟨⟨scan, binding⟩, -, h⟩ := List.mem_filterMap.mp h
  dsimp only at h
  split at h
  · rename_i found hFound
    rw [h] at hFound
    obtain ⟨expected, provided, rfl⟩ := eq_error_of_bindingError? hFound
    cases binding.kind.getD .emit <;> rfl
  · cases h

end Codes

/-! ## Registries with the same outlines -/

namespace Registry

/-- The registries hold the same scans, and the same components but for their contracts. -/
structure SameOutline (registry registry' : Registry) : Prop where
  scans : registry.scans = registry'.scans
  outlines : ∀ path, (registry.componentsIn path).map Component.outline =
    (registry'.componentsIn path).map Component.outline
  known : ∀ name, (registry.find? name).isNone = (registry'.find? name).isNone

namespace SameOutline

variable {registry registry' : Registry}

theorem scan?_eq (h : registry.SameOutline registry') (path : Text) :
    registry.scan? path = registry'.scan? path := by
  unfold scan?
  rw [h.scans]

theorem templatesIn_eq (h : registry.SameOutline registry') (path : Text) :
    registry.templatesIn path = registry'.templatesIn path := by
  unfold templatesIn
  rw [h.scan?_eq]

theorem usedIn_eq (h : registry.SameOutline registry') (path : Text) :
    registry.usedIn path = registry'.usedIn path := by
  unfold usedIn
  rw [h.scan?_eq]

theorem usedNames_eq (h : registry.SameOutline registry') (path : Text) :
    registry.usedNames path = registry'.usedNames path := by
  unfold usedNames
  rw [h.usedIn_eq]

theorem componentTagsIn_eq (h : registry.SameOutline registry') (path : Text) :
    componentTagsIn registry path = componentTagsIn registry' path := by
  unfold componentTagsIn
  rw [h.templatesIn_eq]

theorem actionableBindings_eq (h : registry.SameOutline registry') (path : Text) :
    actionableBindings registry path = actionableBindings registry' path := by
  unfold actionableBindings
  rw [h.templatesIn_eq]

theorem suppressUnusedImports_eq (h : registry.SameOutline registry') (program : Program)
    (path : Text) (diagnostics : List Diagnostic) :
    suppressUnusedImports registry program path diagnostics =
      suppressUnusedImports registry' program path diagnostics := by
  unfold suppressUnusedImports
  rw [h.usedNames_eq]

theorem checkUsages_eq (h : registry.SameOutline registry') (program : Program) (path : Text) :
    checkUsages registry program path = checkUsages registry' program path := by
  unfold checkUsages
  rw [h.usedIn_eq]
  have hError : usageError? registry = usageError? registry' := by
    funext file path used
    unfold usageError?
    rw [h.known]
  rw [hError]

theorem map_nameError_eq (h : registry.SameOutline registry') (path : Text)
    {test : Component → Bool} (hTest : ∀ component, test component.outline = test component)
    (message : Text → Text) (code : DiagnosticCode) :
    ((registry.componentsIn path).filter test).map
        (fun component => component.nameError (message component.name) code) =
      ((registry'.componentsIn path).filter test).map
        (fun component => component.nameError (message component.name) code) := by
  have hOutline : ∀ components : List Component,
      (components.filter test).map
          (fun component => component.nameError (message component.name) code) =
        ((components.map Component.outline).filter test).map
          (fun component => component.nameError (message component.name) code) := by
    intro components
    have hFilter : test ∘ Component.outline = test := funext hTest
    rw [List.filter_map, hFilter, List.map_map]
    rfl
  rw [hOutline, h.outlines, ← hOutline]

theorem checkMultiwordNames_eq (h : registry.SameOutline registry') (path : Text) :
    checkMultiwordNames registry path = checkMultiwordNames registry' path :=
  h.map_nameError_eq path (fun _ => rfl)
    (fun name => "Component <" ++ name ++ "> must have a multiword name (e.g., \"UserCard\").") _

theorem checkDuplicatedNames_eq (h : registry.SameOutline registry') (path : Text) :
    checkDuplicatedNames registry path = checkDuplicatedNames registry' path :=
  h.map_nameError_eq path (fun _ => rfl)
    (fun name => "Duplicated component name detected: \"<" ++ name ++ ">\"") _

theorem checkRepeatedAttributes_eq (h : registry.SameOutline registry') (path : Text) :
    checkRepeatedAttributes registry path = checkRepeatedAttributes registry' path := by
  unfold checkRepeatedAttributes
  rw [h.componentTagsIn_eq]

/-- Outside the reports about contracts, a turn needs no contract. -/
theorem filter_turn (h : registry.SameOutline registry') (program : Program) (oracle : TypeOracle)
    (filePath : Option Text) (diagnostics : List Diagnostic) (path : Text) :
    (turn ⟨registry, program, oracle, filePath⟩ diagnostics path).filter (!·.isAboutContract) =
      (turn ⟨registry', program, oracle, filePath⟩ diagnostics path).filter
        (!·.isAboutContract) := by
  have hDrop : ∀ {ds : List Diagnostic}, (∀ d ∈ ds, d.isAboutContract = true) →
      ds.filter (!·.isAboutContract) = [] := by
    intro ds hds
    refine List.filter_eq_nil_iff.mpr fun d hd => ?_
    rw [hds d hd]
    decide
  unfold turn findings
  simp only [List.filter_append]
  rw [h.suppressUnusedImports_eq, h.checkUsages_eq, h.checkMultiwordNames_eq,
    h.checkDuplicatedNames_eq, h.checkRepeatedAttributes_eq,
    hDrop fun d => isAboutContract_of_mem_checkRequiredProps,
    hDrop fun d => isAboutContract_of_mem_checkRequiredProps,
    hDrop fun d => isAboutContract_of_mem_checkUnknownAttributes,
    hDrop fun d => isAboutContract_of_mem_checkUnknownAttributes,
    hDrop fun d => isAboutContract_of_mem_checkBindingTypes,
    hDrop fun d => isAboutContract_of_mem_checkBindingTypes]

/-! ## Components with the same contracts -/

/-- Both registries know no component of a name, or both know one, with the same contract. -/
theorem find?_cases {name : Text} (h : (registry.find? name).map Component.contract =
      (registry'.find? name).map Component.contract) :
    registry.find? name = none ∧ registry'.find? name = none ∨
      ∃ component component', registry.find? name = some component ∧
        registry'.find? name = some component' ∧ component.props = component'.props ∧
        component.emits = component'.emits := by
  cases hFind : registry.find? name with
  | none =>
    rw [hFind] at h
    exact .inl ⟨rfl, Option.map_eq_none_iff.mp h.symm⟩
  | some component =>
    rw [hFind] at h
    obtain ⟨component', hFind', hContract⟩ := Option.map_eq_some_iff.mp h.symm
    obtain ⟨hProps, hEmits⟩ := Prod.mk.inj hContract
    exact .inr ⟨component, component', rfl, hFind', hProps.symm, hEmits.symm⟩

/-- The contract of a component decides what it declares. -/
theorem find?_eq_of_contract {component component' : Component}
    (hProps : component.props = component'.props) (hEmits : component.emits = component'.emits)
    (kind : BindingKind) (key : Text) : component.find? kind key = component'.find? kind key := by
  unfold Component.find?
  rw [hProps, hEmits]

theorem checkRequiredProps_eq (h : registry.SameOutline registry') {path : Text}
    (hContracts : ∀ pair ∈ componentTagsIn registry path,
      (registry.find? pair.2.name).map Component.contract =
        (registry'.find? pair.2.name).map Component.contract) :
    checkRequiredProps registry path = checkRequiredProps registry' path := by
  unfold checkRequiredProps
  rw [← h.componentTagsIn_eq]
  refine List.flatMap_congr ?_
  rintro ⟨scan, tag⟩ hPair
  dsimp only
  obtain ⟨hNone, hNone'⟩ | ⟨component, component', hFind, hFind', hProps, -⟩ :=
    find?_cases (hContracts (scan, tag) hPair)
  · rw [hNone, hNone']
  · rw [hFind, hFind']
    dsimp only
    unfold missingProps Component.requiredProps
    rw [hProps]

theorem checkUnknownAttributes_eq (h : registry.SameOutline registry') {path : Text}
    (hContracts : ∀ pair ∈ componentTagsIn registry path,
      (registry.find? pair.2.name).map Component.contract =
        (registry'.find? pair.2.name).map Component.contract) :
    checkUnknownAttributes registry path = checkUnknownAttributes registry' path := by
  unfold checkUnknownAttributes
  rw [← h.componentTagsIn_eq]
  refine List.flatMap_congr ?_
  rintro ⟨scan, tag⟩ hPair
  dsimp only
  obtain ⟨hNone, hNone'⟩ | ⟨component, component', hFind, hFind', hProps, hEmits⟩ :=
    find?_cases (hContracts (scan, tag) hPair)
  · rw [hNone, hNone']
  · rw [hFind, hFind']
    refine List.filterMap_congr fun attr _ => ?_
    unfold unknownAttribute?
    rw [find?_eq_of_contract hProps hEmits]

theorem checkBindingTypes_eq (h : registry.SameOutline registry') {path : Text}
    (oracle : TypeOracle)
    (hContracts : ∀ pair ∈ actionableBindings registry path,
      (registry.find? (pair.2.component.getD [])).map Component.contract =
        (registry'.find? (pair.2.component.getD [])).map Component.contract) :
    checkBindingTypes registry oracle path = checkBindingTypes registry' oracle path := by
  unfold checkBindingTypes
  rw [← h.actionableBindings_eq]
  refine List.filterMap_congr fun pair hPair => ?_
  have hError : bindingError? registry oracle path pair.1 pair.2 =
      bindingError? registry' oracle path pair.1 pair.2 := by
    unfold bindingError?
    dsimp only
    obtain ⟨hNone, hNone'⟩ | ⟨component, component', hFind, hFind', hProps, hEmits⟩ :=
      find?_cases (hContracts pair hPair)
    · rw [hNone, hNone']
    · rw [hFind, hFind']
      dsimp only [Option.bind_some]
      rw [find?_eq_of_contract hProps hEmits]
  dsimp only
  rw [hError]

end SameOutline

/-! ## Names used in a file -/

variable {registry : Registry} {file : SourceFile}

theorem mem_usedNames (hScan : registry.scan? file.path = some (FileScan.ofFile file))
    {scan : TemplateScan} (hMem : scan ∈ registry.templatesIn file.path) {tag : Tag}
    (hTag : tag ∈ scan.componentTags) : tag.name ∈ registry.usedNames file.path := by
  obtain ⟨used, hUsed, hName⟩ : ∃ used ∈ scan.usedIn file, used.name = tag.name :=
    ⟨_, List.mem_map.mpr ⟨tag, hTag, rfl⟩, rfl⟩
  unfold usedNames usedIn
  unfold templatesIn at hMem
  rw [hScan] at hMem ⊢
  rw [← hName]
  refine mem_distinct.mpr (List.mem_map_of_mem ?_)
  exact List.mem_mergeSort.mpr (List.mem_flatMap.mpr ⟨scan, hMem, hUsed⟩)

theorem name_mem_usedNames (hScan : registry.scan? file.path = some (FileScan.ofFile file))
    {pair : TemplateScan × Tag} (hPair : pair ∈ componentTagsIn registry file.path) :
    pair.2.name ∈ registry.usedNames file.path := by
  obtain ⟨scan, hMem, hTags⟩ := List.mem_flatMap.mp hPair
  obtain ⟨tag, hTag, rfl⟩ := List.mem_map.mp hTags
  exact mem_usedNames hScan hMem hTag

theorem component_mem_usedNames (hScan : registry.scan? file.path = some (FileScan.ofFile file))
    {pair : TemplateScan × Binding} (hPair : pair ∈ actionableBindings registry file.path) :
    pair.2.component.getD [] ∈ registry.usedNames file.path := by
  obtain ⟨scan, hMem, hBindings⟩ := List.mem_flatMap.mp hPair
  obtain ⟨binding, hFiltered, rfl⟩ := List.mem_map.mp hBindings
  obtain ⟨hBinding, hActionable⟩ := List.mem_filter.mp hFiltered
  have hTemplate := hMem
  unfold templatesIn at hTemplate
  rw [hScan] at hTemplate
  obtain ⟨template, -, rfl⟩ := List.mem_map.mp hTemplate
  obtain ⟨bound, -, hOf⟩ := List.mem_filterMap.mp hBinding
  obtain ⟨span, -, hOf⟩ := Option.bind_eq_some_iff.mp hOf
  obtain ⟨tag, hTag, hOf⟩ := Option.bind_eq_some_iff.mp hOf
  obtain rfl := Option.some.inj hOf
  by_cases hComponent : tag.isComponent = true
  · dsimp only
    rw [if_pos hComponent]
    exact mem_usedNames hScan hMem
      (List.mem_filter.mpr ⟨List.mem_of_getElem? hTag, hComponent⟩)
  · -- A binding on another tag says nothing about a component.
    unfold Binding.isActionable at hActionable
    dsimp only at hActionable
    rw [if_neg hComponent] at hActionable
    cases hActionable

/-- Where the components used in a file have the same contracts, the turns of the file agree. -/
theorem SameOutline.turn_eq {registry' : Registry} (h : registry.SameOutline registry')
    (hScan : registry.scan? file.path = some (FileScan.ofFile file))
    (hContracts : ∀ name ∈ registry.usedNames file.path,
      (registry.find? name).map Component.contract = (registry'.find? name).map Component.contract)
    (program : Program) (oracle : TypeOracle) (filePath : Option Text)
    (diagnostics : List Diagnostic) :
    turn ⟨registry, program, oracle, filePath⟩ diagnostics file.path =
      turn ⟨registry', program, oracle, filePath⟩ diagnostics file.path := by
  unfold turn findings
  dsimp only
  rw [h.suppressUnusedImports_eq, h.checkUsages_eq, h.checkMultiwordNames_eq,
    h.checkDuplicatedNames_eq, h.checkRepeatedAttributes_eq,
    h.checkRequiredProps_eq fun pair hPair => hContracts _ (name_mem_usedNames hScan hPair),
    h.checkUnknownAttributes_eq fun pair hPair => hContracts _ (name_mem_usedNames hScan hPair),
    h.checkBindingTypes_eq oracle fun pair hPair =>
      hContracts _ (component_mem_usedNames hScan hPair)]

end Registry

end TemplateCheck
