import TemplateCheck.Proofs.Check.Locality
import TemplateCheck.Proofs.TypeText.Members

/-!
# Contracts that are not resolved

The contract of a component may be a name that nothing declares. Such a contract has no members
(`contract_eq_nil`), and the checks of props take it for one that declares none: no prop is missing
on a tag of the component, and each prop bound on it is reported as not declared
(`diagnostics_unresolved`).

Reports about props come from two checks (`filter_isAboutProps_findings`), which go over the
component tags of a file one by one. Each report says in its message on which component it is, and a
tag of another component gives no report with that name (`filter_concerns`).
-/

namespace TemplateCheck

open TypeText

/-! ## Reports about props -/

/-- The codes of reports about the props of a tag: a required one is missing, or one is
not declared. -/
def propCodes : List DiagnosticCode := [.missingRequiredProp, .unknownProp]

/-- Whether the diagnostic is about the props of a tag. -/
def Diagnostic.isAboutProps (d : Diagnostic) : Bool := d.code ∈ propCodes.map (·.number)

/-- Whether the diagnostic says that it is about a tag of the component with a name. -/
def Diagnostic.concerns (name : Text) (d : Diagnostic) : Bool :=
  Text.startsWith ("Component <" ++ name ++ ">") d.message

/-- The reports that the props of a tag, each at its first place, are not declared. -/
def undeclaredProps (scan : TemplateScan) (tag : Tag) : List Diagnostic :=
  ((Attribute.firsts tag.attributes).filter (·.kind = .prop)).map fun attr =>
    scan.attributeError attr
      ("Component <" ++ tag.name ++ "> does not declare " ++ BindingKind.prop.name ++ " '" ++
        BindingKind.prop.label attr.key ++ "'.")
      .unknownProp

theorem Diagnostic.concerns_locate (name : Text) (program : Program) (d : Diagnostic) :
    (d.locate program).concerns name = d.concerns name :=
  Diagnostic.apply_locate (f := Diagnostic.concerns name) (fun _ _ _ => rfl) program d

section Findings

variable (context : CheckContext) (path : Text)

theorem filter_isAboutProps_checkUsages (program : Program) (registry : Registry) :
    (checkUsages registry program path).filter (·.isAboutProps) = [] := by
  refine List.filter_eq_nil_iff.mpr fun d hd => ?_
  unfold checkUsages at hd
  split at hd
  · cases hd
  · obtain ⟨used, -, hError⟩ := List.mem_filterMap.mp hd
    unfold usageError? at hError
    split_ifs at hError
    · obtain rfl := Option.some.inj hError
      exact Bool.false_ne_true
    · obtain rfl := Option.some.inj hError
      exact Bool.false_ne_true

theorem filter_isAboutProps_checkBindingTypes (registry : Registry) (oracle : TypeOracle) :
    (checkBindingTypes registry oracle path).filter (·.isAboutProps) = [] := by
  refine List.filter_eq_nil_iff.mpr fun d hd => ?_
  obtain ⟨⟨scan, binding⟩, -, hError⟩ := List.mem_filterMap.mp hd
  dsimp only at hError
  split at hError
  · rename_i found hFound
    rw [hError] at hFound
    obtain ⟨expected, provided, rfl⟩ := eq_error_of_bindingError? hFound
    cases binding.kind.getD .emit <;> exact Bool.false_ne_true
  · cases hError

/-- Reports about props come from the check of required props and from that of unknown
attributes. -/
theorem filter_isAboutProps_findings :
    (StageKind.regular.flatMap (StageKind.finds context path)).filter (·.isAboutProps) =
      checkRequiredProps context.registry path ++
        (checkUnknownAttributes context.registry path).filter (·.isAboutProps) := by
  have hNames : (checkMultiwordNames context.registry path ++
      checkDuplicatedNames context.registry path).filter (·.isAboutProps) = [] := by
    refine List.filter_eq_nil_iff.mpr fun d hd => ?_
    rcases List.mem_append.mp hd with hd | hd
    · obtain ⟨component, -, rfl⟩ := List.mem_map.mp hd
      exact Bool.false_ne_true
    · obtain ⟨component, -, rfl⟩ := List.mem_map.mp hd
      exact Bool.false_ne_true
  have hRequired : (checkRequiredProps context.registry path).filter (·.isAboutProps) =
      checkRequiredProps context.registry path := by
    refine List.filter_eq_self.mpr fun d hd => ?_
    obtain ⟨⟨scan, tag⟩, -, hd⟩ := List.mem_flatMap.mp hd
    dsimp only at hd
    split at hd
    · obtain ⟨prop, -, rfl⟩ := List.mem_map.mp hd
      rfl
    · cases hd
  have hRepeated :
      (checkRepeatedAttributes context.registry path).filter (·.isAboutProps) = [] := by
    refine List.filter_eq_nil_iff.mpr fun d hd => ?_
    obtain ⟨⟨scan, tag⟩, -, hd⟩ := List.mem_flatMap.mp hd
    obtain ⟨attr, -, rfl⟩ := List.mem_map.mp hd
    exact Bool.false_ne_true
  have hFinds : StageKind.regular.flatMap (StageKind.finds context path) =
      checkUsages context.registry context.program path ++
        ((checkMultiwordNames context.registry path ++
          checkDuplicatedNames context.registry path) ++
          ((checkRequiredProps context.registry path ++
            checkUnknownAttributes context.registry path ++
            checkRepeatedAttributes context.registry path) ++
            (checkBindingTypes context.registry context.oracle path ++ []))) := rfl
  rw [hFinds, List.filter_append, filter_isAboutProps_checkUsages, List.filter_append, hNames,
    List.filter_append, List.filter_append, List.filter_append, hRequired, hRepeated,
    List.append_nil, List.append_nil, filter_isAboutProps_checkBindingTypes]
  simp only [List.nil_append, List.append_nil]

end Findings

/-- The reports about props of a checked program, file by file. -/
theorem filter_isAboutProps_checkProgram {program : Program} (h : program.WellFormed)
    (registry : Registry) :
    (checkProgram program (registry.populate program)).diagnostics.filter (·.isAboutProps) =
      (program.sourceFiles.flatMap fun file =>
        checkRequiredProps (registry.populate program) file.path ++
          (checkUnknownAttributes (registry.populate program) file.path).filter
            (·.isAboutProps)).map
        (Diagnostic.locate program) := by
  have hHost : ∀ keeps : Diagnostic → Bool,
      ((hostDiagnostics program).filter keeps).filter (·.isAboutProps) = [] := by
    refine fun keeps => List.filter_eq_nil_iff.mpr fun d hd => ?_
    obtain ⟨file, -, hMem⟩ := exists_of_mem_hostDiagnostics (List.mem_filter.mp hd).1
    unfold Diagnostic.isAboutProps
    obtain ⟨-, hCode | hCode⟩ := of_mem_findUnusedImports hMem
    · rw [hCode]
      decide
    · rw [hCode]
      decide
  have hPaths : (CheckContext.filled program registry).filePaths =
      program.sourceFiles.map (·.path) :=
    CheckContext.filePaths_populate h registry _
  rw [checkProgram_populate, ← StageKind.map_stage_regular, diagnostics_runPipeline_eq,
    Diagnostic.filter_map_locate fun _ _ _ => rfl, hPaths, List.flatMap_map]
  refine congrArg (List.map _) ?_
  rw [List.filter_append, hHost, List.nil_append, List.filter_flatMap]
  exact List.flatMap_congr fun file _ => filter_isAboutProps_findings _ _

/-! ## Reports about one component -/

theorem not_mem_of_isComponent {tag : Tag} (h : tag.isComponent = true) : '>' ∉ tag.name := by
  intro hMem
  unfold Tag.isComponent at h
  cases hName : tag.name with
  | nil =>
    rw [hName] at hMem
    cases hMem
  | cons c name =>
    rw [hName] at h hMem
    obtain ⟨hFirst, hLater⟩ := Bool.and_eq_true_iff.mp h
    rcases List.mem_cons.mp hMem with rfl | hMem
    · cases hFirst
    · cases List.all_eq_true.mp hLater _ hMem

theorem isComponent_of_mem_componentTagsIn {registry : Registry} {path : Text} {scan : TemplateScan}
    {tag : Tag} (h : (scan, tag) ∈ componentTagsIn registry path) :
    tag.isComponent = true := by
  obtain ⟨other, -, hPair⟩ := List.mem_flatMap.mp h
  obtain ⟨same, hTag, hEq⟩ := List.mem_map.mp hPair
  obtain ⟨-, rfl⟩ := Prod.mk.inj hEq
  exact (List.mem_filter.mp hTag).2

/-- Names that end before one mark agree where a text begins with one of them and the mark. -/
theorem startsWith_mark {mark : Char} {name other : Text} (hName : mark ∉ name)
    (hOther : mark ∉ other) (rest : Text) :
    Text.startsWith (name ++ [mark]) (other ++ mark :: rest) = decide (other = name) := by
  induction name generalizing other with
  | nil =>
    cases other with
    | nil => exact Text.startsWith_cons_self mark [] rest
    | cons c other => exact Text.startsWith_cons_of_ne fun hEq => hOther (hEq ▸ List.mem_cons_self)
  | cons a name ih =>
    obtain ⟨ha, hName⟩ := not_or.mp (List.mem_cons.not.mp hName)
    cases other with
    | nil => exact Text.startsWith_cons_of_ne (Ne.symm ha)
    | cons c other =>
      have hLater : mark ∉ other := fun hMem => hOther (List.mem_cons_of_mem c hMem)
      by_cases hEq : a = c
      · subst hEq
        rw [List.cons_append, List.cons_append, Text.startsWith_cons_self, ih hName hLater]
        simp
      · rw [List.cons_append, List.cons_append, Text.startsWith_cons_of_ne hEq,
          decide_eq_false fun hSame => hEq (List.cons.inj hSame).1.symm]

/-- Of reports about a tag, all or none are about the component with a name. -/
theorem filter_concerns {name : Text} (hName : '>' ∉ name) {tag : Tag}
    (hTag : tag.isComponent = true) {reports : List Diagnostic}
    (h : ∀ d ∈ reports, ∃ rest, d.message = "Component <" ++ (tag.name ++ '>' :: rest)) :
    reports.filter (·.concerns name) = if tag.name = name then reports else [] := by
  have hAll : ∀ d ∈ reports, d.concerns name = decide (tag.name = name) := by
    intro d hd
    obtain ⟨rest, hMessage⟩ := h d hd
    rw [← startsWith_mark hName (not_mem_of_isComponent hTag) rest]
    unfold Diagnostic.concerns
    rw [hMessage]
    rfl
  rw [List.filter_congr hAll]
  split_ifs with hSame
  · rw [decide_eq_true hSame, List.filter_true]
  · rw [decide_eq_false hSame, List.filter_false]

/-! ## Contracts without members -/

theorem contract_eq_nil {program : Program} {file : SourceFile} {type : Text}
    (hType : type.isIdentifier = true) (hNone : resolve? program ⟨type, some file.path⟩ = none) :
    contract program file (some type) = [] := by
  have hMembers : members program ⟨type, some file.path⟩ = [] := by
    unfold members
    rw [depthLimit, membersUpTo_identifier program 8 hType, hNone, Option.elim_none]
  unfold contract
  dsimp only
  rw [hMembers]
  rfl

/-- The reports about attributes of a tag of a component without props, as far as they
are about props. -/
theorem filter_isAboutProps_unknownAttributes {component : Component}
    (hProps : component.props = []) (scan : TemplateScan) (tag : Tag) :
    ((Attribute.firsts tag.attributes).filterMap (unknownAttribute? scan tag component)).filter
      (·.isAboutProps) = undeclaredProps scan tag := by
  unfold undeclaredProps
  rw [List.filter_filterMap, ← List.filterMap_eq_map, List.filterMap_filter]
  refine List.filterMap_congr fun attr _ => ?_
  cases hKind : attr.kind with
  | prop =>
    have hNone : component.find? attr.kind attr.key = none := by
      rw [hKind, Component.find?, hProps]
      rfl
    rw [unknownAttribute?, hNone, hKind]
    rfl
  | emit =>
    rw [unknownAttribute?, hKind, decide_eq_false BindingKind.noConfusion,
      if_neg Bool.false_ne_true]
    split_ifs <;> rfl

theorem flatMap_filter {α β : Type} (test : α → Bool) (f : α → List β) (as : List α) :
    (as.filter test).flatMap f = as.flatMap fun a => if test a = true then f a else [] := by
  induction as with
  | nil => rfl
  | cons a as ih =>
    rw [List.filter_cons, List.flatMap_cons, ← ih]
    split_ifs <;> rfl

section Empty

variable {registry : Registry} {name : Text} {component : Component} (hName : '>' ∉ name)
  (hFound : registry.find? name = some component) (hProps : component.props = []) (path : Text)

include hName hFound hProps

theorem filter_concerns_checkRequiredProps :
    (checkRequiredProps registry path).filter (·.concerns name) = [] := by
  unfold checkRequiredProps
  rw [List.filter_flatMap]
  refine List.flatMap_eq_nil_iff.mpr ?_
  rintro ⟨scan, tag⟩ hMem
  have hTag := isComponent_of_mem_componentTagsIn hMem
  dsimp only
  cases hOther : registry.find? tag.name with
  | none => rfl
  | some other =>
    dsimp only
    rw [filter_concerns hName hTag]
    · split_ifs with hSame
      · rw [hSame, hFound] at hOther
        obtain rfl := Option.some.inj hOther
        unfold missingProps Component.requiredProps
        rw [hProps]
        rfl
      · rfl
    · intro d hd
      obtain ⟨prop, -, rfl⟩ := List.mem_map.mp hd
      refine ⟨" is missing required prop ':" ++ prop.key ++ "'.", ?_⟩
      simp [Diagnostic.error]

/-- Each prop bound on a tag of a component without props is reported. -/
theorem filter_concerns_checkUnknownAttributes :
    ((checkUnknownAttributes registry path).filter (·.isAboutProps)).filter (·.concerns name) =
      ((componentTagsIn registry path).filter (·.2.name = name)).flatMap fun (scan, tag) =>
        undeclaredProps scan tag := by
  unfold checkUnknownAttributes
  rw [List.filter_flatMap, List.filter_flatMap, flatMap_filter]
  refine List.flatMap_congr ?_
  rintro ⟨scan, tag⟩ hMem
  have hTag := isComponent_of_mem_componentTagsIn hMem
  dsimp only
  rw [filter_concerns hName hTag]
  · by_cases hSame : tag.name = name
    · rw [if_pos hSame, if_pos (decide_eq_true hSame), hSame, hFound]
      exact filter_isAboutProps_unknownAttributes hProps scan tag
    · rw [if_neg hSame, if_neg fun hEq => hSame (of_decide_eq_true hEq)]
  · intro d hd
    have hd := (List.mem_filter.mp hd).1
    split at hd
    · obtain ⟨attr, -, hError⟩ := List.mem_filterMap.mp hd
      unfold unknownAttribute? at hError
      split_ifs at hError
      obtain rfl := Option.some.inj hError
      refine ⟨" does not declare " ++ attr.kind.name ++ " '" ++
        attr.kind.label attr.key ++ "'.", ?_⟩
      simp [TemplateScan.attributeError, Diagnostic.error]
    · cases hd

end Empty

/-! ## The whole program -/

theorem find?_eq_some_of_countP {α : Type} {test : α → Bool} {as : List α} {a : α}
    (hOnce : as.countP test ≤ 1) (hMem : a ∈ as) (hTest : test a = true) :
    as.find? test = some a := by
  rw [List.countP_eq_length_filter] at hOnce
  have hFilter : a ∈ as.filter test := List.mem_filter.mpr ⟨hMem, hTest⟩
  rw [← List.head?_filter]
  match hList : as.filter test with
  | [] =>
    rw [hList] at hFilter
    cases hFilter
  | [only] =>
    rw [hList] at hFilter
    rw [List.mem_singleton.mp hFilter]
    rfl
  | _ :: _ :: _ =>
    rw [hList] at hOnce
    simp at hOnce

/-- A component that is declared once is found under its name, with the contract that
its class spells. -/
theorem find?_populate_of_once {program : Program} (h : program.WellFormed) (registry : Registry)
    {file : SourceFile} (hFile : file ∈ program.sourceFiles) {declaration : ClassDeclaration}
    (hDeclaration : declaration ∈ file.classes)
    (hComponent : isComponentClass program.config file declaration = true)
    (hOnce : (componentsOf program).countP (·.name = declaration.name) ≤ 1) :
    ∃ component, (registry.populate program).find? declaration.name = some component ∧
      component.props = contract program file declaration.typeArguments[0]? := by
  let components := program.sourceFiles.flatMap (componentsIn program)
  have hMem : Component.ofClass program file declaration ∈ components :=
    List.mem_flatMap.mpr ⟨file, hFile,
      List.mem_map_of_mem (List.mem_filter.mpr ⟨hDeclaration, hComponent⟩)⟩
  refine ⟨(Component.ofClass program file declaration).mark components, ?_, rfl⟩
  rw [Registry.find?_populate h]
  refine find?_eq_some_of_countP hOnce ?_ (decide_eq_true rfl)
  rw [componentsOf_eq]
  exact List.mem_map_of_mem hMem

/-- For every component that is declared once and whose contract is a name that is not resolved in
its file, the reports about props on its tags are these: each prop that is bound on one of them is
said, at its first place, not to be declared. -/
theorem diagnostics_unresolved (config : Config) (files : List (Text × Text))
    (registry : Registry) :
    let program := Program.ofFiles config files
    ∀ file ∈ program.sourceFiles, ∀ declaration ∈ file.classes,
      isComponentClass program.config file declaration = true →
      (componentsOf program).countP (·.name = declaration.name) = 1 →
      ∀ type, declaration.typeArguments[0]? = some type → type.isIdentifier = true →
      resolve? program ⟨type, some file.path⟩ = none →
      (checkProgram program (registry.populate program)).diagnostics.filter
          (fun d => d.concerns declaration.name && d.isAboutProps) =
        (program.sourceFiles.flatMap fun view =>
          ((componentTagsIn (registry.populate program) view.path).filter
            (·.2.name = declaration.name)).flatMap fun (scan, tag) => undeclaredProps scan tag).map
          (Diagnostic.locate program) := by
  intro program file hFile declaration hDeclaration hComponent hOnce type hSpelled hType hNone
  have h : program.WellFormed := Program.wellFormed_ofFiles config files
  obtain ⟨component, hFound, hProps⟩ :=
    find?_populate_of_once h registry hFile hDeclaration hComponent hOnce.le
  rw [hSpelled, contract_eq_nil hType hNone] at hProps
  have hName : '>' ∉ declaration.name := by
    rw [h.read_path hFile] at hDeclaration
    exact not_mem_of_isIdentifier (ClassDeclaration.isIdentifier_name hDeclaration) (by decide)
  have hLocate : Diagnostic.concerns declaration.name ∘ Diagnostic.locate program =
      Diagnostic.concerns declaration.name :=
        funext (Diagnostic.concerns_locate declaration.name program)
  rw [← List.filter_filter, filter_isAboutProps_checkProgram h, List.filter_map, hLocate,
    List.filter_flatMap]
  refine congrArg (List.map _) (List.flatMap_congr fun view _ => ?_)
  rw [List.filter_append, filter_concerns_checkRequiredProps hName hFound hProps,
    filter_concerns_checkUnknownAttributes hName hFound hProps, List.nil_append]

theorem diagnostics_unresolved_repeated :
    let card : Text := "import {C} from '@neuralfog/elemix';class Card extends C<Props> {}"
    let view : Text := "html`<Card :a=${1} :a=${2} @emits:b=${3}/>`"
    let program := Program.ofFiles {} [("card.ts", card), ("view.ts", view)]
    let file := SourceFile.read program.config.templateTag "card.ts" card
    resolve? program ⟨"Props", some file.path⟩ = none ∧
      ((checkProgram program (Registry.empty.populate program)).diagnostics.filter
          fun d => d.concerns "Card" && d.isAboutProps).map (·.message) =
        ["Component <Card> does not declare prop ':a'.".toList] := by
  intro card view program file
  let declaration : ClassDeclaration :=
    { name := "Card", nameStart := 42, start := 36, base := some "C", typeArguments := ["Props"],
      decorators := [], bodyStart := 64, bodyStop := 66, fields := [] }
  obtain ⟨hFile, hDeclaration, hComponent, hOnce, hNone⟩ : file ∈ program.sourceFiles ∧
      declaration ∈ file.classes ∧ isComponentClass program.config file declaration = true ∧
      (componentsOf program).countP (·.name = declaration.name) = 1 ∧
      resolve? program ⟨"Props", some file.path⟩ = none := by decide +kernel
  have hReports := diagnostics_unresolved {} [("card.ts", card), ("view.ts", view)] Registry.empty
    file hFile declaration hDeclaration hComponent hOnce "Props" rfl (by decide) hNone
  refine ⟨hNone, (congrArg _ hReports).trans ?_⟩
  decide +kernel

/-- A contract that is not resolved and a contract without props are not told apart. -/
theorem diagnostics_unresolved_empty :
    let program (contract : Text) := Program.ofFiles {}
      [("card.ts",
          "import {C} from '@neuralfog/elemix';class Card extends C<" ++ contract ++ "> {}"),
        ("view.ts", "html`<Card :a=${1}/>`")]
    let found (contract : Text) : List (Int × Text) :=
      ((checkProgram (program contract)
        (Registry.empty.populate (program contract))).diagnostics.filter
        (·.isAboutProps)).map fun d => (d.code, d.message)
    resolve? (program "Props") ⟨"Props", some "card.ts"⟩ = none ∧
      found "Props" = [(9990, "Component <Card> does not declare prop ':a'.".toList)] ∧
      found "Props" = found "{}" := by
  intro program found
  have hFound : ∀ contract, found contract = _ := fun contract =>
    congrArg (List.map _)
      (filter_isAboutProps_checkProgram (Program.wellFormed_ofFiles {} _) Registry.empty)
  rw [hFound, hFound]
  decide +kernel

end TemplateCheck
