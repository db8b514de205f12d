import Std.Data.HashMap
import TemplateCheck.Log
import TemplateCheck.Markup.Scan

/-!
# Components

A class is a component when its base class is imported from the framework module, by name, under an
alias or through a namespace, or when it carries the registration decorator of the framework. The
first type argument of the base is the contract of its props, the second that of its emits.
-/

namespace TemplateCheck

/-- A prop or an emit of a contract. -/
structure PropDeclaration where
  key : Text
  displayType : Text
  type : Option TypeRef
  optional : Bool
deriving DecidableEq, Repr

/-- A component and its contract. -/
structure Component where
  name : Text
  filePath : Text
  /-- Offset of the name of the class. -/
  start : Int
  props : List PropDeclaration
  emits : List PropDeclaration
  slots : List Text
  isMultiword : Bool
  isDuplicated : Bool
deriving DecidableEq, Repr

namespace Component

/-- The prop or the emit with a key. -/
def find? (component : Component) (kind : BindingKind) (key : Text) : Option PropDeclaration :=
  match kind with
  | .prop => component.props.find? (·.key = key)
  | .emit => component.emits.find? (·.key = key)

/-- The props that must be given. -/
def requiredProps (component : Component) : List PropDeclaration :=
  component.props.filter fun prop => !prop.optional

end Component

/-! ## Names -/

open Pattern in
/-- A capital and small letters after it. -/
def nameSegment : Pattern Unit := seq (char Char.isUpper) (span1 Char.isLower)

/-- Whether a name has at least two capitalised segments. -/
def isMultiword (name : Text) : Bool := 2 ≤ (nameSegment.readAll name).length

/-- Flags a component when its name is declared more than once among `all`. -/
def Component.mark (all : List Component) (component : Component) : Component :=
  { component with
    isDuplicated := decide (1 < all.countP fun other => other.name = component.name) }

/-- Counts the name of one more component. -/
def countName (counts : Std.HashMap String Nat) (component : Component) : Std.HashMap String Nat :=
  counts.insert (String.ofList component.name)
    (counts.getD (String.ofList component.name) 0 + 1)

/-- How many of the components have each name. -/
def nameCounts (components : List Component) : Std.HashMap String Nat :=
  components.foldl countName ∅

theorem getD_countName (counts : Std.HashMap String Nat) (component : Component) (name : Text) :
    (countName counts component).getD (String.ofList name) 0 =
      counts.getD (String.ofList name) 0 + if component.name = name then 1 else 0 := by
  rw [countName, Std.HashMap.getD_insert]
  by_cases h : component.name = name
  · simp [h]
  · simp [h, String.ofList_inj]

theorem getD_foldl_countName (components : List Component) (name : Text) :
    ∀ counts : Std.HashMap String Nat,
      (components.foldl countName counts).getD (String.ofList name) 0 =
        counts.getD (String.ofList name) 0 +
          components.countP fun other => other.name = name := by
  induction components with
  | nil => simp
  | cons component components ih =>
    intro counts
    rw [List.foldl_cons, ih, getD_countName, List.countP_cons]
    simp only [decide_eq_true_eq]
    omega

theorem getD_nameCounts (components : List Component) (name : Text) :
    (nameCounts components).getD (String.ofList name) 0 =
      components.countP fun other => other.name = name := by
  rw [nameCounts, getD_foldl_countName]
  simp

/-- Flags a component when its name is counted more than once. -/
def Component.markBy (counts : Std.HashMap String Nat) (component : Component) : Component :=
  { component with
    isDuplicated := decide (1 < counts.getD (String.ofList component.name) 0) }

theorem Component.markBy_nameCounts (all : List Component) :
    Component.markBy (nameCounts all) = Component.mark all := by
  funext component
  simp only [Component.markBy, Component.mark, getD_nameCounts]

/-- Flags every component whose name is declared more than once. -/
def markDuplicated (components : List Component) : List Component :=
  let counts := nameCounts components
  components.map (Component.markBy counts)

theorem markDuplicated_eq (components : List Component) :
    markDuplicated components = components.map (Component.mark components) := by
  rw [markDuplicated, Component.markBy_nameCounts]

/-! ## Recognition -/

/-- What stands after the first point of a dotted name. -/
def memberPart (dotted : Text) : Text := (dotted.dropWhile (· ≠ '.')).drop 1

/-- Whether a base class comes from the framework: a member of a namespace, or any other name that
is not itself a namespace. -/
def isFrameworkBase (config : Config) (file : SourceFile) (base : Text) : Bool :=
  match file.importFor? (Text.upTo '.' base) with
  | none => false
  | some binding =>
    config.isFrameworkModule binding.source &&
      (if memberPart base = [] then binding.kind ≠ .star else binding.kind = .star)

/-- Whether a decorator is the registration decorator of the framework. -/
def isRegistration (config : Config) (file : SourceFile) (decorator : Text) : Bool :=
  match file.importFor? (Text.upTo '.' decorator) with
  | none => false
  | some binding =>
    config.isFrameworkModule binding.source &&
      WideText.ofText
          (if binding.kind = .star then Text.afterLast '.' decorator else binding.exportedName) =
        config.componentDecorator

/-- Whether a class is a component. -/
def isComponentClass (config : Config) (file : SourceFile) (declaration : ClassDeclaration) :
    Bool :=
  declaration.base.any (isFrameworkBase config file) ||
    declaration.decorators.any (isRegistration config file)

/-! ## Extraction -/

/-- The contract that a type argument spells. -/
def contract (program : Program) (file : SourceFile) (type : Option Text) :
    List PropDeclaration :=
  match type with
  | none => []
  | some text =>
    (TypeText.members program ⟨text, some file.path⟩).map fun member =>
      { key := member.name
        displayType := TypeText.normalize member.type.text
        type := some member.type
        optional := member.optional }

/-- The component of a class; whether its name is duplicated is left open. -/
def Component.ofClass (program : Program) (file : SourceFile) (declaration : ClassDeclaration) :
    Component where
  name := declaration.name
  filePath := file.path
  start := declaration.nameStart
  props := contract program file declaration.typeArguments[0]?
  emits := contract program file declaration.typeArguments[1]?
  slots := slotsOf file declaration
  isMultiword := TemplateCheck.isMultiword declaration.name
  isDuplicated := false

/-- The components declared in a file, duplicate flags left open. -/
def componentsIn (program : Program) (file : SourceFile) : List Component :=
  (file.classes.filter (isComponentClass program.config file)).map (Component.ofClass program file)

/-- The components of a whole program, duplicates marked. -/
def componentsOf (program : Program) : List Component :=
  markDuplicated (program.sourceFiles.flatMap (componentsIn program))

/-- What is logged about the classes of a file that are not components. -/
def skippedClasses (config : Config) (file : SourceFile) : List LogRecord :=
  file.classes.filterMap fun declaration =>
    if isComponentClass config file declaration then none
    else
      declaration.base.map fun base =>
        ⟨.debug, .declarations, "Skipping class " ++ declaration.name ++ ": base " ++ base ++
          " is not a framework class"⟩

end TemplateCheck
