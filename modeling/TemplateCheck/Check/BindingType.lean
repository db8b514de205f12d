import TemplateCheck.Diagnostic
import TemplateCheck.Registry
import TemplateCheck.TypeText.Assignable

/-!
# Types of bindings

An expression bound to a prop or an emit must have a type that is assignable to the declared one.
The types come from an oracle, which may fail on an expression; a failure skips that binding only.
-/

namespace TemplateCheck

/-- Answers about types. -/
structure TypeOracle where
  /-- The type of an expression, or why there is none. -/
  typeOf : Expression → Except Text TypeRef
  isAssignable : (source target : TypeRef) → Bool

/-- The oracle that reads types off the declarations of a program. -/
def TypeOracle.ofProgram (program : Program) : TypeOracle where
  typeOf expression := .ok (TypeText.infer program expression)
  isAssignable := TypeText.isAssignable program

/-- The attribute of a binding in words. -/
def bindingLabel (kind : BindingKind) (key : Text) : Text :=
  kind.name ++ " '" ++ kind.label key ++ "'"

/-- What is wrong with a binding, or why that cannot be told. -/
def bindingError? (registry : Registry) (oracle : TypeOracle) (path : Text) (scan : TemplateScan)
    (binding : Binding) : Except Text (Option Diagnostic) := do
  let component := binding.component.getD []
  let key := binding.key.getD []
  let kind := binding.kind.getD .emit
  match ((registry.find? component).bind (·.find? kind key)), binding.expression with
  | some declared, some expression =>
    match declared.type with
    | none => return none
    | some type =>
      let provided ← oracle.typeOf expression
      if oracle.isAssignable provided type then return none
      else
        return some (.error path (binding.keyOffset scan.templateStart) key.length
          ("Type mismatch for " ++ bindingLabel kind key ++ " on <" ++ component ++
            ">. Expected " ++ declared.displayType ++
            ", but got " ++ TypeText.normalize provided.text ++ ".")
          (match kind with
            | .prop => .propTypeMismatch
            | .emit => .emitTypeMismatch))
  | _, _ => return none

/-- The bindings of a file that say what is bound on which component, with their scans. -/
def actionableBindings (registry : Registry) (path : Text) : List (TemplateScan × Binding) :=
  (registry.templatesIn path).flatMap fun scan =>
    (scan.bindings.filter (·.isActionable)).map (scan, ·)

/-- The bindings of a file with a type that does not fit. -/
def checkBindingTypes (registry : Registry) (oracle : TypeOracle) (path : Text) :
    List Diagnostic :=
  (actionableBindings registry path).filterMap fun (scan, binding) =>
    match bindingError? registry oracle path scan binding with
    | .ok found => found
    | .error _ => none

/-- What is logged about bindings on which the oracle failed. -/
def bindingTypeLog (registry : Registry) (oracle : TypeOracle) (path : Text) : List LogRecord :=
  (actionableBindings registry path).filterMap fun (scan, binding) =>
    match bindingError? registry oracle path scan binding with
    | .ok _ => none
    | .error reason =>
      some ⟨.warning, .typeRules, "Type check skipped for " ++ binding.key.getD [] ++ " on <" ++
        binding.component.getD [] ++ "> in " ++ path ++ ": " ++ reason⟩

end TemplateCheck
