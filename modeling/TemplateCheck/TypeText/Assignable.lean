import TemplateCheck.TypeText.Resolution

/-!
# Assignability

Whether a value of one type may be bound where another type is declared. The answer is one-sided:
where a type is not understood it counts as assignable, so a mismatch is only ever reported between
types that are.
-/

namespace TemplateCheck

namespace TypeText

/-- The answer for a literal against a target that settles it. -/
def literalAgainst? (source target : Text) : Option Bool :=
  (literalKind? source).bind fun kind =>
    if (literalKind? target).isSome then some (sameLiteral source target)
    else if target ∈ primitives then some (kind.name = target)
    else if target = "object" ∨ target = "Function" ∨ isArray target ∨ isFunction target then
      some false
    else none

/-- Whether `source` goes with `target`, both normal; names are followed at most `depth` deep. -/
def assignableUpTo (program : Program) : (depth : Nat) → (source target : TypeRef) → Bool
  | 0, _, _ => true
  | depth + 1, source, target =>
    let s := Text.stripParens source.text
    let t := Text.stripParens target.text
    if s = t ∨ t ∈ topTypes ∨ s ∈ topTypes ∨ s = "never" then true
    else if 1 < (unionParts s).length then
      (unionParts s).all fun part =>
        assignableUpTo program depth ⟨part, source.file⟩ ⟨t, target.file⟩
    else if 1 < (unionParts t).length then
      (unionParts t).any fun part =>
        assignableUpTo program depth ⟨s, source.file⟩ ⟨part, target.file⟩
    else if t = "boolean" then s = "true" || s = "false" || s = "boolean" || !isKnown s
    else if t = "void" then s = "undefined" || s = "void" || !isKnown s
    else
      match literalAgainst? s t with
      | some answer => answer
      | none =>
        if isArray s && isArray t then
          assignableUpTo program depth ⟨elementType s, source.file⟩ ⟨elementType t, target.file⟩
        else if isFunction s && (isFunction t || t = "Function") then true
        else if t = "object" then s ∉ primitives && (literalKind? s).isNone
        else
          match resolve? program ⟨t, target.file⟩ with
          | some expanded =>
            assignableUpTo program depth ⟨s, source.file⟩
              ⟨normalize expanded.text, expanded.file⟩
          | none =>
            match resolve? program ⟨s, source.file⟩ with
            | some expanded =>
              assignableUpTo program depth ⟨normalize expanded.text, expanded.file⟩
                ⟨t, target.file⟩
            | none => !(isKnown s && isKnown t)

/-- Whether a value of the first type may be bound where the second is declared. -/
def isAssignable (program : Program) (source target : TypeRef) : Bool :=
  assignableUpTo program depthLimit ⟨normalize source.text, source.file⟩
    ⟨normalize target.text, target.file⟩

end TypeText

end TemplateCheck
