import Mathlib.Tactic.Common
import TemplateCheck.TypeText.Assignable

/-!
# One level of a comparison

Two types are compared level by level. On each level there are four ways to an answer: the types go
together at once (`GoAtOnce`), the members of a union on the left are compared, those of a union on
the right, or two types that are no unions are compared by their shape (`compareSingle`). The
equations for the four ways are all that later proofs use of a level.

Types are followed to a fixed depth, and where it is reached they go together. Since no answer is
negated on the way back, types that go together still do when they are followed one level less
(`assignableUpTo_of_succ`).
-/

namespace TemplateCheck

namespace TypeText

open Text

/-! ## Equations -/

/-- The types go together whatever their shape is. -/
def GoAtOnce (s t : Text) : Prop := s = t ∨ t ∈ topTypes ∨ s ∈ topTypes ∨ s = "never"

instance (s t : Text) : Decidable (GoAtOnce s t) :=
  inferInstanceAs (Decidable (s = t ∨ t ∈ topTypes ∨ s ∈ topTypes ∨ s = "never"))

/-- Whether the text has two or more members. -/
def IsUnion (t : Text) : Prop := 1 < (unionParts t).length

instance (t : Text) : Decidable (IsUnion t) :=
  inferInstanceAs (Decidable (1 < (unionParts t).length))

/-- The comparison of what the types are resolved to, the second of them first; `otherwise` is the
answer if neither is resolved. -/
def compareResolved (program : Program) (again : TypeRef → TypeRef → Bool) (source target : TypeRef)
    (otherwise : Bool) : Bool :=
  match resolve? program target with
  | some expanded => again source ⟨normalize expanded.text, expanded.file⟩
  | none =>
    match resolve? program source with
    | some expanded => again ⟨normalize expanded.text, expanded.file⟩ target
    | none => otherwise

/-- The comparison of two types that are no unions; `again` compares the types that they lead to. -/
def compareSingle (program : Program) (again : TypeRef → TypeRef → Bool) (source target : TypeRef) :
    Bool :=
  let s := source.text
  let t := target.text
  if t = "boolean" then s = "true" || s = "false" || s = "boolean" || !isKnown s
  else if t = "void" then s = "undefined" || s = "void" || !isKnown s
  else
    match literalAgainst? s t with
    | some answer => answer
    | none =>
      if isArray s && isArray t then again ⟨elementType s, source.file⟩ ⟨elementType t, target.file⟩
      else if isFunction s && (isFunction t || t = "Function") then true
      else if t = "object" then s ∉ primitives && (literalKind? s).isNone
      else compareResolved program again source target (!(isKnown s && isKnown t))

section

variable (program : Program) (depth : Nat) {s t : Text} (file file' : Option Text)

theorem assignableUpTo_succ (s t : Text) : assignableUpTo program (depth + 1) ⟨s, file⟩ ⟨t, file'⟩ =
    if GoAtOnce (stripParens s) (stripParens t) then true
    else if IsUnion (stripParens s) then
      (unionParts (stripParens s)).all fun part =>
        assignableUpTo program depth ⟨part, file⟩ ⟨stripParens t, file'⟩
    else if IsUnion (stripParens t) then
      (unionParts (stripParens t)).any fun part =>
        assignableUpTo program depth ⟨stripParens s, file⟩ ⟨part, file'⟩
    else compareSingle program (assignableUpTo program depth) ⟨stripParens s, file⟩
      ⟨stripParens t, file'⟩ :=
  rfl

theorem assignableUpTo_of_goAtOnce (h : GoAtOnce (stripParens s) (stripParens t)) :
    assignableUpTo program depth ⟨s, file⟩ ⟨t, file'⟩ = true := by
  cases depth with
  | zero => rfl
  | succ depth => rw [assignableUpTo_succ, if_pos h]

theorem assignableUpTo_union_left (hNot : ¬ GoAtOnce (stripParens s) (stripParens t))
    (hSource : IsUnion (stripParens s)) :
    assignableUpTo program (depth + 1) ⟨s, file⟩ ⟨t, file'⟩ = true ↔
      ∀ part ∈ unionParts (stripParens s),
        assignableUpTo program depth ⟨part, file⟩ ⟨stripParens t, file'⟩ = true := by
  rw [assignableUpTo_succ, if_neg hNot, if_pos hSource, List.all_eq_true]

theorem assignableUpTo_union_right (hNot : ¬ GoAtOnce (stripParens s) (stripParens t))
    (hSource : ¬ IsUnion (stripParens s)) (hTarget : IsUnion (stripParens t)) :
    assignableUpTo program (depth + 1) ⟨s, file⟩ ⟨t, file'⟩ = true ↔
      ∃ part ∈ unionParts (stripParens t),
        assignableUpTo program depth ⟨stripParens s, file⟩ ⟨part, file'⟩ = true := by
  rw [assignableUpTo_succ, if_neg hNot, if_neg hSource, if_pos hTarget, List.any_eq_true]

theorem assignableUpTo_single (hNot : ¬ GoAtOnce (stripParens s) (stripParens t))
    (hSource : ¬ IsUnion (stripParens s)) (hTarget : ¬ IsUnion (stripParens t)) :
    assignableUpTo program (depth + 1) ⟨s, file⟩ ⟨t, file'⟩ =
      compareSingle program (assignableUpTo program depth) ⟨stripParens s, file⟩
        ⟨stripParens t, file'⟩ := by
  rw [assignableUpTo_succ, if_neg hNot, if_neg hSource, if_neg hTarget]

end

section

variable {program : Program} (again : TypeRef → TypeRef → Bool) {source target : TypeRef}
  (otherwise : Bool)

theorem compareResolved_right {expanded : TypeRef} (h : resolve? program target = some expanded) :
    compareResolved program again source target otherwise =
      again source ⟨normalize expanded.text, expanded.file⟩ := by
  rw [compareResolved, h]

theorem compareResolved_left {expanded : TypeRef} (hTarget : resolve? program target = none)
    (h : resolve? program source = some expanded) :
    compareResolved program again source target otherwise =
      again ⟨normalize expanded.text, expanded.file⟩ target := by
  rw [compareResolved, hTarget]
  dsimp only
  rw [h]

theorem compareResolved_none (hTarget : resolve? program target = none)
    (hSource : resolve? program source = none) :
    compareResolved program again source target otherwise = otherwise := by
  rw [compareResolved, hTarget]
  dsimp only
  rw [hSource]

end

/-! ## Depth -/

section

variable {program : Program} {again again' : TypeRef → TypeRef → Bool}
  (h : ∀ {s t}, again s t = true → again' s t = true) {source target : TypeRef}

include h

theorem compareResolved_mono {otherwise : Bool}
    (hCompare : compareResolved program again source target otherwise = true) :
    compareResolved program again' source target otherwise = true := by
  cases hTarget : resolve? program target with
  | some expanded =>
    rw [compareResolved_right _ _ hTarget] at hCompare ⊢
    exact h hCompare
  | none =>
    cases hSource : resolve? program source with
    | some expanded =>
      rw [compareResolved_left _ _ hTarget hSource] at hCompare ⊢
      exact h hCompare
    | none =>
      rw [compareResolved_none _ _ hTarget hSource] at hCompare ⊢
      exact hCompare

theorem compareSingle_mono (hCompare : compareSingle program again source target = true) :
    compareSingle program again' source target = true := by
  unfold compareSingle at hCompare ⊢
  dsimp only at hCompare ⊢
  cases hLiteral : literalAgainst? source.text target.text with
  | some answer =>
    rw [hLiteral] at hCompare
    exact hCompare
  | none =>
    rw [hLiteral] at hCompare
    dsimp only at hCompare ⊢
    split_ifs at hCompare ⊢
    · exact hCompare
    · exact hCompare
    · exact h hCompare
    · exact hCompare
    · exact hCompare
    · exact compareResolved_mono h hCompare

end

theorem assignableUpTo_of_succ {program : Program} {depth : Nat} {source target : TypeRef}
    (h : assignableUpTo program (depth + 1) source target = true) :
    assignableUpTo program depth source target = true := by
  induction depth generalizing source target with
  | zero => rfl
  | succ depth ih =>
    obtain ⟨s, file⟩ := source
    obtain ⟨t, file'⟩ := target
    rw [assignableUpTo_succ] at h ⊢
    split_ifs at h ⊢ with hAtOnce hSource hTarget
    · exact h
    · exact List.all_eq_true.mpr fun part hPart => ih (List.all_eq_true.mp h part hPart)
    · obtain ⟨part, hPart, hGoes⟩ := List.any_eq_true.mp h
      exact List.any_eq_true.mpr ⟨part, hPart, ih hGoes⟩
    · exact compareSingle_mono ih h

end TypeText

end TemplateCheck
