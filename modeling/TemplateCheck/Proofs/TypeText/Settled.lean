import TemplateCheck.Proofs.TypeText.Literal
import TemplateCheck.Proofs.TypeText.Spelling
import TemplateCheck.TypeText.Assignable

/-!
# Comparing settled types

Assignability looks at the two texts in a fixed order: equal texts, unions, `boolean` and `void`,
literals, arrays, functions, objects, names. A text is settled (`Settled`) when all of this but the
cases for primitive types, literals and arrays falls away. For two settled texts one step of the
comparison is a function of the texts and of the answer for their element types
(`assignableUpTo_settled`), and the function depends on nothing but the class of each text: a
primitive type, a literal or an array (`compare_literal`, `compare_array` and so on).
-/

namespace TemplateCheck

namespace TypeText

open Text

/-- A text that is read as a primitive type, a literal or an array, and as nothing else. -/
structure Settled (program : Program) (file : Option Text) (t : Text) :
    Prop extends ElementText t where
  unionParts_eq : unionParts t = [t]
  not_top : t ∉ topTypes
  ne_object : t ≠ "object"
  resolve?_eq : resolve? program ⟨t, file⟩ = none

/-- One step of the comparison of two settled texts; `elements` is the answer for element types. -/
def compare (s t : Text) (elements : Bool) : Bool :=
  if s = t ∨ s = "never" then true
  else if t = "boolean" then s = "true" || s = "false" || s = "boolean" || !isKnown s
  else if t = "void" then s = "undefined" || s = "void" || !isKnown s
  else
    match literalAgainst? s t with
    | some answer => answer
    | none => if isArray s && isArray t then elements else !(isKnown s && isKnown t)

theorem assignableUpTo_settled {program : Program} {depth : Nat} {s t : Text}
    {file file' : Option Text} (hs : Settled program file s) (ht : Settled program file' t) :
    assignableUpTo program (depth + 1) ⟨s, file⟩ ⟨t, file'⟩ =
      compare s t (assignableUpTo program depth ⟨elementType s, file⟩ ⟨elementType t, file'⟩) := by
  rw [assignableUpTo]
  dsimp only
  rw [hs.stripParens_eq, ht.stripParens_eq, hs.unionParts_eq, ht.unionParts_eq, hs.isFunction_eq,
    hs.resolve?_eq, ht.resolve?_eq]
  simp only [hs.not_top, ht.not_top, ht.ne_object, false_or, List.length_singleton, Nat.lt_irrefl,
    if_false, Bool.false_and, Bool.false_eq_true]
  rfl

/-! ## Known types -/

theorem isKnownUpTo_of_mem {t : Text} (h : t ∈ primitives) {bound : Nat} (hBound : bound ≠ 0) :
    isKnownUpTo bound t = true := by
  obtain ⟨bound, rfl⟩ := Nat.exists_eq_succ_of_ne_zero hBound
  exact if_pos (.inl h)

theorem isKnownUpTo_of_literal {t : Text} {kind : LiteralKind} (h : literalKind? t = some kind)
    {bound : Nat} (hBound : bound ≠ 0) : isKnownUpTo bound t = true := by
  obtain ⟨bound, rfl⟩ := Nat.exists_eq_succ_of_ne_zero hBound
  exact if_pos (.inr (.inr (.inr (by rw [h]; rfl))))

theorem not_mem_of_isArray {t : Text} (h : isArray t = true) :
    t ∉ primitives ∧ t ∉ topTypes ∧ t ≠ "object" ∧ t ≠ "Function" := by
  have hNe : ∀ u, isArray u = false → t ≠ u := by
    rintro u hu rfl
    rw [h] at hu
    cases hu
  have hNotMem : ∀ names : List Text, names.all (fun u => !isArray u) = true → t ∉ names := by
    intro names hNames hMem
    have hu := List.all_eq_true.mp hNames t hMem
    rw [h] at hu
    cases hu
  exact ⟨hNotMem primitives (by decide), hNotMem topTypes (by decide), hNe _ (by decide),
    hNe _ (by decide)⟩

theorem isKnownUpTo_of_isArray {t : Text} (h : isArray t = true) (hKind : literalKind? t = none)
    (bound : Nat) : isKnownUpTo (bound + 1) t = isKnownUpTo bound (elementType t) := by
  obtain ⟨hPrimitives, -, hObject, hFunction⟩ := not_mem_of_isArray h
  rw [isKnownUpTo, if_neg, if_pos h]
  rw [hKind]
  simp only [hPrimitives, hObject, hFunction, Option.isSome_none, Bool.false_eq_true, or_self,
    not_false_eq_true]

/-! ## One step, by class -/

section

variable {s t : Text} {elements : Bool}

theorem compare_boolean (hNe : s ≠ "boolean") (hNever : s ≠ "never") :
    compare s "boolean" elements = true ↔ s = "true" ∨ s = "false" ∨ isKnown s = false := by
  rw [compare, if_neg (not_or.mpr ⟨hNe, hNever⟩), if_pos rfl, decide_eq_false hNe, Bool.or_false,
    Bool.or_eq_true, Bool.or_eq_true, decide_eq_true_iff, decide_eq_true_iff,
    Bool.not_eq_true', or_assoc]

theorem compare_void (hNe : s ≠ "void") (hNever : s ≠ "never") :
    compare s "void" elements = true ↔ s = "undefined" ∨ isKnown s = false := by
  rw [compare, if_neg (not_or.mpr ⟨hNe, hNever⟩), if_neg (by decide), if_pos rfl,
    decide_eq_false hNe, Bool.or_false, Bool.or_eq_true, decide_eq_true_iff, Bool.not_eq_true']

theorem compare_other (hNe : s ≠ t) (hNever : s ≠ "never") (hBoolean : t ≠ "boolean")
    (hVoid : t ≠ "void") : compare s t elements = (literalAgainst? s t).getD
      (if isArray s && isArray t then elements else !(isKnown s && isKnown t)) := by
  rw [compare, if_neg (not_or.mpr ⟨hNe, hNever⟩), if_neg hBoolean, if_neg hVoid]
  cases literalAgainst? s t <;> rfl

theorem ne_of_literalKind? {kind : LiteralKind} (hs : literalKind? s = some kind)
    (ht : literalKind? t = none) : s ≠ t := by
  rintro rfl
  rw [hs] at ht
  cases ht

theorem eq_of_literalKind?_boolean (h : literalKind? s = some .boolean) :
    s = "true" ∨ s = "false" := by
  unfold literalKind? at h
  split_ifs at h with hString hNumber hLast hTruth
  · cases h
  · cases h
  · cases h
  · exact hTruth

/-- What is no literal goes, if both are known and not both arrays, only with itself, apart from
`never` and `undefined`. -/
theorem compare_known (hs : isKnown s = true) (ht : isKnown t = true)
    (hKind : literalKind? s = none) (hArrays : (isArray s && isArray t) = false) :
    compare s t elements = true ↔
      s = t ∨ s = "never" ∨ (s = "undefined" ∧ t = "void") := by
  by_cases hNe : s = t
  · exact iff_of_true (if_pos (.inl hNe)) (.inl hNe)
  by_cases hNever : s = "never"
  · exact iff_of_true (if_pos (.inr hNever)) (.inr (.inl hNever))
  by_cases hBoolean : t = "boolean"
  · subst hBoolean
    rw [compare_boolean hNe hNever, hs]
    have hTruth : ∀ value, s ≠ truthName value := fun value =>
      (ne_of_literalKind? ((Literal.boolean value).literalKind?_print) hKind).symm
    simp only [hNe, hNever, show s ≠ "true".toList from hTruth true,
      show s ≠ "false".toList from hTruth false, false_or, Bool.true_eq_false]
    exact ⟨False.elim, fun h => absurd h.2 (by decide)⟩
  by_cases hVoid : t = "void"
  · subst hVoid
    rw [compare_void hNe hNever, hs]
    simp only [hNe, hNever, false_or, and_true, Bool.true_eq_false, or_false]
  · rw [compare_other hNe hNever hBoolean hVoid, literalAgainst?, hKind, Option.bind_none,
      Option.getD_none, hArrays, if_neg Bool.false_ne_true, hs, ht]
    simp only [hNe, hNever, hVoid, and_false, or_self, Bool.and_self, Bool.not_true,
      Bool.false_eq_true]

theorem compare_literals {kind kind' : LiteralKind} (hs : literalKind? s = some kind)
    (ht : literalKind? t = some kind') :
    compare s t elements = true ↔ s = t ∨ sameLiteral s t = true := by
  by_cases hNe : s = t
  · exact iff_of_true (if_pos (.inl hNe)) (.inl hNe)
  rw [compare_other hNe (ne_of_literalKind? hs (by decide)) (ne_of_literalKind? ht (by decide))
    (ne_of_literalKind? ht (by decide)), literalAgainst?, hs, Option.bind_some, ht,
    Option.isSome_some, if_pos rfl, Option.getD_some]
  exact ⟨.inr, fun h => h.resolve_left hNe⟩

theorem compare_literal_primitive {kind : LiteralKind} (hs : literalKind? s = some kind)
    (ht : t ∈ primitives) : compare s t elements = true ↔ kind.name = t := by
  have hKind : literalKind? t = none := by
    revert t
    decide
  have hKnown : isKnown s = true := isKnownUpTo_of_literal hs (Nat.succ_ne_zero _)
  have hNe := ne_of_literalKind? hs hKind
  have hNever : s ≠ "never" := ne_of_literalKind? hs (by decide)
  by_cases hBoolean : t = "boolean"
  · subst hBoolean
    rw [compare_boolean hNe hNever, hKnown]
    constructor
    · rintro (rfl | rfl | h)
      · obtain rfl : LiteralKind.boolean = kind := Option.some.inj hs
        rfl
      · obtain rfl : LiteralKind.boolean = kind := Option.some.inj hs
        rfl
      · cases h
    · intro hName
      obtain rfl : kind = .boolean := by
        revert hName
        cases kind <;> decide
      exact (eq_of_literalKind?_boolean hs).imp_right .inl
  by_cases hVoid : t = "void"
  · subst hVoid
    rw [compare_void hNe hNever, hKnown]
    have hUndefined : s ≠ "undefined" := ne_of_literalKind? hs (by decide)
    refine iff_of_false (by rintro (h | h); exacts [hUndefined h, Bool.noConfusion h]) ?_
    cases kind <;> decide
  · rw [compare_other hNe hNever hBoolean hVoid, literalAgainst?, hs, Option.bind_some, hKind,
      Option.isSome_none, if_neg Bool.false_ne_true, if_pos ht, Option.getD_some,
      decide_eq_true_iff]

theorem compare_literal_array {kind : LiteralKind} (hs : literalKind? s = some kind)
    (ht : isArray t = true) (hKind : literalKind? t = none) : compare s t elements = false := by
  obtain ⟨hPrimitives, -⟩ := not_mem_of_isArray ht
  have hNe : ∀ u ∈ primitives, t ≠ u := fun u hu hEq => hPrimitives (hEq ▸ hu)
  rw [compare_other (ne_of_literalKind? hs hKind) (ne_of_literalKind? hs (by decide))
    (hNe _ (by decide)) (hNe _ (by decide)), literalAgainst?, hs, Option.bind_some, hKind,
    Option.isSome_none, if_neg Bool.false_ne_true, if_neg hPrimitives,
    if_pos (.inr (.inr (.inl ht))), Option.getD_some]

/-- Arrays go together as their elements do. -/
theorem compare_arrays (hs : isArray s = true) (ht : isArray t = true)
    (hKind : literalKind? s = none) :
    compare s t elements = true ↔ s = t ∨ elements = true := by
  have hNe : ∀ {u : Text}, isArray u = true → ∀ v ∈ primitives, u ≠ v := fun hu v hv hEq =>
    (not_mem_of_isArray hu).1 (hEq ▸ hv)
  by_cases hEq : s = t
  · exact iff_of_true (if_pos (.inl hEq)) (.inl hEq)
  rw [compare_other hEq (hNe hs _ (by decide)) (hNe ht _ (by decide)) (hNe ht _ (by decide)),
    literalAgainst?, hKind, Option.bind_none, Option.getD_none, hs, ht, Bool.and_self, if_pos rfl]
  exact ⟨.inr, fun h => h.resolve_left hEq⟩

end

end TypeText

end TemplateCheck
