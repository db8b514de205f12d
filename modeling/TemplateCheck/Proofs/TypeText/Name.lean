import TemplateCheck.Proofs.Pattern.Replace
import TemplateCheck.Proofs.TypeText.Comparison
import TemplateCheck.Proofs.TypeText.Literal

/-!
# Names among types

An identifier is read as a name and as nothing else, unless it is one of the words that are
understood without a declaration (`FreeName`): it is no union, no array, no function and no literal,
and it is not known. So one level of a comparison with a name comes down to what the name and the
type on the other side are resolved to (`compareSingle_name_left`, `compareSingle_name_right`).

A name that is resolved to nothing goes with every type, on either side (`isAssignable_unresolved`):
where both types are followed to their end, the name still stands there, and it is not known.
-/

namespace TemplateCheck

namespace TypeText

open Text

/-! ## Identifiers -/

section

variable {name : Text} (hName : name.isIdentifier = true)

include hName

theorem not_mem_of_isIdentifier {c : Char} (hc : isNameChar c = false) : c ∉ name := fun hMem =>
  ne_of_class (isNameChar_of_isIdentifier hName c hMem) hc rfl

theorem ne_nil_of_isIdentifier : name ≠ [] := by
  rintro rfl
  cases hName

theorem isNameStart_of_isIdentifier : ∀ c ∈ name.head?, isNameStart c = true := by
  obtain ⟨c, later, rfl, hc, -⟩ := exists_cons_of_isIdentifier hName
  rintro d ⟨⟩
  exact hc

theorem isBlank_of_isIdentifier : ∀ c ∈ name, isBlank c = false := fun c hc =>
  isBlank_of_isNameChar (isNameChar_of_isIdentifier hName c hc)

theorem trimmed_of_isIdentifier : name.Trimmed where
  head c hc := isBlank_of_isIdentifier hName c (List.mem_of_mem_head? hc)
  last c hc := isBlank_of_isIdentifier hName c (List.mem_of_getLast? hc)

theorem normalize_of_isIdentifier : normalize name = name := by
  refine normalize_eq_of_collapse (collapseFrom_eq_self (isBlank_of_isIdentifier hName) false)
    (trimmed_of_isIdentifier hName) ?_ ?_
  · exact fun hLast => not_mem_of_isIdentifier hName (by decide) (List.mem_of_getLast? hLast)
  · exact fun hHead => not_mem_of_isIdentifier hName (by decide) (List.mem_of_mem_head? hHead)

theorem stripParens_of_isIdentifier : stripParens name = name :=
  stripParens_eq_self (trimmed_of_isIdentifier hName) fun hLast =>
    not_mem_of_isIdentifier hName (by decide) (List.mem_of_getLast? hLast)

theorem topLevelParts_of_isIdentifier {separator : Char}
    (hSeparator : isNameChar separator = false) :
    topLevelParts [separator] name = [name] := by
  refine topLevelParts_of_uncut (uncut_of_forall (fun c hc => decide_eq_false ?_) none 0)
    (trimmed_of_isIdentifier hName) (ne_nil_of_isIdentifier hName)
  exact ne_of_class (isNameChar_of_isIdentifier hName c hc) hSeparator

theorem isArray_of_isIdentifier : isArray name = false := by
  refine isArray_eq_false (fun hLast => ?_) (not_mem_of_isIdentifier hName (by decide)) ?_
  · exact not_mem_of_isIdentifier hName (by decide) (List.mem_of_getLast? hLast)
  · exact startsWith_eq_false_of_not_mem (c := ' ') (by decide)
      (not_mem_of_isIdentifier hName (by decide))

theorem isFunction_of_isIdentifier : isFunction name = false := by
  refine isFunction_eq_false (not_mem_of_isIdentifier hName (by decide)) ?_ fun hHead => ?_
  · exact startsWith_eq_false_of_not_mem (c := ' ') (by decide)
      (not_mem_of_isIdentifier hName (by decide))
  · exact not_mem_of_isIdentifier hName (by decide) (List.mem_of_mem_head? hHead)

end

theorem isNumberStart_of_isNumberLiteral {t : Text} (h : isNumberLiteral t = true) :
    ∃ c ∈ t.head?, isNumberStart c = true := by
  obtain ⟨last, hReads⟩ := Pattern.exists_reads_of_accepts h
  obtain ⟨a, hSign, hReads⟩ := hReads.seq_inv
  obtain ⟨b, hMagnitude, -⟩ := hReads.seq_inv
  rcases hSign.opt_inv with hSign | rfl
  · exact ⟨'-', by rw [show t = _ from hSign.lit_inv.1]; rfl, by decide⟩
  cases hMagnitude with
  | left _ hBased =>
    obtain ⟨_, hZero, -⟩ := hBased.seq_inv
    exact ⟨'0', by rw [show t = _ from hZero.lit_inv.1]; rfl, by decide⟩
  | right _ hMagnitude =>
    cases hMagnitude with
    | left _ hWhole =>
      obtain ⟨_, hDigit, -⟩ := hWhole.seq_inv
      cases hDigit with
      | @char _ _ c rest hRest hDecimal =>
        exact ⟨c, by rw [show t = _ from hRest]; rfl, isNumberStart_of_isDecimal hDecimal⟩
    | right _ hPoint =>
      obtain ⟨_, hPoint, -⟩ := hPoint.seq_inv
      exact ⟨'.', by rw [show t = _ from hPoint.lit_inv.1]; rfl, by decide⟩

/-! ## Free names -/

/-- The words that are understood without a declaration. -/
def plainWords : List Text :=
  "object" :: "Function" :: "true" :: "false" :: (primitives ++ topTypes)

/-- An identifier that is free to name a declared type. -/
structure FreeName (name : Text) : Prop where
  isIdentifier : name.isIdentifier = true
  not_plain : name ∉ plainWords

namespace FreeName

variable {name : Text} (h : FreeName name)

include h

theorem not_mem {words : List Text} (hWords : ∀ word ∈ words, word ∈ plainWords) : name ∉ words :=
  fun hMem => h.not_plain (hWords name hMem)

theorem ne (word : Text) (hWord : word ∈ plainWords) : name ≠ word := by
  rintro rfl
  exact h.not_plain hWord

theorem not_primitive : name ∉ primitives := h.not_mem (by decide)

theorem not_top : name ∉ topTypes := h.not_mem (by decide)

theorem not_isUnion : ¬ IsUnion name := by
  unfold IsUnion unionParts
  rw [topLevelParts_of_isIdentifier h.isIdentifier (by decide)]
  exact Nat.lt_irrefl 1

theorem literalKind?_eq : literalKind? name = none := by
  have hStart := isNameStart_of_isIdentifier h.isIdentifier
  have hString : isStringLiteral name = false := by
    cases name with
    | nil => rfl
    | cons quote t =>
      have hQuote : ∀ c, isNameStart c = false → ¬ quote = c :=
        fun c hc => ne_of_class (hStart quote rfl) hc
      rw [isStringLiteral, decide_eq_false (hQuote '"' (by decide)),
        decide_eq_false (hQuote '\'' (by decide))]
      rfl
  have hTemplate : isTemplateLiteral name = false := by
    rw [isTemplateLiteral, decide_eq_false fun hHead => ?_, Bool.false_and]
    exact not_mem_of_isIdentifier h.isIdentifier (by decide) (List.mem_of_mem_head? hHead)
  have hNumber : isNumberLiteral name = false := by
    refine Bool.eq_false_iff.mpr fun hNumber => ?_
    obtain ⟨c, hc, hNumberStart⟩ := isNumberStart_of_isNumberLiteral hNumber
    exact ne_of_class (hStart c hc) (isNameStart_of_isNumberStart hNumberStart) rfl
  have hTruth : ¬ (name = "true" ∨ name = "false") :=
    not_or.mpr ⟨h.ne _ (by decide), h.ne _ (by decide)⟩
  rw [literalKind?, hString, hTemplate, hNumber, if_neg hTruth]
  rfl

theorem isKnown_eq : isKnown name = false := by
  have hPlain : ¬ (name ∈ primitives ∨ name = "object" ∨ name = "Function" ∨
      (literalKind? name).isSome = true) := by
    rw [h.literalKind?_eq]
    rintro (hMem | hEq | hEq | hKind)
    · exact h.not_primitive hMem
    · exact h.ne _ (by decide) hEq
    · exact h.ne _ (by decide) hEq
    · cases hKind
  rw [isKnown, isKnownUpTo, if_neg hPlain, isArray_of_isIdentifier h.isIdentifier,
    if_neg Bool.false_ne_true, isFunction_of_isIdentifier h.isIdentifier]

end FreeName

/-! ## Comparing a name -/

section

variable {program : Program} {again : TypeRef → TypeRef → Bool} {name : Text} (h : FreeName name)
  (file file' : Option Text) (t : Text)

include h

/-- A name on the left goes with three words whatever it is resolved to. -/
theorem compareSingle_name_left : compareSingle program again ⟨name, file⟩ ⟨t, file'⟩ =
    if t ∈ ["boolean".toList, "void".toList, "object".toList] then true
    else compareResolved program again ⟨name, file⟩ ⟨t, file'⟩ true := by
  have hLiteral : literalAgainst? name t = none := by
    rw [literalAgainst?, h.literalKind?_eq, Option.bind_none]
  unfold compareSingle
  simp only [h.isKnown_eq, hLiteral, isArray_of_isIdentifier h.isIdentifier,
    isFunction_of_isIdentifier h.isIdentifier, h.literalKind?_eq, h.not_primitive, List.mem_cons,
    List.not_mem_nil, or_false, Bool.not_false, Bool.or_true, Bool.false_and,
    Bool.false_eq_true, if_false, not_false_eq_true, decide_true, Option.isNone_none, Bool.and_self]
  by_cases hBoolean : t = "boolean"
  · rw [if_pos hBoolean, if_pos (.inl hBoolean)]
  by_cases hVoid : t = "void"
  · rw [if_neg hBoolean, if_pos hVoid, if_pos (.inr (.inl hVoid))]
  by_cases hObject : t = "object"
  · rw [if_neg hBoolean, if_neg hVoid, if_pos hObject, if_pos (.inr (.inr hObject))]
  · rw [if_neg hBoolean, if_neg hVoid, if_neg hObject,
      if_neg (by simp only [hBoolean, hVoid, hObject, or_self,
      not_false_eq_true])]

/-- A name on the right is compared by what it is resolved to. -/
theorem compareSingle_name_right (s : Text) : compareSingle program again ⟨s, file'⟩ ⟨name, file⟩ =
    compareResolved program again ⟨s, file'⟩ ⟨name, file⟩ true := by
  have hLiteral : literalAgainst? s name = none := by
    rw [literalAgainst?, h.literalKind?_eq]
    cases literalKind? s with
    | none => rfl
    | some kind =>
      simp only [Option.bind_some, Option.isSome_none, Bool.false_eq_true, if_false,
        h.not_primitive, h.ne "object" (by decide), h.ne "Function" (by decide),
        isArray_of_isIdentifier h.isIdentifier, isFunction_of_isIdentifier h.isIdentifier, or_self]
  unfold compareSingle
  simp only [h.ne "boolean" (by decide), h.ne "void" (by decide),
    h.ne "object" (by decide), h.ne "Function" (by decide), hLiteral, h.isKnown_eq,
    isArray_of_isIdentifier h.isIdentifier, isFunction_of_isIdentifier h.isIdentifier, if_false,
    Bool.and_false, Bool.false_eq_true, decide_false, Bool.or_self, Bool.not_false]

end

/-! ## Unresolved names -/

section

variable {program : Program} {name : Text} (h : FreeName name) {file : Option Text}
  (hUnresolved : resolve? program ⟨name, file⟩ = none)

include h hUnresolved

theorem assignableUpTo_unresolved_left (depth : Nat) (t : Text) (file' : Option Text) :
    assignableUpTo program depth ⟨name, file⟩ ⟨t, file'⟩ = true := by
  induction depth generalizing t file' with
  | zero => rfl
  | succ depth ih =>
    have hName := stripParens_of_isIdentifier h.isIdentifier
    by_cases hAtOnce : GoAtOnce (stripParens name) (stripParens t)
    · exact assignableUpTo_of_goAtOnce _ _ _ _ hAtOnce
    have hSource : ¬ IsUnion (stripParens name) := by
      rw [hName]
      exact h.not_isUnion
    by_cases hTarget : IsUnion (stripParens t)
    · -- A union has a member, and the name goes with it.
      rw [assignableUpTo_union_right program depth file file' hAtOnce hSource hTarget, hName]
      obtain ⟨part, hPart⟩ := List.exists_mem_of_length_pos (Nat.lt_of_succ_lt hTarget)
      exact ⟨part, hPart, ih part file'⟩
    · rw [assignableUpTo_single program depth file file' hAtOnce hSource hTarget, hName,
        compareSingle_name_left h]
      split_ifs
      · rfl
      · cases hExpanded : resolve? program ⟨stripParens t, file'⟩ with
        | some expanded =>
          rw [compareResolved_right _ _ hExpanded]
          exact ih _ _
        | none => rw [compareResolved_none _ _ hExpanded hUnresolved]

theorem assignableUpTo_unresolved_right (depth : Nat) (s : Text) (file' : Option Text) :
    assignableUpTo program depth ⟨s, file'⟩ ⟨name, file⟩ = true := by
  induction depth generalizing s file' with
  | zero => rfl
  | succ depth ih =>
    have hName := stripParens_of_isIdentifier h.isIdentifier
    by_cases hAtOnce : GoAtOnce (stripParens s) (stripParens name)
    · exact assignableUpTo_of_goAtOnce _ _ _ _ hAtOnce
    have hTarget : ¬ IsUnion (stripParens name) := by
      rw [hName]
      exact h.not_isUnion
    by_cases hSource : IsUnion (stripParens s)
    · rw [assignableUpTo_union_left program depth file' file hAtOnce hSource, hName]
      exact fun part _ => ih part file'
    · rw [assignableUpTo_single program depth file' file hAtOnce hSource hTarget, hName,
        compareSingle_name_right h]
      cases hExpanded : resolve? program ⟨stripParens s, file'⟩ with
      | some expanded =>
        rw [compareResolved_left _ _ hUnresolved hExpanded]
        exact ih _ _
      | none => rw [compareResolved_none _ _ hUnresolved hExpanded]

end

/-- A name that is resolved to nothing goes with every type, and every type goes with it. -/
theorem isAssignable_unresolved {program : Program} {name : Text} (hName : name.isIdentifier = true)
    (hPlain : name ∉ plainWords) {file : Option Text}
    (hUnresolved : resolve? program ⟨name, file⟩ = none) (type : TypeRef) :
    isAssignable program ⟨name, file⟩ type = true ∧
    isAssignable program type ⟨name, file⟩ = true := by
  have h : FreeName name := ⟨hName, hPlain⟩
  unfold isAssignable
  dsimp only
  rw [normalize_of_isIdentifier hName]
  exact ⟨assignableUpTo_unresolved_left h hUnresolved _ _ _,
    assignableUpTo_unresolved_right h hUnresolved _ _ _⟩

theorem isAssignable_unresolved_loop :
    let program : Program := .ofFiles {} [("a.ts", "type Loop = Loop[] | 'x';")]
    let name : TypeRef := ⟨"Missing", some "a.ts"⟩
    let type : TypeRef := ⟨"Loop", some "a.ts"⟩
    Text.isIdentifier name.text = true ∧ name.text ∉ plainWords ∧ resolve? program name = none ∧
      isAssignable program name type = true ∧ isAssignable program type name = true := by
  intro program name type
  have hIdentifier : Text.isIdentifier name.text = true := by decide
  have hPlain : name.text ∉ plainWords := by decide
  have hUnresolved : resolve? program name = none := by decide +kernel
  exact ⟨hIdentifier, hPlain, hUnresolved,
    isAssignable_unresolved hIdentifier hPlain hUnresolved type⟩

end TypeText

end TemplateCheck
