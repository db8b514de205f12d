import TemplateCheck.Proofs.TypeText.Settled

/-!
# Closed types

A closed type is made of primitive types, literals and arrays, and at the top level of unions
(`ClosedType`). Its text is printed with any spelling of each array. The relation between closed
types is given by rules (`Element.Below`, `ClosedType.Below`): which type goes with which does not
depend on spellings.

Assignability decides this relation (`isAssignable_print`), in every program that keeps the names of
the truth values. Two arrays are compared one level at a time, so the proof is an induction on the
element type, with one step of the comparison for each pair of classes (`compare`). Two of the nine
levels to which types are followed go to the unions and one to the innermost elements: this is where
the bound of six comes from.
-/

namespace TemplateCheck

namespace TypeText

open Text

/-! ## Types and their texts -/

/-- The primitive types. -/
inductive Primitive where
  | string
  | number
  | boolean
  | bigint
  | symbol
  | null
  | undefined
  | void
  | never
deriving DecidableEq, Repr

/-- The name of a primitive type. -/
def Primitive.print : Primitive → Text
  | string => "string"
  | number => "number"
  | boolean => "boolean"
  | bigint => "bigint"
  | symbol => "symbol"
  | null => "null"
  | undefined => "undefined"
  | void => "void"
  | never => "never"

/-- The primitive type of a kind of literals. -/
def Primitive.ofKind : LiteralKind → Primitive
  | .string => string
  | .number => number
  | .bigint => bigint
  | .boolean => boolean

/-- A type that is no union. -/
inductive Element where
  | primitive (name : Primitive)
  | literal (value : Literal)
  | array (spelling : ArraySpelling) (element : Element)

namespace Element

/-- Whether the text begins with the word `readonly`, so that brackets after it need parentheses. -/
def isReadonly : Element → Bool
  | array .readonlyBrackets _ => true
  | _ => false

/-- The text of a type. -/
def print : Element → Text
  | primitive name => name.print
  | literal value => value.print
  | array spelling element => spelling.write element.isReadonly element.print

/-- How many arrays are nested. -/
def depth : Element → Nat
  | primitive _ | literal _ => 0
  | array _ element => element.depth + 1

/-- A value of the first type is one of the second. -/
inductive Below : Element → Element → Prop
  | never (target : Element) : Below (.primitive .never) target
  | refl (name : Primitive) : Below (.primitive name) (.primitive name)
  | undefined_void : Below (.primitive .undefined) (.primitive .void)
  | same {source target : Literal} (same : source.Same target) :
      Below (.literal source) (.literal target)
  | widen (source : Literal) : Below (.literal source) (.primitive (.ofKind source.kind))
  | array {source target : Element} (spelling spelling' : ArraySpelling)
      (elements : Below source target) : Below (.array spelling source) (.array spelling' target)

end Element

/-- A type, or a union of two or more, of arrays that are nested at most six deep. -/
structure ClosedType where
  first : Element
  others : List Element
  depth_le : ∀ member ∈ first :: others, member.depth ≤ 6

namespace ClosedType

/-- The members of a union; a type that is no union has one. -/
def members (type : ClosedType) : List Element := type.first :: type.others

/-- The text of a type. -/
def print (type : ClosedType) : Text := join " | " (type.members.map Element.print)

/-- Each member of the first type is below a member of the second. -/
def Below (source target : ClosedType) : Prop :=
  ∀ s ∈ source.members, ∃ t ∈ target.members, s.Below t

end ClosedType

/-! ## Elements are settled -/

namespace Primitive

variable (primitive : Primitive)

theorem print_mem : primitive.print ∈ primitives := by
  cases primitive <;> decide

theorem print_injective : Function.Injective print := by
  intro primitive other h
  revert h
  cases primitive <;> cases other <;> decide

theorem atomText_print : AtomText primitive.print := by
  cases primitive <;> exact ⟨by decide, by decide, by decide, by decide⟩

theorem literalKind?_print : literalKind? primitive.print = none := by
  cases primitive <;> decide

theorem print_ofKind (kind : LiteralKind) : (ofKind kind).print = kind.name := by
  cases kind <;> rfl

end Primitive

namespace Element

theorem elementText_print (element : Element) : ElementText element.print ∧ '|' ∉ element.print ∧
    (element.isReadonly = false → Bare element.print) := by
  induction element with
  | primitive name =>
    have hAtom := name.atomText_print
    exact ⟨hAtom.elementText, hAtom.bare.not_union, fun _ => hAtom.bare⟩
  | literal value =>
    have hAtom := value.atomText_print
    exact ⟨hAtom.elementText, hAtom.bare.not_union, fun _ => hAtom.bare⟩
  | array spelling element ih =>
    obtain ⟨hText, hBar, hBare⟩ := ih
    refine ⟨spelling.elementText_write hText hBare, spelling.bar_not_mem_write hBar,
      fun hReadonly => ?_⟩
    refine spelling.bare_write hText hBare ?_ hBar
    rintro rfl
    cases hReadonly

variable (element : Element)

theorem isArray_print_array (spelling : ArraySpelling) :
    isArray (array spelling element).print = true :=
  spelling.isArray_write element.elementText_print.1

theorem literalKind?_print_array (spelling : ArraySpelling) :
    literalKind? (array spelling element).print = none :=
  spelling.literalKind?_write

theorem elementType_print_array (spelling : ArraySpelling) :
    elementType (array spelling element).print = element.print :=
  spelling.elementType_write element.elementText_print.1 element.elementText_print.2.2

theorem settled_print {program : Program} (h : program.KeepsTruth) (file : Option Text) :
    Settled program file element.print := by
  have hText := element.elementText_print.1
  have hParts : unionParts element.print = [element.print] := by
    refine topLevelParts_of_uncut (uncut_of_forall (fun c hc => decide_eq_false ?_) _ _)
      hText.trimmed hText.ne_nil
    rintro rfl
    exact element.elementText_print.2.1 hc
  cases element with
  | primitive name =>
    refine ⟨hText, hParts, ?_, ?_, resolve?_eq_none_of_mem name.print_mem⟩
    · cases name <;> decide
    · cases name <;> decide
  | literal value =>
    have hKind := value.literalKind?_print
    refine ⟨hText, hParts, fun hMem => ?_, ne_of_literalKind? hKind (by decide),
      value.resolve?_print h file⟩
    rcases List.mem_pair.mp hMem with hEq | hEq
    · exact ne_of_literalKind? hKind (by decide) hEq
    · exact ne_of_literalKind? hKind (by decide) hEq
  | array spelling element =>
    obtain ⟨-, hTop, hObject, -⟩ := not_mem_of_isArray (isArray_print_array element spelling)
    exact ⟨hText, hParts, hTop, hObject, spelling.resolve?_write program file⟩

theorem isKnownUpTo_print {bound : Nat} (hBound : element.print.length < bound) :
    isKnownUpTo bound element.print = true := by
  induction element generalizing bound with
  | primitive name => exact isKnownUpTo_of_mem name.print_mem (by omega)
  | literal value => exact isKnownUpTo_of_literal value.literalKind?_print (by omega)
  | array spelling element ih =>
    obtain ⟨bound, rfl⟩ : ∃ less, bound = less + 1 := ⟨bound - 1, by omega⟩
    rw [isKnownUpTo_of_isArray (isArray_print_array element spelling)
      (literalKind?_print_array element spelling), elementType_print_array]
    have hLess : element.print.length < (array spelling element).print.length :=
      spelling.length_lt_write
    exact ih (by omega)

theorem isKnown_print : isKnown element.print = true :=
  element.isKnownUpTo_print (Nat.lt_succ_self _)

/-! ## Elements are compared -/

theorem isArray_print_primitive (name : Primitive) : isArray (primitive name).print = false :=
  name.atomText_print.isArray_eq

theorem isArray_print_literal (value : Literal) : isArray (literal value).print = false :=
  value.atomText_print.isArray_eq

theorem eq_of_print_eq_primitive {element : Element} (name : Primitive)
    (h : element.print = name.print) : element = primitive name := by
  cases element with
  | primitive other => rw [Primitive.print_injective h]
  | literal value =>
    exact absurd h (ne_of_literalKind? value.literalKind?_print name.literalKind?_print)
  | array spelling element =>
    have hArray := isArray_print_array element spelling
    rw [h, show isArray name.print = false from isArray_print_primitive name] at hArray
    cases hArray

variable {element} {target : Element} {elements : Bool}

theorem compare_primitive (name : Primitive) :
    compare (primitive name).print target.print elements = true ↔
    (primitive name).Below target := by
  have hArrays : (isArray (primitive name).print && isArray target.print) = false := by
    rw [isArray_print_primitive, Bool.false_and]
  have hKind : literalKind? (primitive name).print = none := name.literalKind?_print
  rw [compare_known (isKnown_print _) (isKnown_print _) hKind hArrays]
  constructor
  · rintro (hEq | hNever | ⟨hUndefined, hVoid⟩)
    · rw [eq_of_print_eq_primitive name hEq.symm]
      exact .refl name
    · obtain rfl : name = .never := Primitive.print_injective hNever
      exact .never target
    · obtain rfl : name = .undefined := Primitive.print_injective hUndefined
      rw [eq_of_print_eq_primitive .void hVoid]
      exact .undefined_void
  · intro hBelow
    cases hBelow with
    | never => exact .inr (.inl rfl)
    | refl => exact .inl rfl
    | undefined_void => exact .inr (.inr ⟨rfl, rfl⟩)

theorem compare_literal (value : Literal) :
    compare (literal value).print target.print elements = true ↔ (literal value).Below target := by
  have hKind : literalKind? (literal value).print = some value.kind := value.literalKind?_print
  cases target with
  | primitive name =>
    have hName : (primitive name).print ∈ primitives := name.print_mem
    rw [compare_literal_primitive hKind hName, ← Primitive.print_ofKind]
    constructor
    · intro hName
      rw [← Primitive.print_injective hName]
      exact .widen value
    · intro hBelow
      cases hBelow with
      | widen => rfl
  | literal other =>
    rw [compare_literals hKind (show literalKind? (literal other).print = some other.kind from
      other.literalKind?_print)]
    constructor
    · rintro (hEq | hSame)
      · exact .same (Literal.same_of_print_eq hEq)
      · exact .same (Literal.sameLiteral_print.mp hSame)
    · intro hBelow
      cases hBelow with
      | same hSame => exact .inr (Literal.sameLiteral_print.mpr hSame)
  | array spelling element =>
    rw [compare_literal_array hKind (isArray_print_array element spelling)
      (literalKind?_print_array element spelling)]
    exact iff_of_false Bool.false_ne_true nofun

theorem compare_array {spelling : ArraySpelling} (hTarget : isArray target.print = false) :
    compare (array spelling element).print target.print elements = false := by
  have hArray := isArray_print_array element spelling
  have hNe : ∀ t : Text, isArray t = false → (array spelling element).print ≠ t := by
    rintro t ht rfl
    rw [hArray] at ht
    cases ht
  refine Bool.eq_false_iff.mpr fun hCompare => ?_
  rw [compare_known (isKnown_print _) (isKnown_print _) (literalKind?_print_array element spelling)
    (by rw [hTarget, Bool.and_false])] at hCompare
  rcases hCompare with hEq | hNever | ⟨hUndefined, -⟩
  · exact hNe _ hTarget hEq
  · exact hNe _ (by decide) hNever
  · exact hNe _ (by decide) hUndefined

theorem assignableUpTo_self (program : Program) (bound : Nat) (t : Text)
    (file file' : Option Text) :
    assignableUpTo program bound ⟨t, file⟩ ⟨t, file'⟩ = true := by
  cases bound with
  | zero => rfl
  | succ bound => exact if_pos (.inl rfl)

/-- Assignability of elements is the relation, if their arrays are not nested too deep. -/
theorem assignableUpTo_print {program : Program} (h : program.KeepsTruth) {source target : Element}
    (file file' : Option Text) {bound : Nat} (hBound : source.depth < bound) :
    assignableUpTo program bound ⟨source.print, file⟩ ⟨target.print, file'⟩ = true ↔
      source.Below target := by
  induction source generalizing target bound with
  | primitive name =>
    obtain ⟨bound, rfl⟩ : ∃ less, bound = less + 1 := ⟨bound - 1, by omega⟩
    rw [assignableUpTo_settled (settled_print _ h file) (settled_print _ h file'),
      compare_primitive]
  | literal value =>
    obtain ⟨bound, rfl⟩ : ∃ less, bound = less + 1 := ⟨bound - 1, by omega⟩
    rw [assignableUpTo_settled (settled_print _ h file) (settled_print _ h file'), compare_literal]
  | array spelling element ih =>
    obtain ⟨bound, rfl⟩ : ∃ less, bound = less + 1 := ⟨bound - 1, by omega⟩
    have hElement : element.depth < bound := Nat.lt_of_succ_lt_succ hBound
    rw [assignableUpTo_settled (settled_print _ h file) (settled_print _ h file')]
    cases target with
    | primitive name =>
      rw [compare_array (isArray_print_primitive name)]
      exact iff_of_false Bool.false_ne_true nofun
    | literal value =>
      rw [compare_array (isArray_print_literal value)]
      exact iff_of_false Bool.false_ne_true nofun
    | array spelling' element' =>
      rw [compare_arrays (isArray_print_array element spelling)
        (isArray_print_array element' spelling')
        (literalKind?_print_array element spelling), elementType_print_array,
        elementType_print_array]
      constructor
      · rintro (hEq | hElements)
        · -- Equal texts have equal element types, which go together at any depth.
          have hSame : element.print = element'.print := by
            rw [← elementType_print_array element spelling, hEq, elementType_print_array]
          refine .array _ _ ((ih hElement).mp ?_)
          rw [hSame]
          exact assignableUpTo_self program bound _ file file'
        · exact .array _ _ ((ih hElement).mp hElements)
      · intro hBelow
        cases hBelow with
        | array _ _ hElements => exact .inr ((ih hElement).mpr hElements)

end Element

/-! ## Unions -/

namespace ClosedType

variable (type : ClosedType)

theorem isPart_print {t : Text} (h : t ∈ type.members.map Element.print) : t.IsPart '|' := by
  obtain ⟨element, -, rfl⟩ := List.mem_map.mp h
  obtain ⟨hText, hBar, -⟩ := element.elementText_print
  exact ⟨hText.balanced, hText.trimmed, hText.ne_nil, hBar⟩

theorem unionParts_print : unionParts type.print = type.members.map Element.print :=
  unionParts_join (List.cons_ne_nil _ _) fun _ => type.isPart_print

theorem elementText_print : ElementText type.print := by
  refine .join (List.cons_ne_nil _ _) fun part hPart => ?_
  obtain ⟨element, -, rfl⟩ := List.mem_map.mp hPart
  refine ⟨element.elementText_print.1, fun hNew => ?_⟩
  have hKnown := element.isKnown_print
  rw [hNew] at hKnown
  cases hKnown

theorem print_of_others_eq_nil {type : ClosedType} (h : type.others = []) :
    type.print = type.first.print ∧ type.members = [type.first] := by
  unfold print members
  rw [h]
  exact ⟨rfl, rfl⟩

theorem length_unionParts_print {type : ClosedType} (h : type.others ≠ []) :
    1 < (unionParts type.print).length := by
  rw [unionParts_print, List.length_map]
  exact Nat.succ_lt_succ (List.length_pos_iff.mpr h)

theorem print_ne {type : ClosedType} (h : type.others ≠ []) {t : Text} (ht : unionParts t = [t]) :
    type.print ≠ t := by
  rintro rfl
  have hLength := length_unionParts_print h
  rw [ht] at hLength
  exact Nat.lt_irrefl 1 hLength

theorem not_mem_topTypes {type : ClosedType} (h : type.others ≠ []) : type.print ∉ topTypes := by
  intro hMem
  rcases List.mem_pair.mp hMem with hEq | hEq
  · exact print_ne h (by decide) hEq
  · exact print_ne h (by decide) hEq

section

variable {program : Program} (h : program.KeepsTruth) (file file' : Option Text)

include h

theorem assignableUpTo_print_member {source : Element} {target : ClosedType} {bound : Nat}
    (hBound : source.depth + 1 < bound) :
    assignableUpTo program bound ⟨source.print, file⟩ ⟨target.print, file'⟩ = true ↔
      ∃ t ∈ target.members, source.Below t := by
  by_cases hUnion : target.others = []
  · obtain ⟨hPrint, hMembers⟩ := print_of_others_eq_nil hUnion
    rw [hPrint, hMembers, source.assignableUpTo_print h file file' (by omega)]
    simp
  obtain ⟨bound, rfl⟩ : ∃ less, bound = less + 1 := ⟨bound - 1, by omega⟩
  have hSource := source.settled_print h file
  have hNe : source.print ≠ target.print := (print_ne hUnion hSource.unionParts_eq).symm
  by_cases hNever : source.print = "never"
  · obtain rfl := Element.eq_of_print_eq_primitive .never hNever
    exact iff_of_true (if_pos (.inr (.inr (.inr rfl)))) ⟨target.first, List.mem_cons_self, .never _⟩
  have hStep : assignableUpTo program (bound + 1) ⟨source.print, file⟩ ⟨target.print, file'⟩ =
      (unionParts target.print).any fun part =>
        assignableUpTo program bound ⟨source.print, file⟩ ⟨part, file'⟩ := by
    rw [assignableUpTo]
    dsimp only
    rw [hSource.stripParens_eq, target.elementText_print.stripParens_eq,
      hSource.unionParts_eq, if_neg, if_neg (show ¬ 1 < [source.print].length from Nat.lt_irrefl 1),
      if_pos (length_unionParts_print hUnion)]
    rintro (hEq | hTop | hTop | hEq)
    exacts [hNe hEq, not_mem_topTypes hUnion hTop, hSource.not_top hTop, hNever hEq]
  rw [hStep, unionParts_print, List.any_map, List.any_eq_true]
  refine exists_congr fun t => and_congr_right fun _ => ?_
  exact source.assignableUpTo_print h file file' (by omega)

/-- A union goes with a type if all its members do. -/
theorem assignableUpTo_print {source target : ClosedType} {bound : Nat}
    (hBound : ∀ s ∈ source.members, s.depth + 2 < bound) :
    assignableUpTo program bound ⟨source.print, file⟩ ⟨target.print, file'⟩ = true ↔
      source.Below target := by
  by_cases hUnion : source.others = []
  · obtain ⟨hPrint, hMembers⟩ := print_of_others_eq_nil hUnion
    have hFirst := hBound source.first List.mem_cons_self
    rw [Below, hPrint, hMembers, assignableUpTo_print_member h file file' (by omega)]
    simp
  obtain ⟨bound, rfl⟩ : ∃ less, bound = less + 1 :=
    ⟨bound - 1, by have := hBound source.first List.mem_cons_self; omega⟩
  by_cases hEq : source.print = target.print
  · refine iff_of_true (if_pos (.inl (by rw [hEq]))) fun s hs => ?_
    -- The members are found again on both sides, so each of them has its text on the other side.
    have hMem : s.print ∈ target.members.map Element.print := by
      rw [← unionParts_print, ← hEq, unionParts_print]
      exact List.mem_map_of_mem hs
    obtain ⟨t, ht, hSame⟩ := List.mem_map.mp hMem
    refine ⟨t, ht, (s.assignableUpTo_print h file file' (Nat.lt_succ_self _)).mp ?_⟩
    rw [hSame]
    exact Element.assignableUpTo_self program _ _ file file'
  have hTarget : target.print ∉ topTypes := by
    by_cases hOthers : target.others = []
    · rw [(print_of_others_eq_nil hOthers).1]
      exact (target.first.settled_print h file').not_top
    · exact not_mem_topTypes hOthers
  have hStep : assignableUpTo program (bound + 1) ⟨source.print, file⟩ ⟨target.print, file'⟩ =
      (unionParts source.print).all fun part =>
        assignableUpTo program bound ⟨part, file⟩ ⟨target.print, file'⟩ := by
    rw [assignableUpTo]
    dsimp only
    rw [source.elementText_print.stripParens_eq, target.elementText_print.stripParens_eq, if_neg,
      if_pos (length_unionParts_print hUnion)]
    rintro (h | hTop | hTop | hNever)
    exacts [hEq h, hTarget hTop, not_mem_topTypes hUnion hTop, print_ne hUnion (by decide) hNever]
  rw [hStep, unionParts_print, List.all_map, List.all_eq_true]
  refine forall_congr' fun s => imp_congr_right fun hs => ?_
  have hDepth := hBound s hs
  exact assignableUpTo_print_member h file file' (by omega)

end

/-- Assignability decides the relation between closed types, however they are spelled. -/
theorem isAssignable_print {program : Program} (h : program.KeepsTruth) (source target : ClosedType)
    (file file' : Option Text) :
    isAssignable program ⟨source.print, file⟩ ⟨target.print, file'⟩ = true ↔
    source.Below target := by
  unfold isAssignable
  rw [source.elementText_print.normalize_eq, target.elementText_print.normalize_eq]
  refine assignableUpTo_print h file file' fun s hs => ?_
  have hDepth := source.depth_le s hs
  show s.depth + 2 < 9
  omega

theorem isAssignable_print_nested :
    let label : Element := .literal (.string .single "a-b" (by decide))
    let source : ClosedType :=
      ⟨label, [.array .brackets (.array .readonlyBrackets (.primitive .number))], by decide⟩
    let target : ClosedType :=
      ⟨.primitive .string,
        [.array .generic (.array .readonlyGeneric (.primitive .number))], by decide⟩
    source.print = "'a-b' | (readonly number[])[]" ∧
      target.print = "string | Array<ReadonlyArray<number>>" ∧
      isAssignable (.ofFiles {} [("a.ts".toList, "import {Foo} from \"./b\"".toList)])
        ⟨source.print, some "a.ts"⟩ ⟨target.print, none⟩ = true := by
  refine ⟨by decide, by decide, (isAssignable_print (by decide +kernel) _ _ _ _).mpr ?_⟩
  refine List.forall_mem_cons.mpr ⟨⟨_, List.mem_cons_self, .widen _⟩, ?_⟩
  refine List.forall_mem_singleton.mpr ⟨_, List.mem_cons_of_mem _ List.mem_cons_self, ?_⟩
  exact .array _ _ (.array _ _ (.refl _))

/-- An import that brings another name in under the name of a truth value is followed, and a number
that begins with a point and has an exponent is not read as a number. -/
theorem isAssignable_print_renamed :
    let program : Program := .ofFiles {} [
      ("a.ts".toList, "import {Foo as true} from \"./b\"".toList),
      ("b.ts".toList, "export type Foo = string".toList)]
    let source : ClosedType := ⟨.primitive .string, [], by decide⟩
    let target : ClosedType := ⟨.literal (.boolean true), [], by decide⟩
    (∀ file ∈ program.sourceFiles, ∀ value : Bool,
        OrderedMap.get? file.typeDeclarations (truthName value) = none) ∧
      isAssignable program ⟨source.print, some "a.ts"⟩ ⟨target.print, some "a.ts"⟩ = true ∧
      ¬ source.Below target ∧
      isAssignable (.empty {}) ⟨".5e3", none⟩ ⟨"string", none⟩ = true := by
  refine ⟨by decide +kernel, by decide +kernel, fun hBelow => ?_, by decide +kernel⟩
  obtain ⟨t, ht, hBelow⟩ := hBelow _ List.mem_cons_self
  rw [List.mem_singleton.mp ht] at hBelow
  cases hBelow

end ClosedType

end TypeText

end TemplateCheck
