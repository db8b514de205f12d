import TemplateCheck.Proofs.TypeText.ClosedType
import TemplateCheck.TypeText.Inference

/-!
# Arrays of unions

Whether a mismatch may be reported depends on whether both types are known, and the test for known
types looks into arrays but not into unions. So an array of a union counts as unknown, whatever its
spelling, although all members of the union are known (`AtomUnion.isKnown_array`).

What follows is stated for unions of two or more primitive types and literals
(`AtomUnion.isAssignable_array`): such an array goes with every primitive type and with every
literal, and every primitive type goes with it. Only a literal is told apart from it. The array that
is read off a mixed array expression has this form (`AtomUnion.arrayType_eq_array`).
-/

namespace TemplateCheck

namespace TypeText

open Text

/-- A primitive type or a literal. -/
inductive Atom where
  | primitive (name : Primitive)
  | literal (value : Literal)

namespace Atom

/-- The text of an atom. -/
def print : Atom → Text
  | primitive name => name.print
  | literal value => value.print

/-- The atom as a type that is no union. -/
def element : Atom → Element
  | primitive name => .primitive name
  | literal value => .literal value

theorem print_element (atom : Atom) : atom.element.print = atom.print := by
  cases atom <;> rfl

theorem atomText_print (atom : Atom) : AtomText atom.print := by
  cases atom with
  | primitive name => exact name.atomText_print
  | literal value => exact value.atomText_print

end Atom

/-- A union of two or more atoms. -/
structure AtomUnion where
  first : Atom
  second : Atom
  others : List Atom

namespace AtomUnion

variable (union : AtomUnion)

/-- The members in order. -/
def members : List Atom := union.first :: union.second :: union.others

/-- The text of a union. -/
def print : Text := join " | " (union.members.map Atom.print)

theorem elementText_print : ElementText union.print := by
  refine .join (List.cons_ne_nil _ _) fun part hPart => ?_
  obtain ⟨atom, -, rfl⟩ := List.mem_map.mp hPart
  exact ⟨atom.atomText_print.elementText, atom.atomText_print.ne_new⟩

theorem unionParts_print : unionParts union.print = union.members.map Atom.print := by
  refine unionParts_join (List.cons_ne_nil _ _) fun part hPart => ?_
  obtain ⟨atom, -, rfl⟩ := List.mem_map.mp hPart
  have hText := atom.atomText_print.elementText
  exact ⟨hText.balanced, hText.trimmed, hText.ne_nil, atom.atomText_print.bare.not_union⟩

theorem print_ne {t : Text} (ht : unionParts t = [t]) : union.print ≠ t := by
  rintro rfl
  have hLength := congrArg List.length ht
  rw [unionParts_print, List.length_map] at hLength
  exact absurd hLength (by simp [members])

theorem not_mem {names : List Text} (hNames : ∀ t ∈ names, unionParts t = [t]) :
    union.print ∉ names :=
  fun hMem => union.print_ne (hNames _ hMem) rfl

theorem exists_print : ∃ rest, union.print = union.first.print ++ ' ' :: '|' :: ' ' :: rest := by
  refine ⟨join " | " ((union.second :: union.others).map Atom.print), ?_⟩
  rw [print, members, List.map_cons, List.map_cons, join, List.append_assoc]
  · rfl
  · simp

theorem chars {c : Char} (hc : c ∈ union.print) : isAtomChar c = true ∨ c = ' ' ∨ c = '|' := by
  have hJoin : ∀ atoms : List Atom, c ∈ join " | " (atoms.map Atom.print) →
      isAtomChar c = true ∨ c = ' ' ∨ c = '|' := by
    intro atoms
    induction atoms with
    | nil => exact nofun
    | cons atom atoms ih =>
      cases atoms with
      | nil => exact fun hMem => .inl (atom.atomText_print.chars c hMem)
      | cons next atoms =>
        rw [List.map_cons, List.map_cons, join]
        · intro hMem
          rcases List.mem_append.mp hMem with hMem | hMem
          · rcases List.mem_append.mp hMem with hMem | hMem
            · exact .inl (atom.atomText_print.chars c hMem)
            · exact .inr ((by decide : ∀ c ∈ " | ".toList, c = ' ' ∨ c = '|') c hMem)
          · exact ih hMem
        · simp
  exact hJoin _ hc

theorem not_mem_of {c : Char} (hc : isAtomChar c = false ∧ c ≠ ' ' ∧ c ≠ '|') :
    c ∉ union.print := by
  intro hMem
  rcases union.chars hMem with h | h | h
  · rw [hc.1] at h
    cases h
  · exact hc.2.1 h
  · exact hc.2.2 h

theorem isArray_print : isArray union.print = false := by
  refine isArray_eq_false (fun hLast => ?_) (union.not_mem_of (by decide)) ?_
  · exact union.not_mem_of (by decide) (List.mem_of_getLast? hLast)
  · obtain ⟨rest, hRest⟩ := union.exists_print
    rw [hRest]
    exact startsWith_word_append "readonly" (by decide)
      union.first.atomText_print.not_readonly union.first.atomText_print.ne_readonly

/-- A quote that is not guarded by a backslash ends a string. -/
theorem guardsQuotes_append {quote : Char} {content rest : Text} (hContent : '\\' ∉ content)
    {previous : Option Char} (hPrevious : previous ≠ some '\\') :
    guardsQuotes quote previous (content ++ quote :: rest) = false := by
  induction content generalizing previous with
  | nil =>
    rw [List.nil_append, guardsQuotes, decide_eq_false (fun h => h rfl), decide_eq_false hPrevious]
    rfl
  | cons c content ih =>
    obtain ⟨hc, hContent⟩ := not_or.mp (List.mem_cons.not.mp hContent)
    rw [List.cons_append, guardsQuotes, ih hContent fun h =>
      hc (Option.some.inj h).symm, Bool.and_false]

theorem isStringLiteral_print : isStringLiteral union.print = false := by
  obtain ⟨rest, hRest⟩ := union.exists_print
  rw [hRest]
  cases hFirst : union.first with
  | primitive name => cases name <;> rfl
  | literal value =>
    have hNumber : ∀ {spelling : Text}, (∃ c ∈ spelling.head?, isNumberStart c = true) →
        isStringLiteral (spelling ++ ' ' :: '|' :: ' ' :: rest) = false := by
      rintro spelling ⟨c, hc, hStart⟩
      refine (Literal.isStringLiteral_eq_false_of_head ⟨c, ?_, hStart⟩).1
      rw [List.head?_append, Option.mem_def.mp hc]
      rfl
    cases value with
    | string quote content plain =>
      have hContent : '\\' ∉ content := fun hMem => absurd (plain _ hMem) (by decide)
      have hDrop : ∀ after : Text, after ≠ [] →
          (content ++ quote.char :: after).dropLast = content ++ quote.char :: after.dropLast := by
        intro after hAfter
        rw [List.dropLast_append_of_ne_nil (List.cons_ne_nil _ _),
          List.dropLast_cons_of_ne_nil hAfter]
      have hText : (Atom.literal (.string quote content plain)).print ++ ' ' :: '|' :: ' ' :: rest =
          quote.char :: (content ++ quote.char :: ' ' :: '|' :: ' ' :: rest) := by
        simp [Atom.print, Literal.print]
      rw [hText, isStringLiteral]
      split_ifs
      · rw [hDrop _ (List.cons_ne_nil _ _), hDrop _ (by simp),
          guardsQuotes_append hContent (Option.some_ne_none _).symm, Bool.and_false]
      · rw [hDrop _ (List.cons_ne_nil _ _),
          guardsQuotes_append hContent (Option.some_ne_none _).symm, Bool.and_false]
    | number spelling hSpelling => exact hNumber hSpelling.head
    | bigint spelling hSpelling => exact hNumber hSpelling.head
    | boolean value => cases value <;> rfl

theorem literalKind?_print : literalKind? union.print = none := by
  have hTemplate : isTemplateLiteral union.print = false := by
    rw [isTemplateLiteral, decide_eq_false fun hHead => ?_, Bool.false_and]
    exact union.not_mem_of (by decide) (List.mem_of_mem_head? hHead)
  have hNumber : isNumberLiteral union.print = false := by
    refine Bool.eq_false_iff.mpr fun hNumber => ?_
    obtain ⟨rest, hRest⟩ := union.exists_print
    have hSpace : ' ' ∈ union.print := by
      rw [hRest]
      simp
    exact absurd (isAtomChar_of_isNumberLiteral hNumber hSpace) (by decide)
  have hTruth : ¬ (union.print = "true" ∨ union.print = "false") :=
    not_or.mpr ⟨union.print_ne (by decide), union.print_ne (by decide)⟩
  rw [literalKind?, union.isStringLiteral_print, hTemplate, hNumber, if_neg hTruth]
  rfl

theorem isKnownUpTo_print (bound : Nat) : isKnownUpTo bound union.print = false := by
  cases bound with
  | zero => rfl
  | succ bound =>
    have hNamed : ¬ (union.print ∈ primitives ∨ union.print = "object" ∨ union.print = "Function" ∨
        (literalKind? union.print).isSome = true) := by
      rw [union.literalKind?_print]
      rintro (h | h | h | h)
      · exact union.not_mem (by decide) h
      · exact union.print_ne (by decide) h
      · exact union.print_ne (by decide) h
      · cases h
    rw [isKnownUpTo, if_neg hNamed, union.isArray_print, if_neg Bool.false_ne_true,
      union.elementText_print.isFunction_eq]

/-! ## The array -/

/-- The array type of a union, which needs parentheses in front of brackets. -/
def array (spelling : ArraySpelling) : Text := spelling.write true union.print

variable (spelling : ArraySpelling)

theorem isArray_array : isArray (union.array spelling) = true :=
  spelling.isArray_write union.elementText_print

theorem grouped : true = false → Bare union.print := nofun

/-- An array of a union counts as unknown. -/
theorem isKnown_array : isKnown (union.array spelling) = false := by
  unfold isKnown
  rw [isKnownUpTo_of_isArray (union.isArray_array spelling) spelling.literalKind?_write, array,
    spelling.elementType_write union.elementText_print union.grouped]
  exact union.isKnownUpTo_print _

theorem settled_array (program : Program) (file : Option Text) :
    Settled program file (union.array spelling) := by
  obtain ⟨-, hTop, hObject, -⟩ := not_mem_of_isArray (union.isArray_array spelling)
  exact ⟨spelling.elementText_write union.elementText_print union.grouped,
    spelling.unionParts_write union.elementText_print union.grouped, hTop, hObject,
    spelling.resolve?_write program file⟩

theorem arrayType_eq_array {infer : Text → TypeRef} {t : Text}
    (h : distinct ((topLevelParts [','] (trim (inner t))).map fun element =>
      widen (infer element).text) =
      union.members.map Atom.print) : arrayType infer t = union.array .brackets := by
  unfold arrayType
  dsimp only
  rw [h]
  show '(' :: join " | " (union.members.map Atom.print) ++ ")[]".toList = _
  rw [array, ArraySpelling.write_brackets, itemText, if_pos rfl, print]
  simp

end AtomUnion

/-! ## Unknown types are compared -/

/-- Where one of two types is not known they go together, unless the first is a literal or both are
arrays. -/
theorem compare_unknown {s t : Text} {elements : Bool} (hUnknown : (isKnown s && isKnown t) = false)
    (hKind : literalKind? s = none) (hArrays : (isArray s && isArray t) = false) :
    compare s t elements = true := by
  by_cases hNe : s = t
  · exact if_pos (.inl hNe)
  by_cases hNever : s = "never"
  · exact if_pos (.inr hNever)
  by_cases hBoolean : t = "boolean"
  · subst hBoolean
    rw [show isKnown "boolean" = true by decide, Bool.and_true] at hUnknown
    exact (compare_boolean hNe hNever).mpr (.inr (.inr hUnknown))
  by_cases hVoid : t = "void"
  · subst hVoid
    rw [show isKnown "void" = true by decide, Bool.and_true] at hUnknown
    exact (compare_void hNe hNever).mpr (.inr hUnknown)
  rw [compare_other hNe hNever hBoolean hVoid, literalAgainst?, hKind, Option.bind_none,
    Option.getD_none, hArrays, if_neg Bool.false_ne_true, hUnknown, Bool.not_false]

/-- An array of a union of primitive types and literals goes with every primitive type and
every literal, and so does the array of an expression with such elements. All atoms but the
literals go with the array. -/
theorem AtomUnion.isAssignable_array {program : Program} (h : program.KeepsTruth)
    (union : AtomUnion) (spelling : ArraySpelling) (atom : Atom) (file file' : Option Text) :
    isAssignable program ⟨union.array spelling, file⟩ ⟨atom.print, file'⟩ = true ∧
      (∀ (infer : Text → TypeRef) (t : Text),
        distinct ((topLevelParts [','] (trim (inner t))).map fun element =>
          widen (infer element).text) =
          union.members.map Atom.print →
        isAssignable program ⟨arrayType infer t, file⟩ ⟨atom.print, file'⟩ = true) ∧
      (isAssignable program ⟨atom.print, file⟩ ⟨union.array spelling, file'⟩ = true ↔
        ∃ name, atom = .primitive name) := by
  have hAtom : ∀ file, Settled program file atom.print := by
    intro file
    rw [← atom.print_element]
    exact atom.element.settled_print h file
  have hArrays : isArray atom.print = false := atom.atomText_print.isArray_eq
  have hSource : ∀ spelling : ArraySpelling,
      isAssignable program ⟨union.array spelling, file⟩ ⟨atom.print, file'⟩ = true := by
    intro spelling
    have hArray := union.settled_array spelling program file
    unfold isAssignable
    dsimp only
    rw [hArray.normalize_eq, (hAtom file').normalize_eq, show depthLimit = 8 + 1 from rfl,
      assignableUpTo_settled hArray (hAtom file')]
    refine compare_unknown ?_ spelling.literalKind?_write ?_
    · rw [union.isKnown_array spelling, Bool.false_and]
    · rw [hArrays, Bool.and_false]
  refine ⟨hSource spelling, fun infer t hTypes => ?_, ?_⟩
  · rw [union.arrayType_eq_array hTypes]
    exact hSource .brackets
  have hArray := union.settled_array spelling program file'
  unfold isAssignable
  dsimp only
  rw [hArray.normalize_eq, (hAtom file).normalize_eq, show depthLimit = 8 + 1 from rfl,
    assignableUpTo_settled (hAtom file) hArray]
  cases atom with
  | primitive name =>
    refine iff_of_true (compare_unknown ?_ name.literalKind?_print ?_) ⟨name, rfl⟩
    · rw [union.isKnown_array spelling, Bool.and_false]
    · rw [hArrays, Bool.false_and]
  | literal value =>
    have hKind : literalKind? (Atom.literal value).print = some value.kind :=
      value.literalKind?_print
    rw [compare_literal_array hKind (union.isArray_array spelling) spelling.literalKind?_write]
    exact iff_of_false Bool.false_ne_true nofun

theorem AtomUnion.isAssignable_array_generic :
    let union : AtomUnion := ⟨.primitive .number, .literal (.string .double "a" (by decide)), []⟩
    union.array .generic = "Array<number | \"a\">" ∧
      isAssignable (.ofFiles {} [("a.ts".toList, "import {Foo} from \"./b\"".toList)])
        ⟨union.array .generic, some "a.ts"⟩ ⟨"true", none⟩ = true :=
  ⟨by decide, (AtomUnion.isAssignable_array (by decide +kernel) _ .generic
    (.literal (.boolean true)) _ _).1⟩

/-- The type of a mixed array expression is an array of a union, and it is not told apart from
the type of a string. -/
theorem AtomUnion.isAssignable_array_mixed :
    let expression : Expression := ⟨"[1, 'a']", 0, 8, "a.ts", none⟩
    let union : AtomUnion := ⟨.primitive .number, .primitive .string, []⟩
    infer (.empty {}) expression = ⟨union.array .brackets, some "a.ts"⟩ ∧
      isAssignable (.empty {}) (infer (.empty {}) expression) ⟨"string", none⟩ = true ∧
      isAssignable (.empty {}) ⟨"string", none⟩ (infer (.empty {}) expression) = true := by
  decide +kernel

end TypeText

end TemplateCheck
