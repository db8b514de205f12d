import TemplateCheck.Proofs.TypeText.ClosedType
import TemplateCheck.Proofs.TypeText.Name
import TemplateCheck.Proofs.TypeText.Union

/-!
# Names of closed types

A name that a file declares for a closed type is followed late in a comparison. On the right this
makes no difference: whatever goes with the closed type goes with its name, and the other way round.
On the left it does (`isAssignable_alias`): `boolean`, `void` and `object` take the name before it
is followed, and a union takes it only if one of its members takes all that the name stands for.

Names are compared here with the types that a template can be checked against: elements, `object`
and unions of them (`Simple`, `SimpleUnion`).
-/

namespace TemplateCheck

namespace TypeText

open Text

/-- A type that is no union: an element of a closed type or `object`. -/
inductive Simple where
  | element (type : Element)
  | object

namespace Simple

/-- The text of a type. -/
def print : Simple → Text
  | .element type => type.print
  | .object => "object"

/-- How many arrays are nested. -/
def depth : Simple → Nat
  | .element type => type.depth
  | .object => 0

/-- The values of the type are values of a closed type. -/
def Below (closed : ClosedType) : Simple → Prop
  | .element type => ∃ member ∈ closed.members, type.Below member
  | .object => False

/-- The types that take a name without following it. -/
def TakesNames (simple : Simple) : Prop :=
  simple.print ∈ ["boolean".toList, "void".toList, "object".toList]

end Simple

/-- A type, or a union of two or more, of arrays that are nested at most four deep. -/
structure SimpleUnion where
  first : Simple
  others : List Simple
  depth_le : ∀ member ∈ first :: others, member.depth ≤ 4

/-! ## Simple types -/

namespace Simple

variable (simple : Simple)

theorem isKnown_print : isKnown simple.print = true := by
  cases simple with
  | element type => exact type.isKnown_print
  | object => exact (by decide : isKnown "object" = true)

theorem print_ne {t : Text} (ht : isKnown t = false) : simple.print ≠ t := by
  rintro rfl
  rw [simple.isKnown_print] at ht
  cases ht

theorem not_top : simple.print ∉ topTypes := by
  intro hMem
  rcases List.mem_pair.mp hMem with hAny | hUnknown
  · exact simple.print_ne (by decide) hAny
  · exact simple.print_ne (by decide) hUnknown

theorem elementText_print : ElementText simple.print ∧ '|' ∉ simple.print := by
  cases simple with
  | element type => exact ⟨type.elementText_print.1, type.elementText_print.2.1⟩
  | object =>
    have hAtom : AtomText "object" := ⟨by decide, by decide, by decide, by decide⟩
    exact ⟨hAtom.elementText, hAtom.bare.not_union⟩

theorem stripParens_print : stripParens simple.print = simple.print :=
  simple.elementText_print.1.stripParens_eq

theorem isPart_print : simple.print.IsPart '|' := by
  obtain ⟨hText, hBar⟩ := simple.elementText_print
  exact ⟨hText.balanced, hText.trimmed, hText.ne_nil, hBar⟩

theorem takesNames_object : Simple.object.TakesNames :=
  List.mem_cons_of_mem _ (List.mem_cons_of_mem _ List.mem_cons_self)

theorem not_isUnion : ¬ IsUnion (stripParens simple.print) := by
  have hPart := simple.isPart_print
  unfold IsUnion unionParts
  rw [simple.stripParens_print,
    topLevelParts_of_uncut (hPart.uncut none 0) hPart.trimmed hPart.ne_nil]
  exact Nat.lt_irrefl 1

end Simple

/-! ## Unions of simple types -/

namespace SimpleUnion

variable (union : SimpleUnion)

/-- The members of a union; a type that is no union has one. -/
def members : List Simple := union.first :: union.others

/-- The text of a type. -/
def print : Text := join " | " (union.members.map Simple.print)

theorem unionParts_print : unionParts union.print = union.members.map Simple.print := by
  refine unionParts_join (List.cons_ne_nil _ _) fun part hPart => ?_
  obtain ⟨simple, -, rfl⟩ := List.mem_map.mp hPart
  exact simple.isPart_print

theorem elementText_print : ElementText union.print := by
  refine .join (List.cons_ne_nil _ _) fun part hPart => ?_
  obtain ⟨simple, -, rfl⟩ := List.mem_map.mp hPart
  exact ⟨simple.elementText_print.1, simple.print_ne (by decide)⟩

variable {union}

theorem print_of_others_eq_nil (h : union.others = []) :
    union.print = union.first.print ∧ union.members = [union.first] := by
  unfold print members
  rw [h]
  exact ⟨rfl, rfl⟩

theorem plainUnion (h : union.others ≠ []) : PlainUnion union.print where
  isUnion := by
    unfold IsUnion
    rw [unionParts_print, List.length_map]
    exact Nat.succ_lt_succ (List.length_pos_iff.mpr h)
  stripParens_eq := union.elementText_print.stripParens_eq

/-- A union goes with a type at once only if it has the text of it. -/
theorem eq_of_goAtOnce (hUnion : union.others ≠ []) {t : Text} (ht : t ∉ topTypes)
    (h : GoAtOnce union.print t) : union.print = t := by
  rcases h with hSame | hTop | hTop | hNever
  · exact hSame
  · exact absurd hTop ht
  · exact absurd hTop (plainUnion hUnion).not_top
  · have hLength := (plainUnion hUnion).isUnion
    rw [hNever] at hLength
    exact absurd hLength (by decide)

end SimpleUnion

/-! ## Comparing with closed types -/

theorem ClosedType.not_top {program : Program} (h : program.KeepsTruth) (type : ClosedType) :
    type.print ∉ topTypes := by
  by_cases hOthers : type.others = []
  · rw [(ClosedType.print_of_others_eq_nil hOthers).1]
    exact (type.first.settled_print h none).not_top
  · exact ClosedType.not_mem_topTypes hOthers

section

variable {program : Program} (h : program.KeepsTruth)
  (hObject : ∀ file, resolve? program ⟨"object", file⟩ = none) {closed : ClosedType} {depth : Nat}
  (file file' : Option Text)

include h hObject

theorem Simple.assignableUpTo_object (type : Element) :
    assignableUpTo program (depth + 1) ⟨"object", file⟩ ⟨type.print, file'⟩ = false := by
  have hSettled := type.settled_print h file'
  have hParens := (Simple.element type).stripParens_print
  have hNot : ¬ GoAtOnce (stripParens "object") (stripParens type.print) := by
    rw [hSettled.stripParens_eq]
    rintro (hSame | hTop | hTop | hNever)
    · exact hSettled.ne_object hSame.symm
    · exact hSettled.not_top hTop
    · exact absurd hTop (by decide)
    · exact absurd hNever (by decide)
  have hLiteral : literalAgainst? "object" type.print = none := by
    rw [literalAgainst?, show literalKind? "object" = none by decide, Option.bind_none]
  rw [assignableUpTo_single _ _ _ _ hNot (Simple.not_isUnion .object)
    (Simple.not_isUnion (.element type)), hSettled.stripParens_eq,
    show stripParens "object" = "object".toList from Simple.stripParens_print .object]
  unfold compareSingle
  dsimp only
  rw [hLiteral, compareResolved_none _ _ hSettled.resolve?_eq (hObject file), type.isKnown_print]
  split_ifs with hBoolean hVoid hArray hFunction hSelf
  · decide
  · decide
  · exact absurd hArray (by rw [show isArray "object" = false by decide]; exact Bool.false_ne_true)
  · exact absurd hFunction
      (by rw [show isFunction "object" = false by decide]; exact Bool.false_ne_true)
  · exact absurd hSelf hSettled.ne_object
  · decide

theorem Simple.assignableUpTo_print {simple : Simple} (hDepth : simple.depth + 1 < depth) :
    assignableUpTo program depth ⟨simple.print, file⟩ ⟨closed.print, file'⟩ = true ↔
    simple.Below closed := by
  cases simple with
  | element type => exact ClosedType.assignableUpTo_print_member h file file' hDepth
  | object =>
    have hPositive : 0 + 1 < depth := hDepth
    obtain ⟨depth, rfl⟩ : ∃ less, depth = less + 1 + 1 := ⟨depth - 2, by omega⟩
    refine iff_of_false (fun hGoes => ?_) id
    by_cases hUnion : closed.others = []
    · rw [(ClosedType.print_of_others_eq_nil hUnion).1] at hGoes
      exact absurd hGoes (Bool.eq_false_iff.mp
        (assignableUpTo_object h hObject file file' closed.first))
    · have hParens := closed.elementText_print.stripParens_eq
      have hNot : ¬ GoAtOnce (stripParens Simple.object.print) (stripParens closed.print) := by
        rw [hParens, Simple.object.stripParens_print]
        rintro (hSame | hTop | hTop | hNever)
        · exact ClosedType.print_ne hUnion (by decide) hSame.symm
        · exact ClosedType.not_mem_topTypes hUnion hTop
        · exact Simple.object.not_top hTop
        · exact absurd hNever (by decide)
      have hTarget : IsUnion (stripParens closed.print) := by
        rw [hParens]
        exact ClosedType.length_unionParts_print hUnion
      rw [assignableUpTo_union_right _ _ _ _ hNot Simple.object.not_isUnion hTarget, hParens,
        closed.unionParts_print, Simple.object.stripParens_print] at hGoes
      obtain ⟨part, hPart, hGoes⟩ := hGoes
      obtain ⟨type, -, rfl⟩ := List.mem_map.mp hPart
      exact absurd hGoes (Bool.eq_false_iff.mp (assignableUpTo_object h hObject file file' type))

theorem SimpleUnion.assignableUpTo_print {union : SimpleUnion}
    (hDepth : ∀ simple ∈ union.members, simple.depth + 2 < depth) :
    assignableUpTo program depth ⟨union.print, file⟩ ⟨closed.print, file'⟩ = true ↔
      ∀ simple ∈ union.members, simple.Below closed := by
  have hFirst := hDepth union.first List.mem_cons_self
  by_cases hUnion : union.others = []
  · obtain ⟨hPrint, hMembers⟩ := SimpleUnion.print_of_others_eq_nil hUnion
    rw [hPrint, hMembers, Simple.assignableUpTo_print h hObject file file' (by omega),
      List.forall_mem_singleton]
  obtain ⟨depth, rfl⟩ : ∃ less, depth = less + 1 := ⟨depth - 1, by omega⟩
  have hBelow : ∀ simple ∈ union.members,
      assignableUpTo program depth ⟨simple.print, file⟩ ⟨closed.print, file'⟩ =
      true ↔ simple.Below closed := fun simple hSimple =>
    Simple.assignableUpTo_print h hObject file file' (by have := hDepth simple hSimple; omega)
  have hParts := union.unionParts_print
  have hPlain := SimpleUnion.plainUnion hUnion
  have hParens := closed.elementText_print.stripParens_eq
  by_cases hAtOnce : GoAtOnce (stripParens union.print) (stripParens closed.print)
  · refine iff_of_true (assignableUpTo_of_goAtOnce _ _ _ _ hAtOnce) fun simple hSimple => ?_
    rw [hPlain.stripParens_eq, hParens] at hAtOnce
    have hSame := SimpleUnion.eq_of_goAtOnce hUnion (closed.not_top h) hAtOnce
    refine (hBelow simple hSimple).mp (assignableUpTo_of_within (.member ?_ ?_ (.same rfl)))
    · rw [hParens, ← hSame]
      exact hPlain.isUnion
    · rw [hParens, ← hSame, hParts]
      exact List.mem_map_of_mem hSimple
  · have hSource : IsUnion (stripParens union.print) := by
      rw [hPlain.stripParens_eq]
      exact hPlain.isUnion
    rw [assignableUpTo_union_left _ _ _ _ hAtOnce hSource, hPlain.stripParens_eq, hParens, hParts,
      List.forall_mem_map]
    exact forall_congr' fun simple => imp_congr_right (hBelow simple)

end

section

variable {program : Program} (h : program.KeepsTruth) {closed : ClosedType} (file : Option Text)

include h

/-- A closed type goes with an element or not, however far it is followed. -/
theorem ClosedType.assignableUpTo_element (hNested : ∀ member ∈ closed.members, member.depth ≤ 4)
    {type : Element} (hType : type.depth ≤ 4) {depth : Nat} (hDepth : 7 ≤ depth)
    (here there : Option Text) :
    assignableUpTo program depth ⟨closed.print, here⟩ ⟨type.print, file⟩ =
      isAssignable program ⟨closed.print, there⟩ ⟨type.print, file⟩ := by
  let target : ClosedType :=
    ⟨type, [], List.forall_mem_singleton.mpr (Nat.le_trans hType (by decide))⟩
  have hPrint : target.print = type.print := (ClosedType.print_of_others_eq_nil rfl).1
  have hBound : ∀ member ∈ closed.members, member.depth + 2 < depth := by
    intro member hMember
    have hMemberNested := hNested member hMember
    omega
  rw [← hPrint, Bool.eq_iff_iff, ClosedType.assignableUpTo_print h here file hBound,
    ClosedType.isAssignable_print h closed target there file]

end

/-! ## Comparing with names -/

section

variable {program : Program} (h : program.KeepsTruth)
  (hObject : ∀ file, resolve? program ⟨"object", file⟩ = none) {name : Text} (hName : FreeName name)
  {here : Option Text} {declared : TypeRef}
  (hDeclared : resolve? program ⟨name, here⟩ = some declared) {closed : ClosedType}
  (hClosed : normalize declared.text = closed.print) {depth : Nat} (file : Option Text)

include hName in
theorem FreeName.not_goAtOnce (simple : Simple) :
    ¬ GoAtOnce (stripParens name) (stripParens simple.print) := by
  rw [stripParens_of_isIdentifier hName.isIdentifier, simple.stripParens_print]
  rintro (hSame | hTop | hTop | hNever)
  · exact simple.print_ne hName.isKnown_eq hSame.symm
  · exact simple.not_top hTop
  · exact hName.not_top hTop
  · exact hName.ne "never" (by decide) hNever

include hName in
theorem FreeName.not_isUnion_stripParens : ¬ IsUnion (stripParens name) := by
  rw [stripParens_of_isIdentifier hName.isIdentifier]
  exact hName.not_isUnion

include h hName hDeclared hClosed

/-- On the left, a name is followed unless the other type takes all names. -/
theorem Simple.assignableUpTo_name (simple : Simple) :
    assignableUpTo program (depth + 1) ⟨name, here⟩ ⟨simple.print, file⟩ = true ↔
      simple.TakesNames ∨ assignableUpTo program depth ⟨closed.print, declared.file⟩
        ⟨simple.print, file⟩ = true := by
  rw [assignableUpTo_single _ _ _ _ (hName.not_goAtOnce simple) hName.not_isUnion_stripParens
    simple.not_isUnion, stripParens_of_isIdentifier hName.isIdentifier, simple.stripParens_print,
    compareSingle_name_left hName]
  unfold Simple.TakesNames
  split_ifs with hTakes
  · exact iff_of_true rfl (.inl hTakes)
  · have hUnresolved : resolve? program ⟨simple.print, file⟩ = none := by
      cases simple with
      | element type => exact (type.settled_print h file).resolve?_eq
      | object => exact absurd Simple.takesNames_object hTakes
    rw [compareResolved_left _ _ hUnresolved hDeclared, hClosed]
    exact (or_iff_right hTakes).symm

variable (hNested : ∀ member ∈ closed.members, member.depth ≤ 4)

include hNested

theorem Simple.assignableUpTo_name_iff {simple : Simple} (hSimple : simple.depth ≤ 4)
    (hDepth : 7 ≤ depth) :
    assignableUpTo program (depth + 1) ⟨name, here⟩ ⟨simple.print, file⟩ = true ↔
      simple.TakesNames ∨ isAssignable program ⟨closed.print, here⟩
        ⟨simple.print, file⟩ = true := by
  rw [simple.assignableUpTo_name h hName hDeclared hClosed file]
  cases simple with
  | element type =>
    have hFollowed := closed.assignableUpTo_element h file hNested hSimple hDepth declared.file here
    exact or_congr_right (Bool.eq_iff_iff.mp hFollowed)
  | object => exact iff_of_true (.inl Simple.takesNames_object) (.inl Simple.takesNames_object)

/-- On the left, a name goes with a union if it goes with a member of it. -/
theorem SimpleUnion.isAssignable_name (union : SimpleUnion) :
    isAssignable program ⟨name, here⟩ ⟨union.print, file⟩ = true ↔ ∃ simple ∈ union.members,
      simple.TakesNames ∨ isAssignable program ⟨closed.print, here⟩
        ⟨simple.print, file⟩ = true := by
  have hMember : ∀ simple ∈ union.members, ∀ depth, 7 ≤ depth →
      (assignableUpTo program (depth + 1) ⟨name, here⟩ ⟨simple.print, file⟩ = true ↔
        simple.TakesNames ∨ isAssignable program ⟨closed.print, here⟩
          ⟨simple.print, file⟩ = true) :=
    fun simple hSimple depth hDepth =>
      Simple.assignableUpTo_name_iff h hName hDeclared hClosed file hNested
      (union.depth_le simple hSimple) hDepth
  have hUnfold : isAssignable program ⟨name, here⟩ ⟨union.print, file⟩ =
      assignableUpTo program 9 ⟨name, here⟩ ⟨union.print, file⟩ := by
    unfold isAssignable
    dsimp only
    rw [normalize_of_isIdentifier hName.isIdentifier, union.elementText_print.normalize_eq]
    rfl
  rw [hUnfold]
  by_cases hUnion : union.others = []
  · obtain ⟨hPrint, hMembers⟩ := SimpleUnion.print_of_others_eq_nil hUnion
    rw [hPrint, hMember union.first List.mem_cons_self 8 (by decide), hMembers]
    simp only [List.mem_singleton, exists_eq_left]
  · have hPlain := SimpleUnion.plainUnion hUnion
    have hParens := stripParens_of_isIdentifier hName.isIdentifier
    have hTarget : IsUnion (stripParens union.print) := by
      rw [hPlain.stripParens_eq]
      exact hPlain.isUnion
    have hNot : ¬ GoAtOnce (stripParens name) (stripParens union.print) := by
      rw [hPlain.stripParens_eq, hParens]
      rintro (hSame | hTop | hTop | hNever)
      · rw [← hSame] at hPlain
        exact hName.not_isUnion hPlain.isUnion
      · exact hPlain.not_top hTop
      · exact hName.not_top hTop
      · exact hName.ne "never" (by decide) hNever
    rw [assignableUpTo_union_right _ _ _ _ hNot hName.not_isUnion_stripParens hTarget,
      hPlain.stripParens_eq, hParens, union.unionParts_print]
    simp only [List.mem_map, exists_exists_and_eq_and]
    exact exists_congr fun simple => and_congr_right fun hSimple =>
      hMember simple hSimple 7 (Nat.le_refl 7)

omit hNested

include hObject

/-- On the right, a name is followed. -/
theorem Simple.assignableUpTo_of_name {simple : Simple} (hDepth : simple.depth + 2 < depth) :
    assignableUpTo program depth ⟨simple.print, file⟩ ⟨name, here⟩ = true ↔
    simple.Below closed := by
  obtain ⟨depth, rfl⟩ : ∃ less, depth = less + 1 := ⟨depth - 1, by omega⟩
  have hParens := stripParens_of_isIdentifier hName.isIdentifier
  by_cases hAtOnce : GoAtOnce (stripParens simple.print) (stripParens name)
  · refine iff_of_true (assignableUpTo_of_goAtOnce _ _ _ _ hAtOnce) ?_
    rw [simple.stripParens_print, hParens] at hAtOnce
    rcases hAtOnce with hSame | hTop | hTop | hNever
    · exact absurd hSame (simple.print_ne hName.isKnown_eq)
    · exact absurd hTop hName.not_top
    · exact absurd hTop simple.not_top
    · cases simple with
      | element type =>
        obtain rfl := Element.eq_of_print_eq_primitive .never hNever
        exact ⟨closed.first, List.mem_cons_self, .never _⟩
      | object => exact absurd hNever (by decide)
  · rw [assignableUpTo_single _ _ _ _ hAtOnce simple.not_isUnion hName.not_isUnion_stripParens,
      hParens, simple.stripParens_print, compareSingle_name_right hName,
      compareResolved_right _ _ hDeclared, hClosed]
    exact simple.assignableUpTo_print h hObject file declared.file (by omega)

theorem SimpleUnion.assignableUpTo_of_name {union : SimpleUnion}
    (hDepth : ∀ simple ∈ union.members, simple.depth + 3 < depth) :
    assignableUpTo program depth ⟨union.print, file⟩ ⟨name, here⟩ = true ↔
      ∀ simple ∈ union.members, simple.Below closed := by
  have hFirst := hDepth union.first List.mem_cons_self
  by_cases hUnion : union.others = []
  · obtain ⟨hPrint, hMembers⟩ := SimpleUnion.print_of_others_eq_nil hUnion
    rw [hPrint, hMembers, List.forall_mem_singleton]
    exact Simple.assignableUpTo_of_name h hObject hName hDeclared hClosed file (by omega)
  obtain ⟨depth, rfl⟩ : ∃ less, depth = less + 1 := ⟨depth - 1, by omega⟩
  have hPlain := SimpleUnion.plainUnion hUnion
  have hParens := stripParens_of_isIdentifier hName.isIdentifier
  have hSource : IsUnion (stripParens union.print) := by
    rw [hPlain.stripParens_eq]
    exact hPlain.isUnion
  have hNot : ¬ GoAtOnce (stripParens union.print) (stripParens name) := by
    intro hAtOnce
    rw [hPlain.stripParens_eq, hParens] at hAtOnce
    rw [SimpleUnion.eq_of_goAtOnce hUnion hName.not_top hAtOnce] at hPlain
    exact hName.not_isUnion hPlain.isUnion
  rw [assignableUpTo_union_left _ _ _ _ hNot hSource, hPlain.stripParens_eq, hParens,
    union.unionParts_print, List.forall_mem_map]
  refine forall_congr' fun simple => imp_congr_right fun hSimple => ?_
  have hMember := hDepth simple hSimple
  exact Simple.assignableUpTo_of_name h hObject hName hDeclared hClosed file (by omega)

end

/-- The file at a path declares a name for a closed type. -/
structure Declares (program : Program) (path name : Text) (closed : ClosedType) : Prop where
  free : FreeName name
  not_array : ¬ (name = "Array" ∨ name = "ReadonlyArray")
  path_ne_nil : path ≠ []
  declared : ∃ file ∈ program.file? path, ∃ text ∈ OrderedMap.get? file.typeDeclarations name,
    normalize text = closed.print

theorem Declares.exists_resolve? {program : Program} {path name : Text} {closed : ClosedType}
    (h : Declares program path name closed) : ∃ declared,
      resolve? program ⟨name, some path⟩ = some declared ∧
      normalize declared.text = closed.print := by
  obtain ⟨file, hFile, text, hText, hNormal⟩ := h.declared
  refine ⟨⟨text, some file.path⟩, ?_, hNormal⟩
  exact resolve?_of_declared h.free.isIdentifier ⟨h.free.not_primitive, h.free.not_top⟩
    h.not_array h.path_ne_nil
    hFile hText

/-- A name of a closed type is transparent on the right. On the left it goes with a union if a
member takes every name, or takes all that the name stands for. -/
theorem isAssignable_alias {program : Program} (h : program.KeepsTruth)
    (hObject : program.Keeps "object") {path name : Text} {closed : ClosedType}
    (hDeclares : Declares program path name closed)
    (hNested : ∀ member ∈ closed.members, member.depth ≤ 4) (union : SimpleUnion)
    (file : Option Text) :
    (isAssignable program ⟨name, some path⟩ ⟨union.print, file⟩ = true ↔ ∃ simple ∈ union.members,
      simple.TakesNames ∨ isAssignable program ⟨closed.print, some path⟩
        ⟨simple.print, file⟩ = true) ∧
    isAssignable program ⟨union.print, file⟩ ⟨name, some path⟩ =
      isAssignable program ⟨union.print, file⟩ ⟨closed.print, some path⟩ := by
  have hName := hDeclares.free
  have hUnresolved : ∀ file, resolve? program ⟨"object", file⟩ = none :=
    hObject.resolve?_eq_none (by decide)
  obtain ⟨declared, hDeclared, hClosed⟩ := hDeclares.exists_resolve?
  refine ⟨union.isAssignable_name h hName hDeclared hClosed file hNested, Bool.eq_iff_iff.mpr ?_⟩
  have hRight : ∀ simple ∈ union.members, simple.depth + 3 < 9 := by
    intro simple hSimple
    have hDepth := union.depth_le simple hSimple
    omega
  have hLess : ∀ simple ∈ union.members, simple.depth + 2 < 9 := fun simple hSimple =>
    Nat.lt_of_succ_lt (hRight simple hSimple)
  unfold isAssignable
  dsimp only
  rw [normalize_of_isIdentifier hName.isIdentifier, union.elementText_print.normalize_eq,
    closed.elementText_print.normalize_eq, depthLimit,
    SimpleUnion.assignableUpTo_of_name h hUnresolved hName hDeclared hClosed file hRight,
    SimpleUnion.assignableUpTo_print h hUnresolved file (some path) hLess]

theorem isAssignable_alias_size :
    let program : Program := .ofFiles {} [("a.ts", "export type Size = 'sm' | 'lg';")]
    let closed : ClosedType := ⟨.literal (.string .single "sm" (by decide)),
      [.literal (.string .single "lg" (by decide))], by decide⟩
    let union : SimpleUnion := ⟨.element (.array .brackets (.primitive .string)),
      [.element (.primitive .string)], by decide⟩
    union.print = "string[] | string" ∧ closed.print = "'sm' | 'lg'" ∧
      program.KeepsTruth ∧ program.Keeps "object" ∧ Declares program "a.ts" "Size" closed ∧
      isAssignable program ⟨"Size", some "a.ts"⟩ ⟨union.print, none⟩ = true ∧
      isAssignable program ⟨union.print, none⟩ ⟨"Size", some "a.ts"⟩ = false := by
  intro program closed union
  have hTruth : program.KeepsTruth := by decide +kernel
  have hObject : program.Keeps "object" := by decide +kernel
  have hDeclares : Declares program "a.ts" "Size" closed := by
    have hRead :
        ((program.file? "a.ts").bind fun file => OrderedMap.get? file.typeDeclarations "Size") =
        some closed.print := by decide +kernel
    obtain ⟨file, hFile, hText⟩ := Option.bind_eq_some_iff.mp hRead
    exact ⟨⟨by decide, by decide⟩, by decide, by decide, file, hFile, _, hText, by decide⟩
  obtain ⟨hLeft, hRight⟩ := isAssignable_alias hTruth hObject hDeclares (by decide) union none
  refine ⟨by decide, by decide, hTruth, hObject, hDeclares, hLeft.mpr ?_,
    hRight.trans (by decide +kernel)⟩
  exact ⟨_, List.mem_cons_of_mem _ List.mem_cons_self, .inr (by decide +kernel)⟩

/-- The left side of a comparison is not followed in time: `boolean`, `void` and `object` take a
name that they would not take, and of a union no single member takes what all of them would. -/
theorem isAssignable_alias_left :
    let program : Program := .ofFiles {} [("a.ts", "type Text = string;\ntype Size = 'sm' | 'lg';")]
    let goes (source target : Text) : Bool :=
      isAssignable program ⟨source, some "a.ts"⟩ ⟨target, some "a.ts"⟩
    (∀ target ∈ ["boolean".toList, "void".toList, "object".toList],
      goes "Text" target = true ∧ goes "string" target = false) ∧
      goes "Size" "'sm' | 'lg'" = false ∧
      goes "'sm' | 'lg'" "'sm' | 'lg'" = true := by
  decide +kernel

end TypeText

end TemplateCheck
