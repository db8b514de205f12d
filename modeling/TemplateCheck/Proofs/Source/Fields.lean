import TemplateCheck.Proofs.OrderedMap
import TemplateCheck.Proofs.Source.BodyShown
import TemplateCheck.Proofs.Source.FieldLine

/-!
# The fields of a class

Of a class body that consists of declarations of fields the file records each declaration in which
no brace closes a block outside other brackets, with its type and its value as they stand there
(`SourceFile.fields_recorded`). A declaration with such a brace is lost: the brace is taken for the
end of a method body, and the statement goes on behind it without its name
(`SourceFile.fields_recorded_lost`).

1. The statements of such a body are its declarations, or what is left of them
   (`FieldLine.filterMap_statementsFrom`).
2. The mask shows the body as it stands, because nothing in it begins a string, a template literal,
   a comment or a regular expression (`FieldLine.isCode_of_mem_body`).
-/

namespace TemplateCheck

open ClassDeclaration (statementsFrom leftFrom hasInk fieldAt? field)
open Text (isBracket isBracket_cases isBracket_of_isNameChar isBracket_of_isBlank)

/-! ## Characters of a declaration -/

theorem isFieldChar_of_isNameChar {c : Char} (h : isNameChar c = true) : isFieldChar c = true :=
  decide_eq_true (not_mem_of_class h (by decide))

theorem isCode_of_isFieldChar {c : Char} (h : isFieldChar c = true) : isCode c = true :=
  decide_eq_true (not_mem_of_class h (by decide))

namespace FieldLine

/-- A brace in the declaration closes a block outside other brackets. -/
def isCut (line : FieldLine) : Bool := (leftFrom 0 line.text).isSome

theorem mem_part {sign : Text} {t : Option Text} {c : Char} (hc : c ∈ part sign t) :
    c ∈ sign ∨ ∃ s ∈ t, c ∈ s := by
  cases t with
  | none => cases hc
  | some s => exact (List.mem_append.mp hc).imp_right fun hMem => ⟨s, rfl, hMem⟩

theorem mem_text (line : FieldLine) {c : Char} (hc : c ∈ line.text) :
    isFieldChar c = true ∨ c = '=' := by
  have hSigns : ∀ c ∈ [':', ' '] ++ [' ', '=', ' '], isFieldChar c = true ∨ c = '=' := by decide
  rcases List.mem_append.mp hc with hName | hTail
  · exact .inl (isFieldChar_of_isNameChar (isNameChar_of_isIdentifier line.isIdentifier c hName))
  · rcases List.mem_append.mp hTail with hType | hValue
    · rcases mem_part hType with hSign | ⟨t, ht, hMem⟩
      · exact hSigns c (List.mem_append_left _ hSign)
      · exact .inl ((line.typeText t ht).1.accepted c hMem)
    · rcases mem_part hValue with hSign | ⟨t, ht, hMem⟩
      · exact hSigns c (List.mem_append_right _ hSign)
      · exact .inl ((line.valueText t ht).accepted c hMem)

theorem not_end_of_mem_text (line : FieldLine) {c : Char} (hc : c ∈ line.text) :
    ¬ (c = ';' ∨ c = '\n') := by
  rcases line.mem_text hc with h | rfl
  · rintro (rfl | rfl) <;> exact absurd h (by decide)
  · decide

theorem isCode_of_mem_source (line : FieldLine) {c : Char} (hc : c ∈ line.source) :
    isCode c = true := by
  rcases List.mem_append.mp hc with hBefore | hc
  · exact isCode_of_isPlain (isPlain_of_isBlank (line.blank_before c hBefore))
  · rcases List.mem_append.mp hc with hText | hEnd
    · rcases line.mem_text hText with h | rfl
      · exact isCode_of_isFieldChar h
      · decide
    · rw [List.mem_singleton.mp hEnd]
      decide

theorem hasInk_text (line : FieldLine) : hasInk line.text = true := by
  obtain ⟨c, later, hName, hc, -⟩ := exists_cons_of_isIdentifier line.isIdentifier
  rw [text, hName, List.cons_append, ClassDeclaration.hasInk_cons,
    isBlank_of_isNameChar (isNameChar_of_isNameStart hc)]
  rfl

/-! ## Brackets of a declaration -/

section

variable {ofKind : Char → Bool} (hKind : ∀ c, isBracket c = false → ofKind c = false)
include hKind

theorem closesKind_part {sign : Text} (hSign : ∀ c ∈ sign, isBracket c = false) {t : Option Text}
    (h : ∀ s ∈ t, Text.ClosesKind ofKind s) : Text.ClosesKind ofKind (part sign t) := by
  cases t with
  | none => rfl
  | some s => exact .append (hKind '>' rfl) (.of_forall fun c hc => hKind c (hSign c hc)) (h s rfl)

theorem closesKind_text (line : FieldLine) (h : ∀ t, FieldText t → Text.ClosesKind ofKind t) :
    Text.ClosesKind ofKind line.text := by
  have hName : Text.ClosesKind ofKind line.name := .of_forall fun c hc =>
    hKind c (isBracket_of_isNameChar (isNameChar_of_isIdentifier line.isIdentifier c hc))
  have hType : Text.ClosesKind ofKind (part [':', ' '] line.type) :=
    closesKind_part hKind (by decide) fun t ht => h t (line.typeText t ht).1
  have hValue : Text.ClosesKind ofKind (part [' ', '=', ' '] line.value) :=
    closesKind_part hKind (by decide) fun t ht => h t (line.valueText t ht)
  exact hName.append (hKind '>' rfl) (hType.append (hKind '>' rfl) hValue)

theorem closesKind_source (line : FieldLine) (h : ∀ t, FieldText t → Text.ClosesKind ofKind t) :
    Text.ClosesKind ofKind line.source := by
  have hBefore : Text.ClosesKind ofKind line.before := .of_forall fun c hc =>
    hKind c (isBracket_of_isBlank (line.blank_before c hc))
  have hEnd : Text.ClosesKind ofKind [';'] := .of_forall (by simpa using hKind ';' rfl)
  exact hBefore.append (hKind '>' rfl) ((closesKind_text hKind line h).append (hKind '>' rfl) hEnd)

end

theorem balanced_text (line : FieldLine) : Text.balancedFrom 0 line.text = true :=
  Text.balanced_of_closesKinds (line.closesKind_text (fun _ hc => (isBracket_cases hc).1)
    fun _ ht => ht.parentheses)
    (line.closesKind_text (fun _ hc => (isBracket_cases hc).2.1) fun _ ht => ht.squares)
    (line.closesKind_text (fun _ hc => (isBracket_cases hc).2.2) fun _ ht => ht.braces)

/-! ## Bodies -/

/-- Declarations one behind the other. -/
def sources (lines : List FieldLine) : Text := lines.flatMap source

/-- The fields that are recorded of declarations one behind the other from an offset on. -/
def fieldsFrom (offset : Nat) : List FieldLine → List Variable
  | [] => []
  | line :: later =>
    let fields := fieldsFrom (offset + line.source.length) later
    if line.isCut then fields else line.declared (offset + line.before.length) :: fields

theorem isCode_of_mem_body {lines : List FieldLine} {ending : Text}
    (hEnding : ∀ c ∈ ending, isBlank c = true) :
    ∀ c ∈ sources lines ++ ending, isCode c = true := by
  intro c hc
  rcases List.mem_append.mp hc with hLine | hEnd
  · obtain ⟨line, -, hSource⟩ := List.mem_flatMap.mp hLine
    exact line.isCode_of_mem_source hSource
  · exact isCode_of_isPlain (isPlain_of_isBlank (hEnding c hEnd))

theorem closesBraces_body (lines : List FieldLine) {ending : Text}
    (hEnding : ∀ c ∈ ending, isBlank c = true) :
    Text.ClosesKind Text.isBrace (sources lines ++ ending) := by
  have hBlank : Text.ClosesKind Text.isBrace ending := .of_forall fun c hc =>
    (isBracket_cases (isBracket_of_isBlank (hEnding c hc))).2.2
  refine Text.ClosesKind.append rfl ?_ hBlank
  induction lines with
  | nil => rfl
  | cons line lines ih =>
    exact (line.closesKind_source (fun _ hc => (isBracket_cases hc).2.2)
      fun _ ht => ht.braces).append rfl ih

theorem names_fieldsFrom (offset : Nat) (lines : List FieldLine) :
    ((fieldsFrom offset lines).map Variable.name).Sublist (lines.map name) := by
  induction lines generalizing offset with
  | nil => exact List.nil_sublist []
  | cons line lines ih =>
    rw [fieldsFrom]
    split_ifs
    · exact (ih _).cons _
    · exact (ih _).cons_cons _

/-! ## Statements -/

section

variable {text mask rest rest' : Text} {offset : Nat}

/-- A declaration is a statement of its own, or what is left of it is one in which no
field can be read. -/
theorem filterMap_statementsFrom (line : FieldLine) (hText : text.drop offset = line.source ++ rest)
    (hMask : mask.drop offset = line.source ++ rest')
    (hLeft : ∀ left ∈ leftFrom 0 line.text, field.accepts left = false) (t : Text) :
    (statementsFrom 0 offset offset false (line.source ++ t)).filterMap (fieldAt? text mask) =
      (if line.isCut then [] else [line.declared (offset + line.before.length)]) ++
        (statementsFrom 0 (offset + line.source.length)
          (offset + line.source.length) false t).filterMap
          (fieldAt? text mask) := by
  have hSource (t : Text) : line.source ++ t = line.before ++ (line.text ++ ';' :: t) := by
    rw [source, List.append_assoc, List.append_assoc, List.singleton_append]
  have hLength : offset + line.source.length =
      offset + line.before.length + line.text.length + 1 := by
    simp only [source, List.length_append, List.length_singleton]
    omega
  rw [hSource] at hText hMask ⊢
  rw [hLength]
  cases hCut : leftFrom 0 line.text with
  | none =>
    obtain ⟨before, indent, hBefore, hStatements⟩ :=
      ClassDeclaration.exists_statement_of_whole line.blank_before
      line.balanced_text (fun _ => line.not_end_of_mem_text) hCut line.hasInk_text offset t
    have hIndent : ∀ c ∈ indent, isBlank c = true := fun c hc =>
      line.blank_before c (hBefore ▸ List.mem_append_right before hc)
    -- The statement starts with the last of the blanks.
    have hStop : offset + line.before.length + line.text.length =
        offset + before.length + (indent ++ line.text).length := by
      rw [hBefore, List.length_append, List.length_append]
      omega
    have hStart : offset + before.length + indent.length = offset + line.before.length := by
      rw [hBefore, List.length_append, Nat.add_assoc]
    rw [hBefore, List.append_assoc, ← List.append_assoc indent] at hText hMask
    have hField :
        fieldAt? text mask (offset + before.length,
          offset + line.before.length + line.text.length) =
        some (line.declared (offset + line.before.length)) := by
      rw [hStop, ← hStart]
      exact line.fieldAt?_eq hIndent (Text.slice_of_drop (Text.drop_add_length hText))
        (Text.slice_of_drop (Text.drop_add_length hMask))
    rw [hStatements, List.filterMap_cons_some hField, isCut, hCut]
    rfl
  | some left =>
    obtain ⟨lost, hLost, hStatements⟩ :=
      ClassDeclaration.exists_statement_of_left line.blank_before line.balanced_text
      (fun _ => line.not_end_of_mem_text) hCut offset t
    have hSlice : Text.slice mask (offset + line.before.length + lost.length)
        (offset + line.before.length + line.text.length) = left := by
      have hRest := Text.drop_add_length hMask
      rw [hLost, List.append_assoc] at hRest
      rw [hLost, List.length_append, ← Nat.add_assoc]
      exact Text.slice_of_drop (Text.drop_add_length hRest)
    have hField : fieldAt? text mask (offset + line.before.length + lost.length,
        offset + line.before.length + line.text.length) = none :=
          fieldAt?_eq_none hSlice (hLeft left hCut)
    rw [hStatements, List.filterMap_append, isCut, hCut]
    cases hasInk left with
    | true => rw [if_pos rfl, List.filterMap_cons_none hField]; rfl
    | false => rfl

theorem filterMap_statementsFrom_body {lines : List FieldLine} {ending : Text}
    (hEnding : ∀ c ∈ ending, isBlank c = true) (hText : text.drop offset = sources lines ++ rest)
    (hMask : mask.drop offset = sources lines ++ rest')
    (hLeft : ∀ line ∈ lines, ∀ left ∈ leftFrom 0 line.text, field.accepts left = false) :
    (statementsFrom 0 offset offset false (sources lines ++ ending)).filterMap
      (fieldAt? text mask) =
      fieldsFrom offset lines := by
  induction lines generalizing offset with
  | nil =>
    obtain ⟨before, indent, -, hStatements⟩ :=
      ClassDeclaration.exists_statementsFrom_of_blanks hEnding offset []
    rw [List.append_nil] at hStatements
    rw [sources, List.flatMap_nil, List.nil_append, hStatements]
    rfl
  | cons line lines ih =>
    obtain ⟨hHere, hLater⟩ := List.forall_mem_cons.mp hLeft
    have hSources (t : Text) : sources (line :: lines) ++ t =
        line.source ++ (sources lines ++ t) := by
      rw [sources, List.flatMap_cons, List.append_assoc, sources]
    rw [hSources] at hText hMask ⊢
    rw [line.filterMap_statementsFrom hText hMask hHere, fieldsFrom,
      ih (Text.drop_add_length hText) (Text.drop_add_length hMask) hLater]
    cases line.isCut <;> rfl

end

end FieldLine

/-! ## Class bodies -/

open FieldLine in
/-- Where the body of a class consists of declarations of fields, the fields of the class are those
of the declarations that no brace cuts. -/
theorem ClassDeclaration.fieldsIn_eq {text mask ending rest rest' : Text} {lines : List FieldLine}
    {start : Nat} (hEnding : ∀ c ∈ ending, isBlank c = true)
    (hText : text.drop (start + 1) = sources lines ++ ending ++ rest)
    (hMask : mask.drop (start + 1) = sources lines ++ ending ++ rest')
    (hNames : (lines.map FieldLine.name).Nodup)
    (hLeft : ∀ line ∈ lines, ∀ left ∈ leftFrom 0 line.text, field.accepts left = false) :
    fieldsIn text mask start (start + (sources lines ++ ending).length + 2) =
      (fieldsFrom (start + 1) lines).map fun field => (field.name, field) := by
  have hStop : start + (sources lines ++ ending).length + 2 - 1 =
      start + 1 + (sources lines ++ ending).length := by
    omega
  have hKeys :
      (OrderedMap.keys ([] ++ (fieldsFrom (start + 1) lines).map fun field =>
        (field.name, field))).Nodup := by
    rw [List.nil_append, OrderedMap.keys, List.map_map]
    exact (names_fieldsFrom (start + 1) lines).nodup hNames
  have hFields := OrderedMap.foldl_put_eq_append hKeys
  rw [List.foldl_map, List.nil_append] at hFields
  rw [fieldsIn, statements, hStop, Text.slice_of_drop hMask]
  rw [List.append_assoc] at hText hMask
  rw [filterMap_statementsFrom_body hEnding hText hMask hLeft]
  exact hFields

open FieldLine ClassDeclaration in
/-- Of every class whose body consists of declarations of fields with distinct names, each with a
type, a value, both or neither, the file records the end of the body and exactly the fields whose
declarations no brace cuts, in their order, each with its type and its value as they stand in the
text. Of the declarations that a brace cuts nothing is recorded, provided that what it leaves of
them does not read as another field. -/
theorem SourceFile.fields_recorded (marker : WideText) (path : Text) {text ending rest : Text}
    {declaration : ClassDeclaration} {lines : List FieldLine}
    (hClass : declaration ∈ (SourceFile.read marker path text).classes)
    (hBody : text.drop declaration.bodyStart = '{' :: (sources lines ++ ending ++ '}' :: rest))
    (hEnding : ∀ c ∈ ending, isBlank c = true)
    (hBrace : (declaration.bodyStart, .mark '{') ∈ text.lexemes ∨
      declaration.bodyStop = declaration.bodyStart + (sources lines ++ ending).length + 2)
    (hNames : (lines.map FieldLine.name).Nodup)
    (hLeft : ∀ line ∈ lines, ∀ left ∈ leftFrom 0 line.text, field.accepts left = false) :
    declaration.bodyStop = declaration.bodyStart + (sources lines ++ ending).length + 2 ∧
      declaration.fields = (fieldsFrom (declaration.bodyStart + 1) lines).map fun field =>
        (field.name, field) := by
  obtain ⟨hShown, hStop, hFields⟩ := body_of_mem_readAll hClass
  have hText := Text.drop_succ hBody
  have hCode : ∀ c ∈ sources lines ++ ending, isCode c = true := isCode_of_mem_body hEnding
  have hBraces := closesBraces_body lines hEnding
  have hEnd : declaration.bodyStop = declaration.bodyStart +
      (sources lines ++ ending).length + 2 := by
    rcases hBrace with hMark | hEnd
    · obtain ⟨tail, hMask⟩ := exists_body_of_mark hMark hText hCode hBraces
      exact hStop.trans (braceStop_of_body hShown hMask hBraces)
    · exact hEnd
  obtain ⟨tail, hMask⟩ := exists_body_of_brace hShown hText hCode hBraces
  refine ⟨hEnd, ?_⟩
  rw [hFields, hEnd]
  exact fieldsIn_eq hEnding hText hMask hNames hLeft

open FieldLine ClassDeclaration in
/-- A name that is a modifier, braces within other brackets, and a declaration that a brace cuts. -/
theorem SourceFile.fields_recorded_nested :
    let text : Text :=
      Text.join "\n" [r"class A {", "  static = [1];", "  b: [{}][] = f({});", "  c: {};", r"}"]
    ∃ declaration ∈ (SourceFile.read (.ofText "html") "src/app.ts" text).classes,
      declaration.bodyStop = 57 ∧ declaration.fields =
        [("static".toList, ⟨"static", 12, none, some "[1]"⟩),
        ("b".toList, ⟨"b", 28, some "[{}][]", some "f({})"⟩)] := by
  generalize hText :
    Text.join "\n" [r"class A {", "  static = [1];", "  b: [{}][] = f({});", "  c: {};", r"}"] =
      text
  have hClasses :
      (SourceFile.read (.ofText "html") "src/app.ts" text).classes.map bodyStart = [8] := by
    rw [← hText]
    decide +kernel
  obtain ⟨declaration, hDeclaration, hStart⟩ := List.map_eq_singleton_iff.mp hClasses
  have hClass : declaration ∈ (SourceFile.read (.ofText "html") "src/app.ts" text).classes := by
    rw [hDeclaration]
    exact List.mem_singleton_self declaration
  have hMark : (declaration.bodyStart, Lexeme.mark '{') ∈ Text.lexemes text := by
    rw [hStart, ← hText]
    decide +kernel
  have hBody : List.drop declaration.bodyStart text = '{' ::
      (sources [⟨"\n  ", "static", none, some "[1]", by decide, by decide, by decide, by decide⟩,
        ⟨"\n  ", "b", some "[{}][]", some "f({})", by decide, by decide, by decide, by decide⟩,
        ⟨"\n  ", "c", some "{}", none, by decide, by decide, by decide, by decide⟩] ++ ['\n'] ++
          '}' :: []) := by
    rw [hStart, ← hText]
    decide
  obtain ⟨hStop, hFields⟩ :=
    SourceFile.fields_recorded (.ofText "html") "src/app.ts" hClass hBody (by decide)
    (.inl hMark) (by decide) (by decide)
  refine ⟨declaration, hClass, ?_, ?_⟩
  · rw [hStop, hStart]
    decide
  · rw [hFields, hStart]
    decide

open FieldLine ClassDeclaration in
/-- A field whose type is an object on its own is lost. -/
theorem SourceFile.fields_recorded_lost :
    ¬ ∀ (text ending rest : Text) (declaration : ClassDeclaration) (lines : List FieldLine),
      declaration ∈ (SourceFile.read (.ofText "html") "src/app.ts" text).classes →
      text.drop declaration.bodyStart = '{' :: (sources lines ++ ending ++ '}' :: rest) →
      (declaration.bodyStart, .mark '{') ∈ text.lexemes →
      (∀ c ∈ ending, isBlank c = true) → (lines.map FieldLine.name).Nodup →
      (∀ line ∈ lines, '\n' ∈ line.before ∧ (line.type ≠ none ∨ line.value ≠ none)) →
      declaration.fields.map (fun entry => (entry.1, entry.2.type, entry.2.initializer)) =
        lines.map fun line => (line.name, line.type, line.value) := by
  intro h
  let text : Text := Text.join "\n" [r"class A {", "  size: { w: number };", r"}"]
  have hClasses : (SourceFile.read (.ofText "html") "src/app.ts" text).classes =
      [⟨"A", 6, 0, none, [], [], 8, 34, []⟩] := by
    decide +kernel
  have hFields := h text "\n" [] ⟨"A", 6, 0, none, [], [], 8, 34, []⟩
    [⟨"\n  ", "size", some "{ w: number }", none, by decide, by decide, by decide, by decide⟩]
    (by rw [hClasses]; exact List.mem_singleton_self _) (by decide) (by decide)
    (by decide) (by decide) (by decide)
  cases hFields

end TemplateCheck
