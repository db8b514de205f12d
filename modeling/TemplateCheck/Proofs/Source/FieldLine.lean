import TemplateCheck.Proofs.Pattern.Preference
import TemplateCheck.Proofs.Source.Statements
import TemplateCheck.Proofs.Text.Blank

/-!
# How the declaration of a field is read

A `FieldLine` is the declaration of a field with a type, a value, both or neither, as it stands in
the body of a class.

The type and the value are captured with as few characters as possible, so they end where the rest
of the pattern can be read for the first time; in a trimmed text without semicolon and equals sign
that is its end (`prefers_tail`). A modifier in front of the name can be the name itself, and then
it is not read as a modifier, because the equals sign behind it is no name
(`FieldLine.head?_of_fieldModifier`).
-/

namespace TemplateCheck

/-! ## Declarations of fields -/

/-- Whether the character may stand in a type or a value: it is no quote, backtick, slash,
semicolon, equals sign or line break. -/
def isFieldChar (c : Char) : Bool := c ∉ ['"', '\'', '`', '/', ';', '=', '\n']

/-- A type or a value of a field: a trimmed text on one line that closes its parentheses, square
brackets and braces. -/
structure FieldText (t : Text) : Prop where
  nonempty : t ≠ []
  trimmed : t.Trimmed
  accepted : ∀ c ∈ t, isFieldChar c = true
  parentheses : t.ClosesKind Text.isParenthesis
  squares : t.ClosesKind Text.isSquare
  braces : t.ClosesKind Text.isBrace

instance (t : Text) : Decidable (FieldText t) :=
  decidable_of_iff (t ≠ [] ∧
    ((∀ c ∈ t.head?, isBlank c = false) ∧ ∀ c ∈ t.getLast?, isBlank c = false) ∧
      (∀ c ∈ t, isFieldChar c = true) ∧ t.ClosesKind Text.isParenthesis ∧
      t.ClosesKind Text.isSquare ∧
      t.ClosesKind Text.isBrace)
    ⟨fun ⟨hNonempty, ⟨hHead, hLast⟩, hAccepted, hParentheses, hSquares, hBraces⟩ =>
      ⟨hNonempty, ⟨hHead, hLast⟩, hAccepted, hParentheses, hSquares, hBraces⟩,
    fun h => ⟨h.nonempty, ⟨h.trimmed.head, h.trimmed.last⟩, h.accepted, h.parentheses,
      h.squares, h.braces⟩⟩

/-- The declaration of a field with the blanks in front of it. -/
structure FieldLine where
  before : Text
  name : Text
  type : Option Text
  value : Option Text
  blank_before : ∀ c ∈ before, isBlank c = true
  isIdentifier : name.isIdentifier = true
  typeText : ∀ t ∈ type, FieldText t ∧ '(' ∉ t
  valueText : ∀ t ∈ value, FieldText t

namespace FieldLine

/-- A part of a declaration behind its sign. -/
def part (sign : Text) : Option Text → Text
  | none => []
  | some t => sign ++ t

/-- What stands behind the name. -/
def tail (line : FieldLine) : Text := part [':', ' '] line.type ++ part [' ', '=', ' '] line.value

/-- The declaration up to its semicolon. -/
def text (line : FieldLine) : Text := line.name ++ line.tail

/-- The declaration with the blanks in front of it and its semicolon. -/
def source (line : FieldLine) : Text := line.before ++ (line.text ++ [';'])

/-- The field that is declared, its name at an offset. -/
def declared (line : FieldLine) (start : Nat) : Variable :=
  ⟨line.name, start, line.type, line.value⟩

open Pattern
open Variable (Part)
open ClassDeclaration (field fieldModifiers)

/-! ## The parts of the pattern -/

/-- A modifier of a field. -/
def fieldModifier : Pattern Part := seq (any (fieldModifiers.map lit)) blanks1

/-- A type annotation. -/
def annotation : Pattern Part :=
  all [lit [':'], blanks, capture .type (spanLazy1 (noneOf ['=', ';'])), blanks]

/-- An initial value. -/
def assignment : Pattern Part :=
  all [lit ['='], blanks, capture .initializer (spanLazy1 anyChar), blanks]

/-- The end of a declaration. -/
def ending : Pattern Part := all [opt (seq (lit [';']) blanks), atEnd]

theorem field_eq : field = all [blanks, loop fieldModifier, capture .name identifier, blanks,
    opt (seq (oneOf ['?', '!']) blanks), opt annotation, opt assignment,
    opt (seq (lit [';']) blanks), atEnd] := rfl

/-- What is recorded of a part that may be missing. -/
def recordOf (part : Part) : Option Text → List (Part × Text)
  | none => []
  | some t => [(part, t)]

/-! ## Types and values -/

theorem prefers_ending : ending.Prefers [] [] [] :=
  (Prefers.opt_of_rejects (.seq (.lit _ (by simp)) _)).seq
    ((Prefers.look fun _ => rfl).seq (.empty []))

theorem rejects_ending {c : Char} (hc : isFieldChar c = true) (t : Text) :
    ending.Rejects (c :: t) := by
  have hSemicolon : (lit [';'] : Pattern Part).Rejects (c :: t) := .lit [] (by
    rintro d ⟨⟩
    exact ne_of_class hc (by decide))
  have hBreak : c ≠ '\n' := ne_of_class hc (by decide)
  exact .opt_seq (hSemicolon.seq _) (.seq (.of_look fun _ => by simp [hBreak]) _)

/-- In front of a character of a type or a value, no declaration ends and no value begins. -/
theorem rejects_assignment {c : Char} (hc : isFieldChar c = true) (t : Text) :
    (all [opt assignment, opt (seq (lit [';']) blanks), atEnd]).Rejects (c :: t) := by
  have hSign : (lit ['='] : Pattern Part).Rejects (c :: t) := .lit [] (by
    rintro d ⟨⟩
    exact ne_of_class hc (by decide))
  exact .opt_seq (hSign.seq _) (rejects_ending hc t)

/-- Where a pattern rejects all characters of a type or a value, it does so behind
blanks in front of its end. -/
theorem rejects_blanks {q : Pattern Part} (h : ∀ c, isFieldChar c = true → ∀ t, q.Rejects (c :: t))
    {t before after : Text} (hText : FieldText t) {c : Char} (hEq : t = before ++ c :: after)
    (rest : Text) :
    (Pattern.seq .blanks q).Rejects (c :: (after ++ rest)) := by
  refine Rejects.blanks_seq (List.cons_ne_nil c after) ?_ (fun d hd => h d ?_) rest
  · intro d hd
    exact hText.trimmed.last d (by rw [hEq, List.getLast?_append, Option.mem_def.mp hd]; rfl)
  · exact hText.accepted d (hEq ▸ List.mem_append_right _ hd)

theorem exists_prefers_value {value : Option Text} (hValue : ∀ t ∈ value, FieldText t) : ∃ gap sign,
    part [' ', '=', ' '] value = gap ++ sign ∧ (∀ c ∈ gap, isBlank c = true) ∧
    (∀ c ∈ sign.head?, c = '=') ∧
      (all [opt assignment, opt (seq (lit [';']) blanks), atEnd]).Prefers sign []
        (recordOf .initializer value) := by
  cases value with
  | none =>
    have hSign : (lit ['='] : Pattern Part).Rejects [] := .lit [] (by simp)
    exact ⟨[], [], rfl, by simp, by simp, (Prefers.opt_of_rejects (hSign.seq _)).seq prefers_ending⟩
  | some e =>
    have hText := hValue e rfl
    refine ⟨[' '], '=' :: ' ' :: e, rfl, by decide, by rintro c ⟨⟩; rfl, Prefers.opt_all ?_⟩
    have hBehind :
        (all [blanks, opt (seq (lit [';']) blanks), atEnd] : Pattern Part).Prefers [] [] [] :=
      (Prefers.span (s := []) (by simp) (by simp)).seq prefers_ending
    have hCaptured := Prefers.lazy_seq anyChar Part.initializer hText.nonempty (fun _ _ => rfl)
      (fun before c after hEq _ => rejects_blanks (fun _ => rejects_ending) hText hEq []) hBehind
    have hHead : ∀ c ∈ (e ++ []).head?, isBlank c = false := by
      rw [List.append_nil]
      exact hText.trimmed.head
    have hAll : (all [lit ['='], blanks, capture Part.initializer (spanLazy1 anyChar), blanks,
        opt (seq (lit [';']) blanks), atEnd]).Prefers ('=' :: ' ' :: (e ++ [])) [] _ :=
      (Prefers.lit ['='] _).seq ((Prefers.span (s := [' ']) (by decide) hHead).seq hCaptured)
    rwa [List.append_nil] at hAll

theorem prefers_tail (line : FieldLine) :
    (all [blanks, opt (seq (oneOf ['?', '!']) blanks), opt annotation, opt assignment,
      opt (seq (lit [';']) blanks), atEnd]).Prefers line.tail []
      (recordOf .initializer line.value ++ recordOf .type line.type) := by
  obtain ⟨gap, sign, hPart, hGap, hSign, hValue⟩ := exists_prefers_value line.valueText
  have hVisible : ∀ c ∈ sign.head?, isBlank c = false := fun c hc => hSign c hc ▸ rfl
  rw [tail, hPart]
  cases hType : line.type with
  | none =>
    have hMark : (oneOf ['?', '!'] : Pattern Part).Rejects sign :=
      .char fun c hc => hSign c hc ▸ rfl
    have hColon : (lit [':'] : Pattern Part).Rejects sign :=
      .lit [] fun c hc => hSign c hc ▸ by decide
    have hAll : (all [blanks, opt (seq (oneOf ['?', '!']) blanks), opt annotation, opt assignment,
        opt (seq (lit [';']) blanks), atEnd]).Prefers (gap ++ sign) [] _ :=
      (Prefers.span hGap hVisible).seq ((Prefers.opt_of_rejects (hMark.seq blanks)).seq
        ((Prefers.opt_of_rejects (hColon.seq _)).seq hValue))
    simpa only [recordOf, part, List.append_nil, List.nil_append] using hAll
  | some t =>
    obtain ⟨hText, -⟩ := line.typeText t hType
    have hBehind : (all [blanks, opt assignment, opt (seq (lit [';']) blanks), atEnd]).Prefers
        (gap ++ sign) [] _ :=
      (Prefers.span hGap hVisible).seq hValue
    have hCaptured := Prefers.lazy_seq (noneOf ['=', ';']) Part.type hText.nonempty (fun c hc => ?_)
      (fun before c after hEq _ => rejects_blanks (fun _ => rejects_assignment) hText hEq _) hBehind
    · have hHead : ∀ c ∈ (t ++ (gap ++ sign)).head?, isBlank c = false := by
        rw [List.head?_append_of_ne_nil _ hText.nonempty]
        exact hText.trimmed.head
      have hAnnotation :
          (all [opt annotation, opt assignment, opt (seq (lit [';']) blanks), atEnd]).Prefers
          (':' :: ' ' :: (t ++ (gap ++ sign))) [] _ :=
        Prefers.opt_all ((Prefers.lit [':'] _).seq
          ((Prefers.span (s := [' ']) (by decide) hHead).seq hCaptured))
      have hMark : (oneOf ['?', '!'] : Pattern Part).Rejects (':' :: ' ' :: (t ++ (gap ++ sign))) :=
        .char (by
          rintro c ⟨⟩
          rfl)
      have hAll : (all [blanks, opt (seq (oneOf ['?', '!']) blanks), opt annotation, opt assignment,
          opt (seq (lit [';']) blanks), atEnd]).Prefers ([] ++ ':' :: ' ' :: (t ++
            (gap ++ sign))) [] _ :=
        (Prefers.span (by simp) (by rintro c ⟨⟩; rfl)).seq
          ((Prefers.opt_of_rejects (hMark.seq blanks)).seq hAnnotation)
      simpa only [recordOf, part, List.append_nil, List.nil_append, List.cons_append] using hAll
    · have hNot : c ∉ ['=', ';'] := by
        simp only [List.mem_cons, List.not_mem_nil, or_false, not_or]
        exact ⟨ne_of_class (hText.accepted c hc) (by decide),
          ne_of_class (hText.accepted c hc) (by decide)⟩
      exact decide_eq_true hNot

theorem captures_tail :
    (all [blanks, opt (seq (oneOf ['?', '!']) blanks), opt annotation, opt assignment,
      opt (seq (lit [';']) blanks), atEnd]).Captures (· ≠ Part.name) :=
  ⟨trivial, ⟨⟨trivial, trivial⟩, trivial⟩,
    ⟨⟨trivial, trivial, ⟨by decide, trivial, trivial⟩, trivial, trivial⟩, trivial⟩,
    ⟨⟨trivial, trivial, ⟨by decide, trivial, trivial⟩, trivial, trivial⟩, trivial⟩,
    ⟨⟨trivial, trivial⟩, trivial⟩, trivial, trivial⟩

/-! ## Names -/

theorem isNameChar_head?_tail (line : FieldLine) : ∀ c ∈ line.tail.head?, isNameChar c = false := by
  cases hType : line.type <;> cases hValue : line.value <;> simp only [tail, part, hType, hValue]
  · rintro c ⟨⟩
  all_goals
    rintro c ⟨⟩
    decide

theorem isBlank_head?_text (line : FieldLine) (t : Text) :
    ∀ c ∈ (line.text ++ t).head?, isBlank c = false := by
  obtain ⟨c, later, hName, hc, -⟩ := exists_cons_of_isIdentifier line.isIdentifier
  rw [text, hName]
  rintro d ⟨⟩
  exact isBlank_of_isNameChar (isNameChar_of_isNameStart hc)

theorem isNameChar_of_mem_fieldModifiers : ∀ word ∈ fieldModifiers, ∀ c ∈ word,
      isNameChar c = true := by
  decide

theorem ne_nil_of_mem_fieldModifiers : ∀ word ∈ fieldModifiers, word ≠ [] := by decide

/-- A modifier that is read in front of a declaration is its name, and an equals sign
stands behind it. -/
theorem head?_of_fieldModifier (line : FieldLine) {a b : Cursor Part} (h : fieldModifier.Reads a b)
    (hRest : a.rest = line.text) : b.rest.head? = some '=' := by
  obtain ⟨middle, hWord, hBlanks⟩ := h.seq_inv
  obtain ⟨word, hMem, hWordText⟩ := hWord.exists_word_of_any
  obtain ⟨gap, hNonempty, hGapText, hGap, -⟩ := hBlanks.span1_inv
  obtain ⟨blank, gap, rfl⟩ := List.exists_cons_of_ne_nil hNonempty
  obtain ⟨hBlank, hGap⟩ := List.forall_mem_cons.mp hGap
  have hText : line.name ++ line.tail = word ++ blank :: (gap ++ b.rest) := by
    rw [← List.cons_append, ← hGapText, ← hWordText, hRest, text]
  have hGapHead : ∀ c ∈ (blank :: (gap ++ b.rest)).head?, isNameChar c = false := by
    rintro c ⟨⟩
    exact isNameChar_of_isBlank hBlank
  obtain ⟨-, hTail⟩ := append_inj_of_class (isNameChar_of_isIdentifier line.isIdentifier)
    (isNameChar_of_mem_fieldModifiers word hMem) line.isNameChar_head?_tail hGapHead hText
  -- The tail begins with a blank only where there is a value and no type.
  cases hType : line.type with
  | some t =>
    rw [tail, hType] at hTail
    obtain rfl : ':' = blank := (List.cons.inj hTail).1
    exact absurd hBlank (by decide)
  | none =>
    cases hValue : line.value with
    | none =>
      rw [tail, hType, hValue] at hTail
      cases hTail
    | some e =>
      rw [tail, hType, hValue] at hTail
      have hSign : '=' :: ' ' :: e = gap ++ b.rest := (List.cons.inj hTail).2
      cases gap with
      | nil => rw [← List.nil_append b.rest, ← hSign, List.head?_cons]
      | cons c gap =>
        obtain rfl : '=' = c := (List.cons.inj hSign).1
        exact absurd (hGap '=' List.mem_cons_self) (by decide)

theorem rejects_fieldModifier {t : Text} (h : t.head? = some '=') : fieldModifier.Rejects t := by
  refine .of_not_reads fun a b ha hReads => ?_
  obtain ⟨middle, hWord, -⟩ := hReads.seq_inv
  obtain ⟨word, hMem, hText⟩ := hWord.exists_word_of_any
  obtain ⟨c, word, rfl⟩ := List.exists_cons_of_ne_nil (ne_nil_of_mem_fieldModifiers word hMem)
  rw [ha] at hText
  rw [hText] at h
  obtain rfl : c = '=' := Option.some.inj h
  exact absurd (isNameChar_of_mem_fieldModifiers _ hMem '=' List.mem_cons_self) (by decide)

theorem rejects_name {t : Text} (h : t.head? = some '=') (ps : List (Pattern Part)) :
    (all (capture .name identifier :: ps)).Rejects t := by
  refine Rejects.seq (.capture _ (.seq (.char fun c hc => ?_) _)) _
  obtain rfl : '=' = c := Option.some.inj (h.symm.trans hc)
  decide

/-! ## Declarations -/

/-- A declaration behind blanks is read as a field. -/
theorem exists_readStart (line : FieldLine) {gap : Text} (hGap : ∀ c ∈ gap, isBlank c = true) :
    ∃ found, field.readStart (gap ++ line.text) = some found ∧ found.text .name = line.name ∧
      found.startOf .name = gap.length ∧ found.text? .type = line.type ∧
      found.text? .initializer = line.value := by
  obtain ⟨last, -, -, hRecorded, hRun⟩ :=
    line.prefers_tail ⟨line.name.getLast?.or (gap.getLast?.or none),
    0 + gap.length + line.name.length, line.tail,
    [⟨.name, 0 + gap.length, line.name ++ line.tail, line.name.length⟩]⟩ rfl
  obtain ⟨stop, hReads, hStop⟩ := exists_reads_of_run (hRun some last rfl)
  obtain rfl : stop = last := Option.some.inj hStop
  obtain ⟨records, hCaptures, hNames⟩ := hReads.exists_captures captures_tail
  have hRead : field.readStart (gap ++ line.text) = some ⟨0, stop.offset, stop.captures⟩ := by
    have hField : field.run ⟨none, 0, gap ++ line.text, []⟩ some = some stop := by
      rw [field_eq, run_all_cons]
      refine run_blanks hGap (by simpa using line.isBlank_head?_text []) ?_
      rw [run_all_cons, run_loop fun later hLater => ?_]
      · rw [run_all_cons]
        refine run_identifier line.isIdentifier line.isNameChar_head?_tail Part.name ?_
        exact hRun some stop rfl
      · have hHead := line.head?_of_fieldModifier hLater rfl
        exact ⟨rejects_fieldModifier hHead, rejects_name hHead _ later some rfl⟩
    rw [readStart, readAt, hField, Option.map_some]
  have hNone : records.find? (fun record => record.name = Part.name) = none := by
    refine List.find?_eq_none.mpr fun record hRecord => ?_
    simpa using hNames record hRecord
  refine ⟨_, hRead, ?_, ?_, ?_, ?_⟩
  · rw [Match.text, Match.text?, Match.capture?, hCaptures, List.find?_append, hNone]
    exact List.take_left
  · rw [Match.startOf, Match.capture?, hCaptures, List.find?_append, hNone]
    exact Nat.zero_add _
  · rw [Match.text?_eq, hRecorded]
    cases line.type <;> cases line.value <;> rfl
  · rw [Match.text?_eq, hRecorded]
    cases line.type <;> cases line.value <;> rfl

theorem clean_eq_self {t : Option Text} (h : ∀ s ∈ t, FieldText s) : Variable.clean t = t := by
  cases t with
  | none => rfl
  | some s =>
    have hText := h s rfl
    have hSemicolon : ∀ c ∈ s.getLast?, decide (c = ';') = false := fun c hc =>
      decide_eq_false (ne_of_class (hText.accepted c (List.mem_of_getLast? hc)) (by decide))
    obtain ⟨c, s, rfl⟩ := List.exists_cons_of_ne_nil hText.nonempty
    rw [Variable.clean, Option.map_some, hText.trimmed.trim_eq,
      Text.dropRightWhile_eq_self hSemicolon, hText.trimmed.trim_eq]

theorem not_mem_upTo (line : FieldLine) {gap : Text} (hGap : ∀ c ∈ gap, isBlank c = true) :
    '(' ∉ Text.upTo '=' (gap ++ line.text) := by
  have hBlank {c : Char} (hc : isBlank c = false) : c ∉ gap :=
    fun hMem => absurd (hGap c hMem) (by simp [hc])
  have hName {c : Char} (hc : isNameChar c = false) : c ∉ line.name := fun hMem =>
    absurd (isNameChar_of_isIdentifier line.isIdentifier c hMem) (by simp [hc])
  have hType : '=' ∉ part [':', ' '] line.type ∧ '(' ∉ part [':', ' '] line.type := by
    cases hType : line.type with
    | none => exact ⟨List.not_mem_nil, List.not_mem_nil⟩
    | some t =>
      obtain ⟨hText, hParens⟩ := line.typeText t hType
      have hSign : '=' ∉ t := fun hMem => absurd (hText.accepted '=' hMem) (by decide)
      simp [part, hParens, hSign]
  have hFront : '=' ∉ gap ++ (line.name ++ part [':', ' '] line.type) := by
    simp [hBlank (c := '=') (by decide), hName (c := '=') (by decide), hType.1]
  have hEq : gap ++ line.text =
      (gap ++ (line.name ++ part [':', ' '] line.type)) ++ part [' ', '=', ' '] line.value := by
    simp only [text, tail, List.append_assoc]
  have hValue : '(' ∉ Text.upTo '=' (part [' ', '=', ' '] line.value) := by
    cases line.value with
    | none => exact List.not_mem_nil
    | some e => simp [part, Text.upTo]
  rw [hEq, Text.upTo_append hFront]
  simp [hBlank (c := '(') (by decide), hName (c := '(') (by decide), hType.2, hValue]

/-- Where the text and its mask have a declaration for a statement, the statement
declares its field. -/
theorem fieldAt?_eq (line : FieldLine) {text mask gap : Text} {start stop : Nat}
    (hGap : ∀ c ∈ gap, isBlank c = true) (hText : Text.slice text start stop = gap ++ line.text)
    (hMask : Text.slice mask start stop = gap ++ line.text) :
    ClassDeclaration.fieldAt? text mask (start, stop) =
      some (line.declared (start + gap.length)) := by
  obtain ⟨found, hFound, hName, hStart, hType, hValue⟩ := line.exists_readStart hGap
  unfold ClassDeclaration.fieldAt?
  dsimp only
  rw [hMask, hText, if_neg (line.not_mem_upTo hGap), hFound]
  simp only [Option.bind_eq_bind, Option.bind_some, Option.getD_some, hName, hStart, hType,
    hValue, declared, clean_eq_self fun t ht => (line.typeText t ht).1,
    clean_eq_self line.valueText]
  rfl

/-- A statement in which no field can be read declares none. -/
theorem fieldAt?_eq_none {text mask left : Text} {start stop : Nat}
    (hMask : Text.slice mask start stop = left) (hLeft : field.accepts left = false) :
    ClassDeclaration.fieldAt? text mask (start, stop) = none := by
  have hNone : field.readStart left = none :=
    Option.not_isSome_iff_eq_none.mp (Bool.eq_false_iff.mp hLeft)
  unfold ClassDeclaration.fieldAt?
  dsimp only
  rw [hMask, hNone]
  split_ifs <;> rfl

end FieldLine

end TemplateCheck
