import TemplateCheck.Proofs.Source.ImportText
import TemplateCheck.Proofs.Source.Printing
import TemplateCheck.Proofs.Text.Position
import TemplateCheck.Source.File

/-!
# Reading written imports

Reading a source file undoes writing import statements, one on each line
(`SourceFile.imports_read_print`).

1. `ReadsAs` says what the mask of a text shows; it can be carried backwards over the characters of
   a statement and over its specifier.
2. The matches in the text are the statements, each with the blanks behind it if it ends without a
   semicolon.
3. The line of a statement is the number of line feeds before it.
-/

namespace TemplateCheck

/-! ## What the mask shows -/

/-- After the end of a word that may go on in it, a text is read to its end in whatever context,
and `mask` shows it. -/
def ReadsAs (t mask : Text) : Prop :=
  ∀ context, ∃ code, Code.Reads context none (t.dropWhile isNameChar) code [] ∧
    t.takeWhile isNameChar ++ code.mask = mask

namespace ReadsAs

variable {c : Char} {t mask : Text}

theorem reads (h : ReadsAs t mask) (context : Context) :
    ∃ code, Code.Reads context none t code [] ∧ code.mask = mask := by
  cases t with
  | nil => exact h context
  | cons c t =>
    by_cases hName : isNameChar c = true
    · obtain ⟨rest, hRest, hMask⟩ :=
        h ⟨(c :: t.takeWhile isNameChar).getLast?, c :: t.takeWhile isNameChar⟩
      rw [List.dropWhile_cons_of_pos hName] at hRest
      rw [List.takeWhile_cons_of_pos hName] at hMask
      exact ⟨.word _ rest, .word (Lexeme.read_name hName context) hRest, hMask⟩
    · have hCode := h context
      rw [List.dropWhile_cons_of_neg hName, List.takeWhile_cons_of_neg hName] at hCode
      exact hCode

theorem mask_ofText (h : ReadsAs t mask) : (Code.ofText t).mask = mask := by
  obtain ⟨code, hReads, hMask⟩ := h.reads .start
  rw [hReads.ofText_eq, hMask]

theorem nil : ReadsAs [] [] := fun context => ⟨.done, .done context none, rfl⟩

theorem of_reads (hName : isNameChar c = false)
    (h : ∀ context, ∃ code, Code.Reads context none (c :: t) code [] ∧ code.mask = mask) :
    ReadsAs (c :: t) mask := by
  have hNot : ¬ isNameChar c = true := by simp [hName]
  intro context
  rw [List.dropWhile_cons_of_neg hNot, List.takeWhile_cons_of_neg hNot]
  exact h context

theorem name (hName : isNameChar c = true) (h : ReadsAs t mask) : ReadsAs (c :: t) (c :: mask) := by
  intro context
  obtain ⟨code, hReads, hMask⟩ := h context
  rw [List.dropWhile_cons_of_pos hName, List.takeWhile_cons_of_pos hName]
  exact ⟨code, hReads, congrArg (c :: ·) hMask⟩

theorem mark (hRead : ∀ context t, Lexeme.read context c t = (.mark c, t))
    (hName : isNameChar c = false) (h : ReadsAs t mask) : ReadsAs (c :: t) (c :: mask) := by
  refine of_reads hName fun context => ?_
  obtain ⟨rest, hRest, hMask⟩ := h.reads (context.afterMark c)
  have hBraces : bracesAfter none c = none := by
    rw [bracesAfter]
    split_ifs <;> rfl
  refine ⟨.mark c rest, .mark (hRead context t) (by simp) ?_, congrArg (c :: ·) hMask⟩
  rwa [hBraces]

theorem quoted (string : Script.Quoted) (h : ReadsAs t mask) :
    ReadsAs (string.print ++ t) (maskQuoted string.print ++ mask) := by
  have hName : isNameChar string.quote = false := by
    rcases string.isQuote with h | h <;> rw [h] <;> decide
  have hPrint : string.print ++ t = string.quote :: (string.inside ++ string.quote :: t) := by
    simp [Script.Quoted.print]
  rw [hPrint]
  refine of_reads hName fun context => ?_
  obtain ⟨rest, hRest, hMask⟩ := h.reads ⟨some string.quote, []⟩
  refine ⟨.quoted string.print rest, .quoted (Lexeme.read_quoted string context t) hRest, ?_⟩
  rw [Code.mask, hMask]

end ReadsAs

/-! ## The characters of statements -/

/-- Characters other than those of names that stand in a statement outside its specifier. -/
def clauseMarks : Text := [' ', ',', '*', ';', '{', '}']

theorem isNameChar_of_mem_clauseMarks : ∀ c ∈ clauseMarks, isNameChar c = false := by decide

theorem Lexeme.read_clauseMark {c : Char} (hc : c ∈ clauseMarks) (context : Context) (t : Text) :
    Lexeme.read context c t = (.mark c, t) := by
  have hCases : (isPlain c = true ∧ isNameChar c = false) ∨ c = '{' ∨ c = '}' := by
    revert c
    decide
  rcases hCases with ⟨hPlain, hName⟩ | rfl | rfl
  · exact Lexeme.read_plain hPlain hName context
  · exact Lexeme.read_openingBrace context t
  · exact Lexeme.read_closingBrace context t

theorem ReadsAs.append {s t mask : Text} (hs : ∀ c ∈ s, isNameChar c = true ∨ c ∈ clauseMarks)
    (h : ReadsAs t mask) : ReadsAs (s ++ t) (s ++ mask) := by
  induction s with
  | nil => exact h
  | cons c s ih =>
    obtain ⟨hc, hs⟩ := List.forall_mem_cons.mp hs
    rcases hc with hName | hMark
    · exact (ih hs).name hName
    · exact (ih hs).mark (Lexeme.read_clauseMark hMark) (isNameChar_of_mem_clauseMarks c hMark)

theorem ReadsAs.blanks {s t mask : Text} (hs : ∀ c ∈ s, isBlank c = true) (h : ReadsAs t mask) :
    ReadsAs (s ++ t) (s ++ mask) := by
  induction s with
  | nil => exact h
  | cons c s ih =>
    obtain ⟨hc, hs⟩ := List.forall_mem_cons.mp hs
    have hName := isNameChar_of_isBlank hc
    exact (ih hs).mark (fun context t =>
      Lexeme.read_plain (isPlain_of_isBlank hc) hName context) hName

theorem length_maskQuoted (t : Text) : (maskQuoted t).length = t.length := by
  cases t with
  | nil => rfl
  | cons c t => exact congrArg (· + 1) (length_hideInit t)

namespace ImportText

variable (statement : ImportText)

/-- A statement up to its specifier. -/
def front : Text :=
  "import" ++ ' ' :: (typeMark statement.isType ++
    (statement.clause.print ++ ' ' :: ("from" ++ [' '])))

theorem print_eq : statement.print =
      statement.front ++ (statement.specifier.print ++ statement.semicolon) := by
  unfold print front
  simp only [List.append_assoc, List.cons_append, List.nil_append]

theorem front_chars : ∀ c ∈ statement.front, isNameChar c = true ∨ c ∈ clauseMarks := by
  have hName (name : BoundName) : ∀ c ∈ name.text, isNameChar c = true ∨ c ∈ clauseMarks :=
    fun c hc => .inl (name.isNameChar_text c hc)
  have hGroup (group : GroupText) : ∀ c ∈ group.print, isNameChar c = true ∨ c ∈ clauseMarks := by
    cases group with
    | star name => exact List.forall_mem_append.mpr ⟨by decide, hName name⟩
    | list entries =>
      refine List.forall_mem_cons.mpr ⟨by decide,
        List.forall_mem_append.mpr ⟨fun c hc => ?_, by decide⟩⟩
      by_contra hNot
      obtain ⟨hChar, hMark⟩ := not_or.mp hNot
      have hMarks : ∀ d ∈ [' ', ','], d ∈ clauseMarks := by decide
      exact Import.not_mem_printAll entries (Bool.eq_false_iff.mpr hChar)
        (fun hMem => hMark (hMarks c hMem)) hc
  have hClause : ∀ c ∈ statement.clause.print, isNameChar c = true ∨ c ∈ clauseMarks := by
    cases statement.clause with
    | default name => exact hName name
    | group others => exact hGroup others
    | both name others =>
      exact List.forall_mem_append.mpr ⟨hName name,
        List.forall_mem_append.mpr ⟨by decide, hGroup others⟩⟩
  have hType : ∀ c ∈ typeMark statement.isType, isNameChar c = true ∨ c ∈ clauseMarks := by
    rw [typeMark]
    cases statement.isType with
    | true => exact List.forall_mem_cons.mpr ⟨by decide, by decide⟩
    | false => simp
  refine List.forall_mem_append.mpr ⟨by decide, List.forall_mem_cons.mpr ⟨by decide, ?_⟩⟩
  refine List.forall_mem_append.mpr ⟨hType, List.forall_mem_append.mpr ⟨hClause, by decide⟩⟩

/-- What is shown of a statement. -/
def mask : Text := statement.front ++ (maskQuoted statement.specifier.print ++ statement.semicolon)

theorem length_mask : statement.mask.length = statement.print.length := by
  rw [mask, print_eq]
  simp only [List.length_append, length_maskQuoted]

theorem readsAs {t shown : Text} (h : ReadsAs t shown) :
    ReadsAs (statement.print ++ t) (statement.mask ++ shown) := by
  have hSemicolon : ∀ c ∈ statement.semicolon, isNameChar c = true ∨ c ∈ clauseMarks := by
    rw [semicolon]
    cases statement.closed with
    | true => decide
    | false => simp
  have hBehind := (h.append hSemicolon).quoted statement.specifier
  have hWhole := hBehind.append statement.front_chars
  simpa only [print_eq, mask, List.append_assoc] using hWhole

theorem not_mem_print : '\n' ∉ statement.print := by
  have hFront : '\n' ∉ statement.front := fun hMem =>
    absurd (statement.front_chars _ hMem) (by decide)
  have hQuote : '\n' ≠ statement.specifier.quote := by
    rcases statement.specifier.isQuote with h | h <;> rw [h] <;> decide
  have hSpecifier : '\n' ∉ statement.specifier.print := by
    have hInside : '\n' ∉ statement.specifier.inside :=
      fun hMem => (statement.specifier.fits _ hMem).2.1 rfl
    simp [Script.Quoted.print, hQuote, hInside]
  have hSemicolon : '\n' ∉ statement.semicolon := by
    rw [semicolon]
    cases statement.closed <;> decide
  rw [print_eq]
  simp only [List.mem_append, not_or]
  exact ⟨hFront, hSpecifier, hSemicolon⟩

/-! ## Files -/

/-- The number of blanks between a statement and the next one, or the end of the text. -/
def gapBefore (ending : Text) : List ImportText → Nat
  | [] => ending.length
  | _ :: _ => 1

/-- The imports that stand for statements one on each line, from a line and an offset on. -/
def importsFrom (filePath ending : Text) : (line start : Nat) → List ImportText → List Import
  | _, _, [] => []
  | line, start, statement :: later =>
    statement.imports filePath (line + 1) start (statement.stop start (gapBefore ending later)) ++
      importsFrom filePath ending (line + 1) (start + statement.print.length + 1) later

/-- Statements one on each line, with `ending` after the last one. -/
def printAll (ending : Text) (statements : List ImportText) : Text :=
  Text.join ['\n'] (statements.map print) ++ ending

/-- What is shown of statements one on each line. -/
def maskAll (ending : Text) (statements : List ImportText) : Text :=
  Text.join ['\n'] (statements.map mask) ++ ending

theorem printAll_cons_cons (ending : Text) (next : ImportText) (later : List ImportText) :
    printAll ending (statement :: next :: later) =
      statement.print ++ '\n' :: printAll ending (next :: later) := by
  simp only [printAll, List.map_cons, Text.join, List.append_assoc, List.cons_append,
    List.nil_append]

theorem maskAll_cons_cons (ending : Text) (next : ImportText) (later : List ImportText) :
    maskAll ending (statement :: next :: later) =
      statement.mask ++ '\n' :: maskAll ending (next :: later) := by
  simp only [maskAll, List.map_cons, Text.join, List.append_assoc, List.cons_append,
    List.nil_append]

/-- Written statements are shown but for their specifiers. -/
theorem readsAs_printAll {ending : Text} (hEnding : ∀ c ∈ ending, isBlank c = true)
    (statements : List ImportText) :
    ReadsAs (printAll ending statements) (maskAll ending statements) := by
  have hEnd : ReadsAs ending ending := by
    have hBlanks := ReadsAs.nil.blanks hEnding
    rwa [List.append_nil] at hBlanks
  cases statements with
  | nil => exact hEnd
  | cons statement later =>
    induction later generalizing statement with
    | nil => exact statement.readsAs hEnd
    | cons next later ih =>
      rw [printAll_cons_cons, maskAll_cons_cons]
      have hBreak : ∀ c ∈ ['\n'], isBlank c = true := by decide
      exact statement.readsAs ((ih next).blanks hBreak)

theorem head?_printAll (ending : Text) (later : List ImportText) :
    (printAll ending (statement :: later)).head? = some 'i' := by
  cases later <;> rfl

theorem getElem?_of_drop_eq {mask ending : Text} {later : List ImportText} {offset : Nat}
    (h : mask.drop offset = maskAll ending (statement :: later)) : mask[offset]? = some 'i' := by
  have hHead : (maskAll ending (statement :: later)).head? = some 'i' := by cases later <;> rfl
  obtain ⟨rest, hRest⟩ := List.head?_eq_some_iff.mp hHead
  exact Text.getElem?_of_drop (h.trans hRest)

theorem ofStatement_found {statement : ImportText} {filePath text mask : Text} {offset stop : Nat}
    (hMask : mask[offset]? = some 'i') {captures : List (Pattern.Capture Import.Part)}
    (hCaptured : Pattern.recorded captures = statement.captured) :
    (if mask[offset]? = some 'i' then
      Import.ofStatement filePath (Text.lineStarts text) ⟨offset, stop, captures⟩ else []) =
      statement.imports filePath (((text.take offset).count '\n' : Nat) + 1) offset stop := by
  rw [if_pos hMask, Import.ofStatement_eq statement _ _ hCaptured, Text.line_positionIn]

/-- Statements from an offset on are read, each with its line and where it stands. -/
theorem flatMap_readAllFrom {filePath ending text mask : Text}
    (hEnding : ∀ c ∈ ending, isBlank c = true) (later : List ImportText) {offset line : Nat}
    (hText : text.drop offset = printAll ending (statement :: later))
    (hMask : mask.drop offset = maskAll ending (statement :: later))
    (hLine : (text.take offset).count '\n' = line) {previous : Option Char}
    (hPrevious : Pattern.inWord previous = false) :
    (Import.statement.readAllFrom 0 previous offset (printAll ending (statement :: later))).flatMap
      (fun found => if mask[found.start]? = some 'i' then
        Import.ofStatement filePath (Text.lineStarts text) found else []) =
      importsFrom filePath ending line offset (statement :: later) := by
  induction later generalizing statement offset line previous with
  | nil =>
    obtain ⟨captures, previous', hCaptured, -, hFound⟩ :=
      Import.exists_readAllFrom_print statement (t := []) hEnding (by simp) hPrevious offset
    rw [List.append_nil] at hFound
    show List.flatMap _ (Import.statement.readAllFrom 0 previous offset
        (statement.print ++ ending)) = _
    rw [hFound, List.flatMap_cons,
      ofStatement_found (statement.getElem?_of_drop_eq hMask) hCaptured, hLine]
    rfl
  | cons next later ih =>
    have hShown := statement.getElem?_of_drop_eq hMask
    have hBreak : ∀ c ∈ ['\n'], isBlank c = true := by decide
    have hHead : ∀ c ∈ (printAll ending (next :: later)).head?, isBlank c = false ∧ c ≠ ';' := by
      rw [head?_printAll]
      rintro c ⟨⟩
      decide
    obtain ⟨captures, previous', hCaptured, hEdge, hFound⟩ :=
      Import.exists_readAllFrom_print statement hBreak hHead hPrevious offset
    rw [printAll_cons_cons] at hText ⊢
    rw [maskAll_cons_cons] at hMask
    have hNextText := Text.drop_succ (Text.drop_add_length hText)
    have hNextMask := Text.drop_succ (Text.drop_add_length hMask)
    rw [length_mask] at hNextMask
    have hNextLine : (text.take (offset + statement.print.length + 1)).count '\n' = line + 1 := by
      have hLength : (statement.print ++ ['\n']).length = statement.print.length + 1 :=
        List.length_append
      rw [Nat.add_assoc, List.take_add, hText, List.append_cons, List.take_left' hLength,
        List.count_append, hLine, List.count_append,
        List.count_eq_zero.mpr statement.not_mem_print, Nat.zero_add]
      rfl
    rw [List.singleton_append] at hFound
    rw [hFound, List.flatMap_cons, ofStatement_found hShown hCaptured, hLine, importsFrom]
    exact congrArg (_ ++ ·) (ih next hNextText hNextMask hNextLine hEdge)

end ImportText

/-- Reading a source file undoes writing import statements, one on each line. -/
theorem SourceFile.imports_read_print (marker : WideText) (path : Text)
    (statements : List ImportText) (ending : Text) (hEnding : ∀ c ∈ ending, isBlank c = true) :
    (SourceFile.read marker path
      (Text.join ['\n'] (statements.map ImportText.print) ++ ending)).imports =
      ImportText.importsFrom path ending 0 0 statements := by
  have hMask := (ImportText.readsAs_printAll hEnding statements).mask_ofText
  show Import.readAll path (ImportText.printAll ending statements)
    (Code.ofText (ImportText.printAll ending statements)).mask = _
  rw [hMask, Import.readAll, Pattern.readAll]
  cases statements with
  | nil =>
    have hNone : Import.statement.readAllFrom 0 none 0 ending = [] := by
      refine Pattern.readAllFrom_eq_nil
        (fun before c after hEq => Import.rejects_statement ?_) none 0
      rintro d ⟨⟩
      exact hEnding c (by simp [hEq])
    show List.flatMap _ (Import.statement.readAllFrom 0 none 0 ending) = []
    rw [hNone, List.flatMap_nil]
  | cons statement later =>
    exact statement.flatMap_readAllFrom hEnding later List.drop_zero List.drop_zero rfl rfl

/-- A statement for types with a default name and a list, and a namespace without a semicolon. -/
theorem SourceFile.imports_read_print_types :
    (SourceFile.read (.ofText "html") "src/view.ts"
      "import type A, { b, type c as d } from 'm';\nimport * as ns from \"n\"\n").imports =
        [⟨"A", "m", "src/view.ts", 1, .type, none, 0, 43⟩,
          ⟨"b", "m", "src/view.ts", 1, .type, none, 0, 43⟩,
          ⟨"d", "m", "src/view.ts", 1, .type, some "c", 0, 43⟩,
          ⟨"ns", "n", "src/view.ts", 2, .star, none, 44, 68⟩] := by
  let first : ImportText :=
    { isType := true
      clause := .both ⟨"A", by decide, by decide⟩
        (.list [⟨false, none, ⟨"b", by decide, by decide⟩⟩,
        ⟨true, some ⟨"c", by decide, by decide⟩, ⟨"d", by decide, by decide⟩⟩])
      specifier := ⟨'\'', "m", .inr rfl, by decide⟩
      specifier_ne_nil := by decide
      specifier_fits := by decide
      closed := true }
  let second : ImportText :=
    { isType := false
      clause := .group (.star ⟨"ns", by decide, by decide⟩)
      specifier := ⟨'"', "n", .inl rfl, by decide⟩
      specifier_ne_nil := by decide
      specifier_fits := by decide
      closed := false }
  have hText : "import type A, { b, type c as d } from 'm';\nimport * as ns from \"n\"\n".toList =
      Text.join ['\n'] ([first, second].map ImportText.print) ++ ['\n'] := by decide
  rw [hText, SourceFile.imports_read_print (.ofText "html") "src/view.ts" [first, second]
    ['\n'] (by decide)]
  rfl

end TemplateCheck
