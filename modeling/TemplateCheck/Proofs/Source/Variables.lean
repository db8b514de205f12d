import TemplateCheck.Proofs.OrderedMap.Groups
import TemplateCheck.Proofs.Source.Declaration
import TemplateCheck.Proofs.Source.WordStart

/-!
# The recorded values of variables

A declaration is found in the mask and read once more in the source text, where the contents of
strings are seen. If in the source text nothing but a keyword, a name, a type and blanks stands in
front of the value, then what is recorded is the text at the place where the mask has the value, up
to its first semicolon (`SourceFile.initializer_recorded`). So a value without semicolon is recorded
whole, and one with a semicolon in a string is cut (`SourceFile.initializer_recorded_cut`).
-/

namespace TemplateCheck

/-! ## The mask over a value -/

/-- What a mask shows of a character. -/
def Covers (shown c : Char) : Prop := shown = c ∨ shown = ' ' ∧ c ≠ '\n'

theorem Code.covers_ofText (t : Text) : List.Forall₂ Covers (Code.ofText t).mask t := by
  refine List.forall₂_iff_get.mpr ⟨(Code.masks_ofText t).length_eq, fun i hMask hText => ?_⟩
  rcases Code.getElem?_mask t (List.getElem?_eq_getElem hText) with hSame | ⟨hSpace, hBreak, -⟩
  · rw [List.getElem?_eq_getElem hMask] at hSame
    exact .inl (Option.some.inj hSame)
  · rw [List.getElem?_eq_getElem hMask] at hSpace
    exact .inr ⟨Option.some.inj hSpace, hBreak⟩

namespace Covers

variable {shown c : Char} {mask t : Text}

theorem eq_of_ne (h : Covers shown c) (hSpace : shown ≠ ' ') : c = shown :=
  (h.resolve_right fun hHidden => hSpace hHidden.1).symm

theorem isBlank (h : Covers shown c) (hc : isBlank c = true) : isBlank shown = true := by
  rcases h with rfl | ⟨rfl, -⟩
  · exact hc
  · decide

theorem forall_isBlank (h : List.Forall₂ Covers mask t)
    (ht : ∀ c ∈ t, TemplateCheck.isBlank c = true) :
    ∀ c ∈ mask, TemplateCheck.isBlank c = true := by
  induction h with
  | nil => exact ht
  | cons hFirst _ ih =>
    obtain ⟨hc, ht⟩ := List.forall_mem_cons.mp ht
    exact List.forall_mem_cons.mpr ⟨hFirst.isBlank hc, ih ht⟩

/-- A line feed is shown. -/
theorem forall_ne_lineFeed (h : List.Forall₂ Covers mask t) (hMask : ∀ c ∈ mask, c ≠ '\n') :
    ∀ c ∈ t, c ≠ '\n' := by
  induction h with
  | nil => exact hMask
  | cons hFirst _ ih =>
    obtain ⟨hShown, hMask⟩ := List.forall_mem_cons.mp hMask
    refine List.forall_mem_cons.mpr ⟨?_, ih hMask⟩
    rcases hFirst with rfl | ⟨-, hBreak⟩
    · exact hShown
    · exact hBreak

theorem ends (h : List.Forall₂ Covers mask t) (hMask : Variable.Ends mask) : Variable.Ends t := by
  cases h with
  | nil => exact hMask
  | @cons shown c _ _ hFirst _ =>
    rintro d ⟨⟩
    have hShown := hMask shown rfl
    rwa [← hFirst.eq_of_ne (by rcases hShown with rfl | rfl <;> decide)] at hShown

end Covers

namespace Variable

open Pattern

/-- A value that begins with a blank is that blank alone: had the blanks in front of it gone on over
it, the declaration would have ended there. -/
theorem TakenValue.later_eq_nil {shown : Char} {later rest : Text}
    (h : TakenValue (shown :: later) rest) (hShown : isBlank shown = true) : later = [] := by
  have hEnds := h.longest [shown] (later ++ rest) (List.cons_ne_nil _ _)
    rfl (List.forall_mem_singleton.mpr hShown)
  cases later with
  | nil => rfl
  | cons c later =>
    have hc := h.accepted c (List.mem_cons_of_mem _ List.mem_cons_self)
    rcases hEnds c rfl with rfl | rfl <;> exact absurd hc (by decide)

theorem TakenValue.exists_visible {taken rest t : Text} {c : Char} (h : TakenValue taken rest)
    (hCovers : List.Forall₂ Covers (taken ++ rest) (c :: t)) (hc : isBlank c = false)
    (hSemicolon : c ≠ ';') :
    ∃ left, c :: t = Text.upTo ';' ((c :: t).take taken.length) ++ left ∧
      VisibleValue (Text.upTo ';' ((c :: t).take taken.length)) left := by
  have hInside := List.forall₂_take taken.length hCovers
  have hBehind := List.forall₂_drop taken.length hCovers
  rw [List.take_left] at hInside
  rw [List.drop_left] at hBehind
  have hBreak := Covers.forall_ne_lineFeed hInside fun d hd =>
    ne_of_class (h.accepted d hd) (by decide)
  obtain ⟨left, hSplit, hNot, hLeft⟩ := Text.exists_upTo_append ';' ((c :: t).take taken.length)
  have hUpTo : ∃ more, Text.upTo ';' ((c :: t).take taken.length) = c :: more := by
    obtain ⟨shown, later, rfl⟩ := List.exists_cons_of_ne_nil h.nonempty
    exact ⟨_, List.takeWhile_cons_of_pos (decide_eq_true hSemicolon)⟩
  obtain ⟨more, hMore⟩ := hUpTo
  refine ⟨left ++ (c :: t).drop taken.length, ?_, ?_, ?_, fun d hd => decide_eq_true ?_, ?_⟩
  · rw [← List.append_assoc, ← hSplit, List.take_append_drop]
  · rw [hMore]
    exact List.cons_ne_nil c more
  · rw [hMore]
    rintro d ⟨⟩
    exact hc
  · simp only [List.mem_cons, List.not_mem_nil, or_false, not_or]
    refine ⟨fun hEq => hNot (hEq ▸ hd), hBreak d ?_⟩
    rw [hSplit]
    exact List.mem_append_left _ hd
  · cases left with
    | nil => exact Covers.ends hBehind h.ends
    | cons d left =>
      rintro e ⟨⟩
      exact .inl (hLeft d rfl)

/-- Where the text under a value begins with a blank, it has only blanks up to a
semicolon or its end. -/
theorem TakenValue.exists_blanks {taken rest t : Text} {c : Char} (h : TakenValue taken rest)
    (hCovers : List.Forall₂ Covers (taken ++ rest) (c :: t)) (hc : isBlank c = true) :
    ∃ gap left, c :: t = gap ++ left ∧ gap ≠ [] ∧ (∀ d ∈ gap, isBlank d = true) ∧
      ∀ d ∈ left.head?, d = ';' := by
  have hLeft := forall_head?_dropWhile isBlank (c :: t)
  have hGap : ∀ d ∈ (c :: t).takeWhile isBlank, isBlank d = true :=
    fun d hd => List.mem_takeWhile_imp hd
  have hNonempty : (c :: t).takeWhile isBlank ≠ [] := by
    rw [List.takeWhile_cons_of_pos hc]
    exact List.cons_ne_nil _ _
  have hText : (c :: t).takeWhile isBlank ++ (c :: t).dropWhile isBlank = c :: t :=
    List.takeWhile_append_dropWhile
  refine ⟨_, _, hText.symm, hNonempty, hGap, fun d hd => ?_⟩
  -- The blanks of the mask over these could have been passed too.
  generalize (c :: t).takeWhile isBlank = gap at *
  generalize (c :: t).dropWhile isBlank = left at *
  rw [← hText] at hCovers
  have hMore := List.forall₂_take gap.length hCovers
  have hBehind := List.forall₂_drop gap.length hCovers
  rw [List.take_left] at hMore
  rw [List.drop_left] at hBehind
  have hSome : (taken ++ rest).take gap.length ≠ [] := fun hNil =>
    hNonempty (List.forall₂_nil_left_iff.mp (hNil ▸ hMore))
  have hEnds := h.longest _ _ hSome (List.take_append_drop _ _).symm
    (Covers.forall_isBlank hMore hGap)
  rcases Covers.ends hBehind hEnds d hd with rfl | rfl
  · rfl
  · exact absurd (hLeft _ hd) (by decide)

/-- A text under a value either begins with a value, which goes on to the first semicolon, or has
nothing but blanks up to a semicolon or its end; then the mask has only a blank for a value. -/
theorem TakenValue.text_cases {taken rest t : Text} (h : TakenValue taken rest)
    (hCovers : List.Forall₂ Covers (taken ++ rest) t) :
    (∃ left, t = Text.upTo ';' (t.take taken.length) ++ left ∧
      VisibleValue (Text.upTo ';' (t.take taken.length)) left) ∨
    ∃ gap left, t = gap ++ left ∧ (∀ c ∈ gap, isBlank c = true) ∧ (∀ c ∈ left.head?, c = ';') ∧
      (∀ c ∈ Text.upTo ';' (t.take taken.length), isBlank c = true) ∧ ∀ c ∈ taken,
        isBlank c = true := by
  obtain ⟨shown, later, rfl⟩ := List.exists_cons_of_ne_nil h.nonempty
  obtain ⟨c, t, hFirst, -, rfl⟩ := List.forall₂_cons_left_iff.mp hCovers
  by_cases hBlank : isBlank c = true
  · have hShown := hFirst.isBlank hBlank
    obtain rfl := h.later_eq_nil hShown
    obtain ⟨gap, left, hText, hNonempty, hGap, hLeft⟩ := h.exists_blanks hCovers hBlank
    refine .inr ⟨gap, left, hText, hGap, hLeft, fun d hd => ?_,
      List.forall_mem_singleton.mpr hShown⟩
    have hMem := (List.takeWhile_prefix _).subset hd
    obtain rfl : d = c := by simpa using hMem
    exact hBlank
  · by_cases hSemicolon : c = ';'
    · have hShown : isBlank shown = true := by
        subst hSemicolon
        rcases hFirst with rfl | ⟨rfl, -⟩
        · exact absurd (h.accepted ';' List.mem_cons_self) (by decide)
        · decide
      obtain rfl := h.later_eq_nil hShown
      subst hSemicolon
      exact .inr ⟨[], _, rfl, by simp, by rintro d ⟨⟩; rfl, by simp [Text.upTo],
        List.forall_mem_singleton.mpr hShown⟩
    · exact .inl (h.exists_visible hCovers (Bool.eq_false_iff.mpr hBlank) hSemicolon)

/-! ## What is recorded -/

theorem clean_eq_none {t : Text} (h : ∀ c ∈ t, isBlank c = true) : clean (some t) = none := by
  rw [clean, Option.map_some, Text.trim_eq_nil h]
  rfl

/-- What is recorded of a declaration is what the source text has for it, or what the mask has. -/
theorem initializer_ofDeclaration {text : Text} {found : Match Part} {value : Option Text}
    (hText : ∀ inText, declaration.readFrom text found.start = some inText →
      clean (inText.text? .initializer) = value)
    (hMask : clean (found.text? .initializer) = value) :
    (ofDeclaration text found).initializer = value := by
  unfold ofDeclaration
  cases hRead : declaration.readFrom text found.start with
  | none => exact hMask
  | some inText =>
    dsimp only
    split_ifs
    · exact hText inText hRead
    · exact hMask

theorem initializer_ofDeclaration_of_readFrom {text : Text} {found inText : Match Part}
    (hRead : declaration.readFrom text found.start = some inText)
    (hName : inText.text? .name = some (found.text .name)) :
    (ofDeclaration text found).initializer = clean (inText.text? .initializer) := by
  unfold ofDeclaration
  rw [hRead]
  dsimp only
  rw [if_pos hName]

theorem ofDeclaration_mem {text mask : Text} {found : Match Part}
    (h : found ∈ declaration.readAll mask) :
    ofDeclaration text found ∈
      (OrderedMap.get? (readAll text mask) (found.text .name)).getD [] := by
  have hMem := List.mem_map_of_mem (f := ofDeclaration text) h
  have hKey : found.text .name ∈
      distinct (((declaration.readAll mask).map (ofDeclaration text)).map Variable.name) := by
    rw [mem_distinct]
    exact List.mem_map.mpr ⟨_, hMem, rfl⟩
  rw [readAll, OrderedMap.foldl_extend, OrderedMap.get?_tabulate_of_mem hKey, Option.getD_some]
  exact List.mem_filter.mpr ⟨hMem, decide_eq_true rfl⟩

end Variable

open Variable in
/-- Of a variable whose declaration is found in the mask, the file records what the source text has
at the place of the value, up to the first semicolon, if nothing but a keyword, a name, a type and
blanks stands in front of it. -/
theorem SourceFile.initializer_recorded (marker : WideText) (path : Text) {text : Text}
    {found : Pattern.Match Part} {record : Pattern.Capture Part}
    (hFound : found ∈ declaration.readAll (SourceFile.read marker path text).mask)
    (hRecord : found.capture? .initializer = some record)
    (hFront : Front (found.text .name) (Text.slice text found.start record.start)) :
    ∃ declared ∈ (OrderedMap.get? (SourceFile.read marker path text).variableDeclarations
        (found.text .name)).getD [],
      declared.name = found.text .name ∧ declared.start = found.startOf .name ∧
      declared.initializer =
        clean (some (Text.upTo ';' (Text.slice text record.start (record.start + record.length)))) ∧
      (';' ∉ Text.slice text record.start (record.start + record.length) →
        declared.initializer =
          clean (some (Text.slice text record.start (record.start + record.length)))) := by
  have hRead := Pattern.readFrom_of_mem_readAll hFound
  obtain ⟨header, gap, taken, rest, hMask, -, -, rfl, hTaken⟩ :=
    exists_value_of_readFrom hRead hRecord
  generalize hPlace : found.start + header.length + 1 + gap.length = place at hFront hRecord ⊢
  dsimp only at hFront ⊢
  -- Where the mask has the value, the text has what the value stands for.
  have hBehind : (Code.ofText text).mask.drop place = taken ++ rest := by
    have hGap := Text.drop_succ (Text.drop_add_length hMask)
    rw [← hPlace]
    exact Text.drop_add_length hGap
  have hCovers := List.forall₂_drop place (Code.covers_ofText text)
  rw [hBehind] at hCovers
  have hSlice : Text.slice text place (place + taken.length) =
      (text.drop place).take taken.length := by
    rw [Text.slice, Nat.add_sub_cancel_left]
  have hText : text.drop found.start = Text.slice text found.start place ++ text.drop place := by
    have hSplit := (List.take_append_drop (place - found.start) (text.drop found.start)).symm
    rwa [List.drop_drop, Nat.add_sub_cancel' (by omega)] at hSplit
  have hInitializer : (ofDeclaration text found).initializer =
      clean (some (Text.upTo ';' (Text.slice text place (place + taken.length)))) := by
    rw [hSlice]
    rcases hTaken.text_cases hCovers with
      ⟨left, hSplit, hValue⟩ | ⟨blanks, left, hBlanks, hGap, hLeft, hBlank, hHidden⟩
    · obtain ⟨⟨word, hKeyword, later, hShown⟩, hEdge⟩ := exists_keyword_of_readFrom hRead
      obtain ⟨c, d, more, rfl, hc, hd⟩ := exists_cons_of_mem_keywords hKeyword
      have hHere : text.drop found.start = Text.slice text found.start place ++
          (Text.upTo ';' ((text.drop place).take taken.length) ++ left) := by rw [← hSplit, hText]
      obtain ⟨inText, hInText, hName, hRecorded⟩ := hFront.exists_readFrom hHere hValue
        (Text.inWord_before_shown hc hd hShown hEdge)
      rw [initializer_ofDeclaration_of_readFrom hInText hName, hRecorded]
    · rw [clean_eq_none hBlank]
      rw [hBlanks] at hText
      refine initializer_ofDeclaration (fun inText hInText => ?_) ?_
      · cases hValue : inText.text? .initializer with
        | none => rfl
        | some value =>
          exact clean_eq_none (hFront.isBlank_of_readFrom hText hGap hLeft hInText hValue)
      · rw [Pattern.Match.text?, hRecord, Option.map_some, Pattern.Capture.text, List.take_left,
          clean_eq_none hHidden]
  refine ⟨ofDeclaration text found, ofDeclaration_mem hFound, rfl, rfl, hInitializer,
    fun hSemicolon => ?_⟩
  rw [hInitializer, Text.upTo_of_not_mem hSemicolon]

open Variable in
/-- A value with strings behind a type with strings. -/
theorem SourceFile.initializer_recorded_union : ∃ found record,
    found ∈ declaration.readAll
      (SourceFile.read (.ofText "html") "src/app.ts"
        "let mode: 'on' | 'off' = pick('a', 'b');").mask ∧
    found.capture? .initializer = some record ∧
    Front (found.text .name)
      (Text.slice "let mode: 'on' | 'off' = pick('a', 'b');" found.start record.start) ∧
    ∃ declared ∈ (OrderedMap.get? (SourceFile.read (.ofText "html") "src/app.ts"
        "let mode: 'on' | 'off' = pick('a', 'b');").variableDeclarations "mode").getD [],
      declared.name = "mode" ∧ declared.start = 4 ∧
      declared.initializer = some "pick('a', 'b')" := by
  have hFound : ((declaration.readAll (SourceFile.read (.ofText "html") "src/app.ts"
      "let mode: 'on' | 'off' = pick('a', 'b');").mask).head?.map fun found =>
      (found.start, found.text .name, found.startOf .name,
        (found.capture? .initializer).map fun record => (record.start, record.length))) =
      some (0, "mode".toList, 4, some (25, 14)) := by decide
  obtain ⟨found, hHead, hParts⟩ := Option.map_eq_some_iff.mp hFound
  obtain ⟨hStart, hName, hPlace, hRecord⟩ : found.start = 0 ∧ found.text .name = "mode".toList ∧
      found.startOf .name = 4 ∧
      (found.capture? .initializer).map (fun record => (record.start, record.length)) =
        some (25, 14) := by simpa using hParts
  obtain ⟨record, hCapture, hRange⟩ := Option.map_eq_some_iff.mp hRecord
  obtain ⟨hFrom, hLength⟩ := Prod.mk.inj hRange
  have hMem := List.mem_of_mem_head? hHead
  have hFront : Front (found.text .name)
      (Text.slice "let mode: 'on' | 'off' = pick('a', 'b');" found.start record.start) := by
    rw [hName, hStart, hFrom]
    have hType : TypePart (':' :: ([' '] ++ ("'on' | 'off'".toList ++ [' ']))) :=
      .type (by decide) (by decide) (by decide) (by decide)
    exact @Front.mk "mode" "let" [' '] [] _ [' '] (by decide) ⟨by decide, by decide⟩
      (by decide) (by simp) hType
      (by decide)
  obtain ⟨declared, hDeclared, hDeclaredName, hDeclaredStart, hValue, -⟩ :=
    SourceFile.initializer_recorded (.ofText "html") "src/app.ts" hMem hCapture hFront
  rw [hName] at hDeclared hDeclaredName
  rw [hFrom, hLength] at hValue
  refine ⟨found, record, hMem, hCapture, hFront, declared, hDeclared, hDeclaredName,
    hDeclaredStart.trans hPlace, ?_⟩
  exact hValue.trans (by decide)

open Variable in
/-- A semicolon in a string cuts the value, although there is no comment in it. -/
theorem SourceFile.initializer_recorded_cut :
    ¬ ∀ (text : Text) (found : Pattern.Match Part) (record : Pattern.Capture Part),
      found ∈ declaration.readAll (SourceFile.read (.ofText "html") "src/app.ts" text).mask →
      found.capture? .initializer = some record →
      (∀ start comment, (start, .comment comment) ∈ text.lexemes →
        start + comment.length ≤ record.start ∨ record.start + record.length ≤ start) →
      ∃ declared ∈ (OrderedMap.get?
          (SourceFile.read (.ofText "html") "src/app.ts" text).variableDeclarations
          (found.text .name)).getD [],
        declared.start = found.startOf .name ∧
        declared.initializer =
          clean (some (Text.slice text record.start (record.start + record.length))) := by
  intro h
  have hFound :
      ((declaration.readAll
        (SourceFile.read (.ofText "html") "src/app.ts" "const a = 'x;y'").mask).head?.map
      fun found => (found.text .name, (found.capture? .initializer).map fun record =>
        (record.start, record.length))) =
      some ("a".toList, some (10, 5)) := by decide
  obtain ⟨found, hHead, hParts⟩ := Option.map_eq_some_iff.mp hFound
  obtain ⟨hName, hRecord⟩ := Prod.mk.inj hParts
  obtain ⟨record, hCapture, hRange⟩ := Option.map_eq_some_iff.mp hRecord
  obtain ⟨hFrom, hLength⟩ := Prod.mk.inj hRange
  have hLexemes : Text.lexemes "const a = 'x;y'" =
      [(0, .word "const"), (5, .mark ' '), (6, .word "a"), (7, .mark ' '),
      (8, .mark '='), (9, .mark ' '), (10, .quoted "'x;y'")] := by decide
  have hComments : ∀ start comment, (start, .comment comment) ∈ Text.lexemes "const a = 'x;y'" →
      start + comment.length ≤ record.start ∨ record.start + record.length ≤ start := by
    rw [hLexemes]
    simp only [List.mem_cons, Prod.mk.injEq, reduceCtorEq, and_false, List.not_mem_nil,
      or_self, false_implies, implies_true]
  obtain ⟨declared, hDeclared, -, hValue⟩ :=
    h "const a = 'x;y'" found record (List.mem_of_mem_head? hHead) hCapture hComments
  have hVariables :
      (SourceFile.read (.ofText "html") "src/app.ts" "const a = 'x;y'").variableDeclarations =
      [("a".toList, [⟨"a", 6, none, some "'x"⟩])] := by decide
  rw [hName, hVariables] at hDeclared
  obtain rfl : declared = ⟨"a", 6, none, some "'x"⟩ := by simpa [OrderedMap.get?] using hDeclared
  rw [hFrom, hLength] at hValue
  exact absurd hValue (by decide)

end TemplateCheck
