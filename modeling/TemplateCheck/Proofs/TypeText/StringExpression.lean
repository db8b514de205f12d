import TemplateCheck.Proofs.Pattern.Run
import TemplateCheck.Proofs.TypeText.Layout
import TemplateCheck.Proofs.TypeText.Literal
import TemplateCheck.TypeText.Inference

/-!
# Strings as expressions

A string has its own literal type, written in double quotes, whatever quotes it stands in. The
exception is a string that reads as a cast: casts are tried before strings and are looked for in the
whole text, so the words `as` and `satisfies` count between quotes too.

`IsCast` says how the content of a string reads as a cast, and of several such readings the last one
counts (`castOf?_string`). If what stands before it is balanced, the string has the type behind it,
the closing quote included; in all other cases it has its literal type (`infer_string`).
-/

namespace TemplateCheck

namespace TypeText

open Text

/-! ## Casts -/

/-- The content of a string reads as the cast of a value to a type. -/
inductive IsCast : (content value type : Text) → Prop
  | intro {value gap word gap' type : Text} (value_last : ∀ c ∈ value.getLast?, isBlank c = false)
      (isGap : Pattern.IsGap gap) (word_eq : word = "as".toList ∨ word = "satisfies".toList)
      (isGap' : Pattern.IsGap gap') (no_parenthesis : ∀ c ∈ type, c ∉ ['(', ')'])
      (type_head : ∀ c ∈ type.head?, isBlank c = false) :
      IsCast (value ++ (gap ++ (word ++ (gap' ++ type)))) value type

theorem IsCast.intro_trimStart {value gap word gap' type : Text}
    (value_last : ∀ c ∈ value.getLast?, isBlank c = false) (isGap : Pattern.IsGap gap)
    (word_eq : word = "as".toList ∨ word = "satisfies".toList) (isGap' : Pattern.IsGap gap')
    (no_parenthesis : ∀ c ∈ type, c ∉ ['(', ')']) :
    IsCast (value ++ (gap ++ (word ++ (gap' ++ type)))) value (trimStart type) := by
  have hGap : Pattern.IsGap (gap' ++ type.takeWhile isBlank) :=
    ⟨List.append_ne_nil_of_left_ne_nil isGap'.1 _,
      List.forall_mem_append.mpr ⟨isGap'.2, fun _ => List.mem_takeWhile_imp⟩⟩
  have hCast := IsCast.intro value_last isGap word_eq hGap
    (fun c hc => no_parenthesis c ((List.dropWhile_sublist _).subset hc))
    (isBlank_head?_trimStart type)
  rwa [List.append_assoc gap', List.takeWhile_append_dropWhile] at hCast

/-- No cast in the content stands behind this one. -/
def IsLastCast (content value type : Text) : Prop :=
  IsCast content value type ∧ ∀ value' type', IsCast content value' type' →
    value'.length ≤ value.length

theorem isBlank_head?_word {word : Text} (h : word = "as".toList ∨ word = "satisfies".toList)
    (t : Text) :
    ∀ c ∈ (word ++ t).head?, isBlank c = false := by
  rcases h with rfl | rfl
  · rintro c ⟨⟩
    decide
  · rintro c ⟨⟩
    decide

theorem as_append_ne (s t : Text) : "as".toList ++ s ≠ "satisfies".toList ++ t := by
  intro h
  have hHead : some 'a' = some 's' := congrArg List.head? h
  exact absurd (Option.some.inj hHead) (by decide)

/-- The value of a cast determines its type. -/
theorem IsCast.type_eq {content value type type' : Text} (h : IsCast content value type)
    (h' : IsCast content value type') : type = type' := by
  cases h with
  | @intro _ gap word gap' _ _ hGap hWord hGap' _ hHead =>
    generalize hContent : value ++ (gap ++ (word ++ (gap' ++ type))) = content at h'
    cases h' with
    | @intro _ other word' other' _ _ hOther hWord' hOther' _ hHead' =>
      obtain ⟨-, hBehind⟩ := append_inj_of_class hGap.2 hOther.2 (isBlank_head?_word hWord _)
        (isBlank_head?_word hWord' _) (List.append_cancel_left hContent)
      rcases hWord with rfl | rfl
      · rcases hWord' with rfl | rfl
        · exact (append_inj_of_class hGap'.2 hOther'.2 hHead hHead'
            (List.append_cancel_left hBehind)).2
        · exact absurd hBehind (as_append_ne _ _)
      · rcases hWord' with rfl | rfl
        · exact absurd hBehind.symm (as_append_ne _ _)
        · exact (append_inj_of_class hGap'.2 hOther'.2 hHead hHead'
            (List.append_cancel_left hBehind)).2

theorem IsCast.eq_of_length {content value type value' type' : Text} (h : IsCast content value type)
    (h' : IsCast content value' type') (hLength : value.length = value'.length) :
    value = value' ∧ type = type' := by
  obtain rfl : value = value' := by
    obtain ⟨rest, rfl⟩ : ∃ rest, content = value ++ rest := by
      cases h
      exact ⟨_, rfl⟩
    obtain ⟨rest', hContent⟩ : ∃ rest', value ++ rest = value' ++ rest' := by
      generalize value ++ rest = content at h'
      cases h'
      exact ⟨_, rfl⟩
    exact List.append_inj_left hContent hLength
  exact ⟨rfl, h.type_eq h'⟩

theorem not_isCast_of_forall {content : Text} (h : ∀ c ∈ content, isBlank c = false)
    (value type : Text) :
    ¬ IsCast content value type := by
  intro hCast
  cases hCast with
  | intro _ hGap =>
    obtain ⟨c, gap, rfl⟩ := List.exists_cons_of_ne_nil hGap.1
    have hVisible := h c (List.mem_append_right _ List.mem_cons_self)
    rw [hGap.2 c List.mem_cons_self] at hVisible
    cases hVisible

/-! ## How casts are read -/

open Pattern in
/-- What follows the value of a cast. -/
def castTail : Pattern CastPart :=
  all [blanks1, either (lit "as") (lit "satisfies"), blanks1,
    capture .type (span1 (noneOf ['(', ')'])), atEnd]

/-- A reading behind a value passes a word between blanks and records a type, up to the
end of the text. -/
theorem exists_of_reads_castTail {a b : Pattern.Cursor CastPart} (h : castTail.Reads a b)
    (hLast : a.rest.getLast? ≠ some '\n') :
    ∃ gap word gap' type record, Pattern.IsGap gap ∧
      (word = "as".toList ∨ word = "satisfies".toList) ∧
      Pattern.IsGap gap' ∧ type ≠ [] ∧ (∀ c ∈ type, c ∉ ['(', ')']) ∧
      a.rest = gap ++ (word ++ (gap' ++ type)) ∧ b.captures = record :: a.captures ∧
      record.name = .type ∧ record.text = type := by
  obtain ⟨afterGap, hGap, h⟩ := h.seq_inv
  obtain ⟨afterWord, hWord, h⟩ := h.seq_inv
  obtain ⟨afterGap', hGap', h⟩ := h.seq_inv
  obtain ⟨afterType, hType, h⟩ := h.seq_inv
  obtain ⟨stop, hEnd, hEmpty⟩ := h.seq_inv
  cases hEmpty with
  | empty =>
    obtain ⟨rfl, hRest⟩ := hEnd.rest_of_atEnd
    obtain ⟨gap, hGapNonempty, hGapRest, hGapBlank, hGapCaptures⟩ := hGap.span1_inv
    obtain ⟨gap', hGapNonempty', hGapRest', hGapBlank', hGapCaptures'⟩ := hGap'.span1_inv
    obtain ⟨inside, type, record, hInside, hTypeRest, hInsideRest, hCaptures, hName, hText⟩ :=
      hType.capture_inv
    obtain ⟨read, hNonempty, hRead, hClass, hInsideCaptures⟩ := hInside.span1_inv
    obtain ⟨word, hWordEq, hWordRest, hWordCaptures⟩ : ∃ word : Text,
        (word = "as".toList ∨ word = "satisfies".toList) ∧ afterGap.rest = word ++ afterWord.rest ∧
          afterWord.captures = afterGap.captures := by
      cases hWord with
      | left _ hWord => exact ⟨_, .inl rfl, hWord.lit_inv⟩
      | right _ hWord => exact ⟨_, .inr rfl, hWord.lit_inv⟩
    obtain rfl : type = read := by
      have hSame : type ++ b.rest = read ++ b.rest := by rw [← hTypeRest, hRead, hInsideRest]
      exact List.append_cancel_right hSame
    have hWhole : a.rest = gap ++ (word ++ (gap' ++ (type ++ b.rest))) := by
      rw [hGapRest, hWordRest, hGapRest', hTypeRest]
    -- The text does not end in a line feed, so nothing is left behind the type.
    have hStop : b.rest = [] := by
      refine hRest.resolve_right fun hBreak => hLast ?_
      rw [hWhole, hBreak, ← List.append_assoc, ← List.append_assoc, ← List.append_assoc,
        List.getLast?_concat]
    refine ⟨gap, word, gap', type, record, ⟨hGapNonempty, hGapBlank⟩, hWordEq,
      ⟨hGapNonempty', hGapBlank'⟩, hNonempty, fun c hc => of_decide_eq_true (hClass c hc), ?_,
      ?_, hName, hText⟩
    · rw [hWhole, hStop, List.append_nil]
    · rw [hCaptures, hInsideCaptures, hGapCaptures', hWordCaptures, hGapCaptures]

theorem exists_reads_castTail {gap word gap' type : Text} (hGap : Pattern.IsGap gap)
    (hWord : word = "as".toList ∨ word = "satisfies".toList) (hGap' : Pattern.IsGap gap')
    (hNonempty : type ≠ []) (hType : ∀ c ∈ type, c ∉ ['(', ')']) (cursor : Pattern.Cursor CastPart)
    (hRest : cursor.rest = gap ++ (word ++ (gap' ++ type))) :
    ∃ last, castTail.Reads cursor last := by
  have hTakesWord :
      (Pattern.either (.lit "as".toList) (.lit "satisfies".toList) :
        Pattern CastPart).Takes word := by
    rcases hWord with rfl | rfl
    · exact (Pattern.Takes.lit _).left _
    · exact (Pattern.Takes.lit _).right _
  have hTakesType : (Pattern.span1 (Pattern.noneOf ['(', ')']) : Pattern CastPart).Takes type :=
    .span1 hNonempty fun c hc => decide_eq_true (hType c hc)
  obtain ⟨a, hFirst, ha⟩ := (Pattern.Takes.span1 (ι := CastPart) hGap.1 hGap.2) cursor _ hRest
  obtain ⟨b, hSecond, hb⟩ := hTakesWord a _ ha
  obtain ⟨c, hThird, hc⟩ := (Pattern.Takes.span1 (ι := CastPart) hGap'.1 hGap'.2) b _ hb
  obtain ⟨d, hFourth, hd⟩ := hTakesType c [] (by rw [hc, List.append_nil])
  refine ⟨_, .seq hFirst
    (.seq hSecond (.seq hThird (.seq (.capture .type hFourth) (.seq (.look ?_) (.empty _)))))⟩
  show (decide (d.rest = []) || decide (d.rest = ['\n'])) = true
  rw [hd]
  rfl

/-- How the reading of a cast goes on at the last character of its value. -/
def castFrom (t : Text) : Pattern.Next CastPart := fun middle =>
  (Pattern.char fun c => !isBlank c).run middle fun later =>
    castTail.run { later with captures := ⟨.value, 0, t, later.offset - 0⟩ :: later.captures } some

theorem run_cast (t : Text) : cast.run ⟨none, 0, t, []⟩ some =
    Pattern.spanMost Pattern.anyChar (castFrom t) [] none 0 t := rfl

/-! ## Strings that read as casts -/

section

variable {quote : Quote} {content : Text}

/-- A string as it is written. -/
def stringText (quote : Quote) (content : Text) : Text := quote.char :: (content ++ [quote.char])

theorem Quote.fits (quote : Quote) : isBlank quote.char = false ∧ quote.char ∉ ['(', ')'] ∧
    quote.char ≠ '\n' := by
  cases quote <;> decide

theorem getLast?_stringText : (stringText quote content).getLast? = some quote.char := by
  rw [stringText, ← List.cons_append, List.getLast?_concat]

/-- Of three parts of a string the first begins with the opening quote, and the last ends
with the closing one. -/
theorem exists_content_of_stringText {front middle whole : Text}
    (h : stringText quote content = front ++ (middle ++ whole)) (hFront : front ≠ [])
    (hWhole : whole ≠ []) :
    ∃ value type, front = quote.char :: value ∧
    whole = type ++ [quote.char] ∧ content = value ++ (middle ++ type) := by
  obtain ⟨first, value, rfl⟩ := List.exists_cons_of_ne_nil hFront
  rw [stringText, List.cons_append] at h
  obtain ⟨rfl, hContent⟩ := List.cons.inj h
  rw [← List.append_assoc] at hContent
  obtain ⟨type, rfl⟩ : ∃ type, whole = type ++ [quote.char] := by
    refine List.getLast?_eq_some_iff.mp ?_
    rw [← List.getLast?_append_of_ne_nil (value ++ middle) hWhole, ← hContent, List.getLast?_concat]
  refine ⟨value, type, rfl, rfl, ?_⟩
  rw [← List.append_assoc] at hContent
  rw [List.append_cancel_right hContent, List.append_assoc]

theorem getLast?_of_stringText {front rest : Text} (h : stringText quote content = front ++ rest)
    (hNonempty : rest ≠ []) : rest.getLast? = some quote.char := by
  rw [← List.getLast?_append_of_ne_nil front hNonempty, ← h, getLast?_stringText]

theorem getLast?_ne_lineFeed {front rest : Text} (h : stringText quote content = front ++ rest) :
    rest.getLast? ≠ some '\n' := by
  intro hBreak
  have hNonempty : rest ≠ [] := by
    rintro rfl
    cases hBreak
  rw [getLast?_of_stringText h hNonempty] at hBreak
  exact quote.fits.2.2 (Option.some.inj hBreak)

theorem length_and_getLast?_of_concat_eq_cons {read value : Text} {first last : Char}
    (h : read ++ [last] = first :: value) :
    value.length = read.length ∧
    ∀ c ∈ value.getLast?, c = last := by
  constructor
  · have hLength := congrArg List.length h
    simp only [List.length_append, List.length_cons, List.length_nil] at hLength
    omega
  · intro c hc
    have hLast : (first :: value).getLast? = some last := by rw [← h, List.getLast?_concat]
    rw [List.getLast?_cons, Option.mem_def.mp hc] at hLast
    exact Option.some.inj hLast

/-- Where a reading goes on behind a value, the content of the string reads as a cast. -/
theorem exists_cast_of_castFrom {t read rest : Text} {last : Pattern.Cursor CastPart}
    (ht : t = stringText quote content) (hText : t = read ++ rest)
    (h : castFrom t ((⟨none, 0, t, []⟩ : Pattern.Cursor CastPart).after read rest) = some last) :
    ∃ value type blanks, IsCast content value type ∧ value.length = read.length ∧
      (∀ c ∈ blanks, isBlank c = true) ∧
      (last.captures.find? (·.name = .value)).map (·.text) = some (quote.char :: value) ∧
      (last.captures.find? (·.name = .type)).map (·.text) =
        some (blanks ++ (type ++ [quote.char])) := by
  simp only [castFrom, Pattern.run, Pattern.Cursor.after] at h
  cases rest with
  | nil => cases h
  | cons c rest =>
    dsimp only at h
    split_ifs at h with hc
    have hVisible : isBlank c = false := by simpa using hc
    obtain ⟨stop, hReads, hStop⟩ := Pattern.exists_reads_of_run h
    obtain rfl := Option.some.inj hStop
    have hBehind : t = (read ++ [c]) ++ rest := by
      rw [hText, List.append_assoc, List.singleton_append]
    obtain ⟨gap, word, gap', whole, record, hGap, hWord, hGap', hNonempty, hClass, hRest,
      hCaptures, hName, hRecord⟩ :=
        exists_of_reads_castTail hReads (getLast?_ne_lineFeed (ht.symm.trans hBehind))
    have hRest : rest = gap ++ (word ++ (gap' ++ whole)) := hRest
    have hParts : stringText quote content =
        (read ++ [c]) ++ ((gap ++ (word ++ gap')) ++ whole) := by
      rw [← ht, hBehind, hRest]
      simp only [List.append_assoc]
    obtain ⟨value, type, hValue, rfl, hContent⟩ :=
      exists_content_of_stringText hParts (List.concat_ne_nil c read) hNonempty
    obtain ⟨hLength, hEnd⟩ := length_and_getLast?_of_concat_eq_cons hValue
    refine ⟨value, trimStart type, type.takeWhile isBlank, ?_, hLength,
      fun _ => List.mem_takeWhile_imp, ?_, ?_⟩
    · have hCast := IsCast.intro_trimStart (fun d hd => hEnd d hd ▸ hVisible) hGap hWord hGap'
        fun d hd => hClass d (List.mem_append_left _ hd)
      rw [hContent]
      simpa only [List.append_assoc] using hCast
    · rw [hCaptures, List.find?_cons_of_neg (by rw [hName]; decide)]
      show some (t.take (0 + read.length + 1 - 0)) = _
      rw [hBehind, ← hValue, List.take_left' (by simp)]
    · have hType : type.takeWhile isBlank ++ trimStart type = type :=
        List.takeWhile_append_dropWhile
      rw [hCaptures, List.find?_cons_of_pos (by rw [hName]; decide), Option.map_some, hRecord,
        ← List.append_assoc, hType]

theorem exists_castFrom_of_cast (quote : Quote) {value type : Text}
    (h : IsCast content value type) :
    ∃ read rest, stringText quote content = read ++ rest ∧ value.length = read.length ∧
      (castFrom (stringText quote content)
        ((⟨none, 0, stringText quote content, []⟩ :
          Pattern.Cursor CastPart).after read rest)).isSome = true := by
  cases h with
  | @intro _ gap word gap' _ hEnd hGap hWord hGap' hType _ =>
    obtain ⟨c, hc⟩ := Option.isSome_iff_exists.mp
      (List.getLast?_isSome.mpr (List.cons_ne_nil quote.char value))
    obtain ⟨read, hRead⟩ := List.getLast?_eq_some_iff.mp hc
    have hVisible : isBlank c = false := by
      rw [List.getLast?_cons] at hc
      cases hLast : value.getLast? with
      | none =>
        rw [hLast] at hc
        exact Option.some.inj hc ▸ quote.fits.1
      | some d =>
        rw [hLast] at hc
        exact Option.some.inj hc ▸ hEnd d hLast
    have hBehind : stringText quote (value ++ (gap ++ (word ++ (gap' ++ type)))) =
        read ++ (c :: (gap ++ (word ++ (gap' ++ (type ++ [quote.char]))))) := by
      rw [stringText, List.append_cons read, ← hRead]
      simp only [List.cons_append, List.append_assoc]
    refine ⟨read, _, hBehind, (length_and_getLast?_of_concat_eq_cons hRead.symm).1, ?_⟩
    simp only [castFrom, Pattern.run, Pattern.Cursor.after]
    rw [if_pos (by rw [hVisible, Bool.not_false])]
    have hWhole : ∀ c ∈ type ++ [quote.char], c ∉ ['(', ')'] :=
      List.forall_mem_append.mpr ⟨hType, fun c hc => List.mem_singleton.mp hc ▸ quote.fits.2.1⟩
    obtain ⟨last, hReads⟩ :=
      exists_reads_castTail hGap hWord hGap' (List.concat_ne_nil quote.char type) hWhole
      ⟨some c, 0 + read.length + 1, gap ++ (word ++ (gap' ++ (type ++ [quote.char]))), _⟩ rfl
    exact hReads.isSome_run rfl rfl

theorem balanced_cons_quote (quote : Quote) (t : Text) :
    balanced (quote.char :: t) = balanced t := by
  cases quote <;> rfl

/-- A string is split as its last cast says, the opening quote going to the value and the
closing one to the type. -/
theorem castOf?_string (quote : Quote) (content : Text) :
    (castOf? (stringText quote content) = none ∧ ∀ value type, ¬ IsCast content value type) ∨
      ∃ value type blanks, IsLastCast content value type ∧ (∀ c ∈ blanks, isBlank c = true) ∧
        castOf? (stringText quote content) =
          if balanced value then
            some (quote.char :: value, blanks ++ (type ++ [quote.char])) else none := by
  unfold castOf? Pattern.readStart Pattern.readAt
  rw [run_cast]
  generalize hRun : Pattern.spanMost Pattern.anyChar (castFrom (stringText quote content)) [] none 0
    (stringText quote content) = found
  cases found with
  | none =>
    refine .inl ⟨rfl, fun value type hCast => ?_⟩
    obtain ⟨read, rest, hText, -, hSome⟩ := exists_castFrom_of_cast quote hCast
    have hAny : ∀ c ∈ read, Pattern.anyChar c = true := fun _ _ => rfl
    have hFound := Pattern.isSome_spanMost hAny (hText ▸ hSome)
    rw [← hText, hRun] at hFound
    cases hFound
  | some last =>
    obtain ⟨read, rest, hText, -, hNext, hLonger⟩ := Pattern.exists_longest_of_spanMost hRun
    obtain ⟨value, type, blanks, hCast, hLength, hBlanks, hValue, hType⟩ :=
      exists_cast_of_castFrom rfl hText hNext
    refine .inr ⟨value, type, blanks, ⟨hCast, fun value' type' hCast' => ?_⟩, hBlanks, ?_⟩
    · -- A reading behind a longer value would have been preferred.
      obtain ⟨read', rest', hText', hLength', hSome⟩ := exists_castFrom_of_cast quote hCast'
      by_contra hLong
      obtain ⟨more, rfl, rfl⟩ : ∃ more, read' = read ++ more ∧ rest = more ++ rest' := by
        rcases List.append_eq_append_iff.mp (hText.symm.trans hText') with hMore | ⟨more, rfl, -⟩
        · exact hMore
        · rw [List.length_append] at hLength
          omega
      have hMore : more ≠ [] := by
        rintro rfl
        rw [List.append_nil] at hLength'
        omega
      rw [hLonger more rest' hMore rfl fun c _ => rfl] at hSome
      cases hSome
    · have hValueText :
          (⟨0, last.offset, last.captures⟩ : Pattern.Match CastPart).text .value =
            quote.char :: value := by
        rw [Pattern.Match.text, Pattern.Match.text?, Pattern.Match.capture?, hValue,
          Option.getD_some]
      have hTypeText :
          (⟨0, last.offset, last.captures⟩ : Pattern.Match CastPart).text .type =
            blanks ++ (type ++ [quote.char]) := by
        rw [Pattern.Match.text, Pattern.Match.text?, Pattern.Match.capture?, hType,
          Option.getD_some]
      rw [Option.map_some, Option.bind_some, hValueText, hTypeText, balanced_cons_quote]

/-! ## The type of a string -/

theorem trimmed_stringText : (stringText quote content).Trimmed := by
  constructor
  · rintro c ⟨⟩
    exact quote.fits.1
  · rw [getLast?_stringText]
    rintro c ⟨⟩
    exact quote.fits.1

/-- The literal type of a string. -/
def stringType (content : Text) : Text := '"' :: (content ++ ['"'])

/-- Only a cast is looked for in a string before its quotes are. -/
theorem inferUpTo_string (program : Program) (expression : Expression) (depth : Nat)
    (plain : quote.char ∉ content) :
    inferUpTo program expression (depth + 1) (stringText quote content) =
      match castOf? (stringText quote content) with
      | some (value, type) =>
        if trim type = "const".toList then inferUpTo program expression depth value
        else ⟨normalize type, some expression.filePath⟩
      | none => ⟨stringType content, some expression.filePath⟩ := by
  have hNonempty : stringText quote content ≠ [] := List.cons_ne_nil _ _
  have hParens : stripParens (stringText quote content) = stringText quote content := by
    refine stripParens_eq_self trimmed_stringText ?_
    rw [getLast?_stringText]
    intro hLast
    exact quote.fits.2.1 (by simp [Option.some.inj hLast])
  have hString : isStringLiteral (stringText quote content) = true :=
    Literal.isStringLiteral_of_not_mem plain
  have hInner : Text.inner (stringText quote content) = content := List.dropLast_concat
  rw [inferUpTo, if_neg hNonempty, hParens]
  dsimp only
  rw [if_pos hString, hInner]
  rfl

theorem trim_type_ne_const (blanks type : Text) :
    trim (blanks ++ (type ++ [quote.char])) ≠ "const".toList := by
  intro hConst
  have hMem : quote.char ∈ trim (blanks ++ (type ++ [quote.char])) :=
    mem_trim (by simp) quote.fits.1
  rw [hConst] at hMem
  revert hMem
  cases quote <;> decide

theorem normalize_blanks_append {blanks : Text} (h : ∀ c ∈ blanks, isBlank c = true) (t : Text) :
    normalize (blanks ++ t) = normalize t := by
  rw [← normalize_trim, trim_blanks_append h, normalize_trim]

/-- A string has its literal type; but if the value of the last cast in it is balanced, what stands
behind that cast counts as its type. -/
theorem infer_string (program : Program) (expression : Expression) (quote : Quote) (content : Text)
    (hText : expression.text = stringText quote content) (plain : quote.char ∉ content) :
    ((∀ value type, IsLastCast content value type → balanced value = false) →
      infer program expression = ⟨stringType content, some expression.filePath⟩) ∧
    ∀ value type, IsLastCast content value type → balanced value = true →
      infer program expression = ⟨normalize (type ++ [quote.char]), some expression.filePath⟩ := by
  rw [infer, hText, trimmed_stringText.trim_eq, depthLimit,
    inferUpTo_string program expression 8 plain]
  rcases castOf?_string quote content with
    ⟨hNone, hNot⟩ | ⟨value, type, blanks, hLast, hBlanks, hCast⟩
  · rw [hNone]
    exact ⟨fun _ => rfl, fun value type hLast => absurd hLast.1 (hNot value type)⟩
  · rw [hCast]
    constructor
    · intro hUnbalanced
      rw [hUnbalanced value type hLast, if_neg Bool.false_ne_true]
    · intro value' type' hLast' hBalanced
      obtain ⟨rfl, rfl⟩ := hLast.1.eq_of_length hLast'.1
        (Nat.le_antisymm (hLast'.2 _ _ hLast.1) (hLast.2 _ _ hLast'.1))
      rw [if_pos hBalanced]
      dsimp only
      rw [if_neg (trim_type_ne_const blanks type), normalize_blanks_append hBlanks]

end

theorem infer_string_draft :
    let infer (text : Text) : TypeRef := TypeText.infer (.empty {}) ⟨text, 0, 0, "view.ts", none⟩
    infer "\"draft\"" = ⟨"\"draft\"", some "view.ts"⟩ ∧
      infer "'save as draft'" = ⟨"draft'", some "view.ts"⟩ := by
  intro infer
  constructor
  · refine (infer_string (.empty {}) _ .double "draft" rfl (by decide)).1 ?_
    intro value type hLast
    exact absurd hLast.1 (not_isCast_of_forall (by decide) value type)
  · rcases castOf?_string .single "save as draft" with
      ⟨hNone, -⟩ | ⟨value, type, blanks, hLast, hBlanks, hCast⟩
    · exact absurd hNone (by decide)
    · have hSome : castOf? (stringText .single "save as draft") =
          some (("'save" : Text), ("draft'" : Text)) := by
        decide
      rw [hSome] at hCast
      split_ifs at hCast with hBalanced
      obtain ⟨-, hType⟩ := Prod.mk.inj (Option.some.inj hCast)
      have hInfer := (infer_string (.empty {}) ⟨"'save as draft'", 0, 0, "view.ts", none⟩ .single
        "save as draft" rfl (by decide)).2 value type hLast hBalanced
      rw [← normalize_blanks_append hBlanks, ← hType] at hInfer
      exact hInfer.trans (by decide)

/-- Quotes do not keep the words in them from reading as a cast. -/
theorem infer_string_as :
    ¬ ∀ (quote : Quote) (content : Text), (∀ c ∈ content, c ∉ ['"', '\'', '\\', '\n', '\r']) →
      ∀ (program : Program) (start stop : Int) (filePath : Text) (className : Option Text),
        (infer program ⟨stringText quote content, start, stop, filePath, className⟩).text =
          stringType content := by
  intro h
  have hDraft := h .single "save as draft" (by decide) (.empty {}) 0 0 "view.ts" none
  revert hDraft
  decide

end TypeText

end TemplateCheck
