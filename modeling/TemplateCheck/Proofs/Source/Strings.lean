import TemplateCheck.Proofs.Source.Passage

/-!
# What the mask shows of a string

A string goes on from its opening quote to the same quote, or up to the end of its line or of the
text (`StringBody`). The mask keeps the first and the last character of what was read, which are the
quotes when the string is closed: then nothing of its content is seen. Of a string that is not
closed the last character of the content is seen, and nothing else of it
(`SourceFile.hidesAt_string`).
-/

namespace TemplateCheck

/-- `StringBody quote content rest`: behind its opening quote a string goes on with `content`, and
`rest` is what follows there, with the closing quote in front when the string is closed. A backslash
guards the character after it. -/
inductive StringBody (quote : Char) : (content rest : Text) → Prop
  | closed (t : Text) : StringBody quote [] (quote :: t)
  | line (t : Text) : StringBody quote [] ('\n' :: t)
  | cut : StringBody quote [] []
  | lastBackslash : StringBody quote ['\\'] []
  | escape (c : Char) {content rest : Text} (later : StringBody quote content rest) :
      StringBody quote ('\\' :: c :: content) rest
  | char {c : Char} {content rest : Text} (noQuote : c ≠ quote) (noBreak : c ≠ '\n')
      (noEscape : c ≠ '\\') (later : StringBody quote content rest) :
      StringBody quote (c :: content) rest

/-- The closing quote, if the text begins with it. -/
def closingQuote (quote : Char) (rest : Text) : Text :=
  if rest.head? = some quote then [quote] else []

theorem closingQuote_of_closed {quote : Char} {rest : Text} (h : rest.head? = some quote) :
    closingQuote quote rest = [quote] := if_pos h

theorem closingQuote_of_open {quote : Char} {rest : Text} (h : rest.head? ≠ some quote) :
    closingQuote quote rest = [] := if_neg h

theorem exists_stringBody (quote : Char) (hQuote : quote ≠ '\n') (t : Text) : ∃ content rest,
    t = content ++ rest ∧ StringBody quote content rest ∧
      (quotedEnd quote t).1 = content ++ closingQuote quote rest := by
  fun_induction quotedEnd quote t with
  | case1 => exact ⟨[], [], rfl, .cut, rfl⟩
  | case2 => exact ⟨['\\'], [], rfl, .lastBackslash, rfl⟩
  | case3 c t body rest hRead ih =>
    obtain ⟨content, rest', rfl, hBody, hEnd⟩ := ih
    obtain rfl : body = content ++ closingQuote quote rest' := by rwa [hRead] at hEnd
    exact ⟨'\\' :: c :: content, rest', rfl, .escape c hBody, rfl⟩
  | case4 t => exact ⟨[], quote :: t, rfl, .closed t, (closingQuote_of_closed rfl).symm⟩
  | case5 t hLast hEscape hNotQuote =>
    have hOpen : ('\n' :: t).head? ≠ some quote := fun h => hQuote (Option.some.inj h).symm
    exact ⟨[], '\n' :: t, rfl, .line t, (closingQuote_of_open hOpen).symm⟩
  | case6 c t hLast hEscape hNotQuote hNotBreak body rest hRead ih =>
    obtain ⟨content, rest', rfl, hBody, hEnd⟩ := ih
    obtain rfl : body = content ++ closingQuote quote rest' := by rwa [hRead] at hEnd
    exact ⟨c :: content, rest', rfl,
      .char hNotQuote hNotBreak (ne_backslash hLast hEscape) hBody, rfl⟩

theorem Lexeme.exists_stringBody {context : Context} {c : Char} {t u string : Text}
    (h : Lexeme.read context c t = (.quoted string, u)) : (c = '"' ∨ c = '\'') ∧ ∃ content rest,
      t = content ++ rest ∧ StringBody c content rest ∧
      string = c :: (content ++ closingQuote c rest) := by
  cases Lexeme.cuts_iff.mpr h with
  | quoted quote =>
    have hBreak : c ≠ '\n' := by
      rcases quote with rfl | rfl <;> decide
    obtain ⟨content, rest, hText, hBody, hEnd⟩ := TemplateCheck.exists_stringBody c hBreak t
    exact ⟨quote, content, rest, hText, hBody, by rw [hEnd]⟩

/-! ## The last character of a string -/

theorem hideInit_concat (t : Text) (c : Char) : hideInit (t ++ [c]) = t.map Text.hide ++ [c] := by
  induction t with
  | nil => rfl
  | cons d t ih =>
    cases t with
    | nil => rfl
    | cons e t => exact congrArg (Text.hide d :: ·) ih

theorem Text.getElem?_of_eq_append {s t u : Text} {c : Char} {offset : Nat} (h : t = s ++ c :: u)
    (hOffset : offset = s.length) : t[offset]? = some c :=
  Text.getElem?_of_drop (by rw [h, hOffset, List.drop_left])

theorem hidesAt_append_map_hide {s t u : Text} {offset : Nat} (hStart : s.length ≤ offset)
    (hStop : offset < s.length + t.length) : HidesAt (s ++ (t.map Text.hide ++ u)) offset := by
  have hInside : offset - s.length < t.length := by omega
  refine ⟨Text.hide t[offset - s.length], ?_, hide_cases _⟩
  rw [Option.mem_def, List.getElem?_append_right hStart,
    List.getElem?_append_left (by simpa using hInside), List.getElem?_map,
    List.getElem?_eq_getElem hInside, Option.map_some]

theorem HidesAt.congr {s t : Text} {offset : Nat} (h : s[offset]? = t[offset]?) :
    HidesAt s offset ↔ HidesAt t offset := by
  rw [HidesAt, HidesAt, h]

theorem maskQuoted_concat (quote : Char) (t : Text) (c : Char) :
    maskQuoted (quote :: (t ++ [c])) = [quote] ++ (t.map Text.hide ++ [c]) := by
  rw [maskQuoted, hideInit_concat, List.singleton_append]

theorem hidesAt_closed {before content after : Text} (quote : Char) {offset : Nat}
    (hLow : before.length < offset) (hHigh : offset ≤ before.length + content.length) :
    HidesAt (before ++ (maskQuoted (quote :: (content ++ [quote])) ++ after)) offset := by
  rw [maskQuoted_concat, List.append_assoc, List.append_assoc, ← List.append_assoc before]
  have hLength : (before ++ [quote]).length = before.length + 1 := List.length_append
  exact hidesAt_append_map_hide (by omega) (by omega)

/-- The mask hides the content of an open string up to its last character, and shows that one. -/
theorem hidesAt_open {before shown content rest after : Text} (quote : Char)
    (hBefore : shown.length = before.length) {offset : Nat} (hLow : before.length < offset)
    (hHigh : offset ≤ before.length + content.length) :
    HidesAt (shown ++ (maskQuoted (quote :: content) ++ after)) offset ↔
      offset < before.length + content.length ∨
      HidesAt (before ++ quote :: (content ++ rest)) offset := by
  rcases List.eq_nil_or_concat content with rfl | ⟨hidden, last, rfl⟩
  · rw [List.length_nil] at hHigh
    omega
  rw [List.concat_eq_append] at hHigh ⊢
  rw [List.length_append, List.length_singleton] at hHigh ⊢
  rw [maskQuoted_concat, List.append_assoc, List.append_assoc, ← List.append_assoc shown]
  have hLength : (shown ++ [quote]).length = before.length + 1 := by
    rw [List.length_append, hBefore, List.length_singleton]
  rcases Nat.lt_or_ge offset (before.length + (hidden.length + 1)) with hInside | hEnd
  · exact iff_of_true (hidesAt_append_map_hide (by omega) (by omega)) (.inl hInside)
  · have hText : (before ++ quote :: (hidden ++ [last] ++ rest))[offset]? = some last :=
      Text.getElem?_of_eq_append (s := before ++ quote :: hidden) (u := rest) (by simp)
        (by rw [List.length_append, List.length_cons]; omega)
    have hMask : (shown ++ [quote] ++ (hidden.map Text.hide ++ ([last] ++ after)))[offset]? =
        some last :=
      Text.getElem?_of_eq_append (s := shown ++ [quote] ++ hidden.map Text.hide)
        (u := after) (by simp)
        (by rw [List.length_append, List.length_map]; omega)
    rw [HidesAt.congr (hMask.trans hText.symm)]
    exact (or_iff_right (Nat.not_lt.mpr hEnd)).symm

/-- A string that the lexer reads stands in the text as its rules say, and of its content the mask
shows at most the last character, and only if no quote closes the string. -/
theorem SourceFile.hidesAt_string (marker : WideText) (path : Text) {text string : Text}
    {start : Nat} (h : (start, .quoted string) ∈ text.lexemes) :
    ∃ quote content rest,
      (quote = '"' ∨ quote = '\'') ∧ text.drop start = quote :: (content ++ rest) ∧
      StringBody quote content rest ∧ string = quote :: (content ++ closingQuote quote rest) ∧
      ∀ offset, start < offset → offset ≤ start + content.length →
        (HidesAt (SourceFile.read marker path text).mask offset ↔
          rest.head? = some quote ∨ offset < start + content.length ∨ HidesAt text offset) := by
  obtain ⟨before, shown, context, braces, quote, s, u, rfl, hStart, hRead, hGoesOn, hPasses⟩ :=
    Text.lexemeAt h
  obtain rfl : start = before.length := by rw [hStart, Nat.zero_add]
  obtain ⟨hQuote, content, rest, rfl, hBody, rfl⟩ := Lexeme.exists_stringBody hRead
  refine ⟨quote, content, rest, hQuote, List.drop_left, hBody, rfl, fun offset hLow hHigh => ?_⟩
  -- The mask shows the string between what it shows in front of it and something else.
  obtain ⟨mask, hMask⟩ := Code.exists_shows _ _ u
  have hHere := Code.Shows.lexeme hRead (by simp) hGoesOn hMask
  obtain ⟨tail, hAll⟩ := hPasses.shows _ _ (.cons quote _ _) hHere
  have hShown : (SourceFile.read marker path (before ++ quote :: (content ++ rest))).mask =
      shown ++ (maskQuoted (quote :: (content ++ closingQuote quote rest)) ++ (mask ++ tail)) := by
    rw [← List.append_assoc (maskQuoted _)]
    exact hAll.ofText_mask
  rw [hShown]
  by_cases hClosed : rest.head? = some quote
  · rw [← hPasses.length_eq] at hLow hHigh
    rw [closingQuote_of_closed hClosed]
    exact iff_of_true (hidesAt_closed quote hLow hHigh) (.inl hClosed)
  · rw [closingQuote_of_open hClosed, List.append_nil, or_iff_right hClosed]
    exact hidesAt_open quote hPasses.length_eq hLow hHigh

/-- A call with a closed string and one that the end of the text cuts. -/
theorem SourceFile.hidesAt_string_cut : (9, .quoted "'import") ∈ Text.lexemes "f(\"a;b\", 'import" ∧
    ∃ quote content rest,
      (quote = '"' ∨ quote = '\'') ∧ "f(\"a;b\", 'import".toList.drop 9 =
        quote :: (content ++ rest) ∧
      StringBody quote content rest ∧ "'import".toList =
        quote :: (content ++ closingQuote quote rest) ∧
      ∀ offset, 9 < offset → offset ≤ 9 + content.length →
        (HidesAt (SourceFile.read (.ofText "html") "src/app.ts" "f(\"a;b\", 'import").mask offset ↔
          rest.head? = some quote ∨ offset < 9 + content.length ∨
          HidesAt "f(\"a;b\", 'import" offset) :=
  have hString : (9, .quoted "'import") ∈ Text.lexemes "f(\"a;b\", 'import" := by decide
  ⟨hString, SourceFile.hidesAt_string (.ofText "html") "src/app.ts" hString⟩

/-- The mask shows the last character of the content of a string that the end of the text cuts. -/
theorem SourceFile.hidesAt_string_last :
    ¬ ∀ (text string : Text) (start : Nat) (quote : Char) (content rest : Text),
      (start, .quoted string) ∈ text.lexemes → text.drop start = quote :: (content ++ rest) →
      StringBody quote content rest → ∀ offset, start < offset → offset ≤ start + content.length →
        HidesAt (SourceFile.read (.ofText "html") "src/app.ts" text).mask offset := by
  intro h
  have hBody : StringBody '\'' "ab" [] :=
    .char (by decide) (by decide) (by decide) (.char (by decide) (by decide) (by decide) .cut)
  obtain ⟨c, hShown, hHidden⟩ :=
    h "'ab" "'ab" 0 '\'' "ab" [] (by decide) (by decide) hBody 2 (by decide) (by decide)
  have hLast : (SourceFile.read (.ofText "html") "src/app.ts" "'ab").mask[2]? =
      some 'b' := by decide
  obtain rfl : 'b' = c := Option.some.inj (hLast.symm.trans hShown)
  exact absurd hHidden (by decide)

end TemplateCheck
