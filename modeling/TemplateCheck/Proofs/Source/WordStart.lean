import TemplateCheck.Proofs.Source.Comments
import TemplateCheck.Proofs.Source.ImportShown

/-!
# What stands in front of a word

What the lexer passes over does not end with a word character where a letter follows. A comment ends
with a slash, with its line or with the text, a string or a template with its quote, with its line
or with the text, and the flags of a regular expression take all the letters that there are. So a
word that the lexer reads stands apart from what is in front of it if it begins with a letter
(`Text.wordAt`), and what the mask shows as a word does not run on to the left in the text if it
does not in the mask (`Text.inWord_before_shown`).
-/

namespace TemplateCheck

/-- Where the text begins with a letter, no word character stands in front. -/
def Apart (previous : Option Char) (t : Text) : Prop :=
  ∀ c ∈ t.head?, isLetter c = true → Pattern.inWord previous = false

namespace Apart

variable {previous : Option Char} {t : Text}

theorem nil (previous : Option Char) : Apart previous [] := by
  rintro c ⟨⟩

theorem of_inWord (h : Pattern.inWord previous = false) (t : Text) : Apart previous t :=
  fun _ _ _ => h

theorem of_head? (h : ∀ c ∈ t.head?, isLetter c = false) (previous : Option Char) :
    Apart previous t := by
  intro c hc hLetter
  rw [h c hc] at hLetter
  cases hLetter

theorem of_isNameChar {c : Char} (h : isNameChar c = false) (t : Text) : Apart (some c) t := by
  refine of_inWord ?_ t
  exact (Bool.or_eq_false_iff.mp h).1

theorem of_lineFeed (h : t.head? = some '\n') (previous : Option Char) : Apart previous t := by
  refine of_head? (fun c hc => ?_) previous
  obtain rfl : '\n' = c := Option.some.inj (h.symm.trans hc)
  decide

end Apart

/-! ## Behind a lexeme -/

/-- The flags of a regular expression take all letters. -/
theorem isLetter_head?_regexEnd (inClass : Bool) (t : Text) :
    ∀ c ∈ (regexEnd inClass t).2.head?, isLetter c = false := by
  fun_induction regexEnd inClass t with
  | case1 => simp
  | case2 => simp
  | case3 inClass c t body rest hRead ih =>
    rw [hRead] at ih
    exact ih
  | case4 inClass t =>
    rintro c ⟨⟩
    decide
  | case5 inClass c t => exact forall_head?_dropWhile isLetter t
  | case6 inClass c t hLast hEscape hLine hSlash _ body rest hRead ih =>
    rw [hRead] at ih
    exact ih

theorem isNameChar_of_isLetter {c : Char} (h : isLetter c = true) : isNameChar c = true := by
  simp only [isNameChar, isAlphanumeric, h, Bool.true_or]

theorem isLetter_of_isNameChar {c : Char} (h : isNameChar c = false) : isLetter c = false := by
  simp only [isNameChar, isAlphanumeric, Bool.or_eq_false_iff] at h
  exact h.1.1.1

/-- No lexeme ends with a word character where a letter follows. -/
theorem Lexeme.apart {context : Context} {c : Char} {t u : Text} {lexeme : Lexeme}
    (h : Lexeme.read context c t = (lexeme, u)) (previous : Option Char) :
    Apart (lexeme.text.getLast?.or previous) u := by
  cases lexeme with
  | comment text =>
    rcases (Lexeme.commentBetween h).ends with hSlash | rfl | hLine
    · show Apart (text.getLast?.or previous) u
      rw [hSlash]
      exact .of_isNameChar (by decide) u
    · exact .nil _
    · exact .of_lineFeed hLine _
  | quoted text =>
    obtain ⟨hQuote, content, rest, rfl, hBody, rfl⟩ := Lexeme.exists_stringBody h
    have hAppend := Lexeme.text_append h
    show Apart ((c :: (content ++ closingQuote c rest)).getLast?.or previous) u
    by_cases hClosed : rest.head? = some c
    · rw [closingQuote_of_closed hClosed, ← List.cons_append, List.getLast?_concat]
      refine .of_isNameChar ?_ u
      rcases hQuote with rfl | rfl <;> decide
    · rw [closingQuote_of_open hClosed, List.append_nil] at hAppend ⊢
      have hRest : u = rest := List.append_cancel_left (List.cons.inj hAppend).2
      refine .of_head? (fun d hd => ?_) _
      rw [hRest] at hd
      rcases hBody.head?_rest d hd with rfl | rfl
      · exact absurd hd hClosed
      · decide
  | regex text =>
    cases Lexeme.cuts_iff.mpr h with
    | regex => exact .of_head? (isLetter_head?_regexEnd false t) _
  | backtick => exact .of_isNameChar (c := '`') (by decide) u
  | word name =>
    cases Lexeme.cuts_iff.mpr h with
    | word =>
      exact .of_head? (fun d hd =>
        isLetter_of_isNameChar (forall_head?_dropWhile isNameChar t d hd)) _
  | mark d =>
    cases Lexeme.cuts_iff.mpr h with
    | division slash =>
      subst slash
      exact .of_isNameChar (c := '/') (by decide) _
    | mark _ noName => exact .of_isNameChar noName _

theorem Literal.Reads.getLast?_source {t u : Text} {body : Literal} (h : Literal.Reads t body u) :
    u = [] ∨ body.source.getLast? = some '`' := by
  induction h using Literal.Reads.induction with
  | cut => exact .inl rfl
  | close => exact .inr rfl
  | lastBackslash => exact .inl rfl
  | cutHole => exact .inl rfl
  | escape c later ih =>
    refine ih.imp_right fun hLast => ?_
    rw [Literal.source_escape, List.getLast?_cons, List.getLast?_cons, hLast]
    rfl
  | hole inside later ih =>
    refine ih.imp_right fun hLast => ?_
    rw [Literal.source_hole, List.getLast?_cons, List.getLast?_cons, List.getLast?_append,
      List.getLast?_cons, hLast]
    rfl
  | char noClose noEscape noHole later ih =>
    refine ih.imp_right fun hLast => ?_
    rw [Literal.source_char, List.getLast?_cons, hLast]
    rfl

/-! ## The words of a text -/

/-- The word stands at `start` in the text, which stands at `offset` behind the character
`previous`, and apart from what is in front of it. -/
def WordAt (previous : Option Char) (t : Text) (offset start : Nat) (name : Text) : Prop :=
  ∃ before rest, t = before ++ (name ++ rest) ∧ start = offset + before.length ∧
    Apart (before.getLast?.or previous) name

/-- More text may stand in front. -/
theorem WordAt.append {previous : Option Char} {s t name : Text} {offset start : Nat}
    (h : WordAt (s.getLast?.or previous) t (offset + s.length) start name) :
    WordAt previous (s ++ t) offset start name := by
  obtain ⟨before, rest, rfl, rfl, hApart⟩ := h
  refine ⟨s ++ before, rest, (List.append_assoc s before _).symm, ?_, ?_⟩
  · rw [List.length_append, Nat.add_assoc]
  · rwa [List.getLast?_append, Option.or_assoc]

theorem WordAt.cons {previous : Option Char} {context : Context} {c : Char} {t u name : Text}
    {lexeme : Lexeme} {offset start : Nat} {later : List (Nat × Lexeme)}
    (hRead : Lexeme.read context c t = (lexeme, u)) (hApart : Apart previous (c :: t))
    (hLater : (start, .word name) ∈ later →
      WordAt (lexeme.text.getLast?.or previous) u (offset + lexeme.text.length) start name)
    (h : (start, .word name) ∈ (offset, lexeme) :: later) :
    WordAt previous (c :: t) offset start name := by
  have hText := Lexeme.text_append hRead
  rcases List.mem_cons.mp h with hHere | h
  · obtain ⟨rfl, rfl⟩ := Prod.mk.inj hHere
    obtain ⟨body, hName, -⟩ := Lexeme.text_of_read hRead
    obtain rfl : name = c :: body := hName
    exact ⟨[], u, hText.symm, rfl, hApart⟩
  · rw [← hText]
    exact (hLater h).append

mutual

/-- The words of code stand apart from what is in front of them. -/
theorem Code.Reads.wordAt {context : Context} {braces : Option Nat} {t u name : Text} {code : Code}
    {start : Nat} :
    Code.Reads context braces t code u → ∀ {previous : Option Char} {offset : Nat},
      Apart previous t →
      (start, .word name) ∈ code.lexemesFrom offset → WordAt previous t offset start name
  | .done _ _, _, _, _, h => by cases h
  | .stop _ _, _, _, _, h => by cases h
  | .comment hRead later, previous, _, hApart, h =>
    .cons hRead hApart (fun h => later.wordAt (Lexeme.apart hRead previous) h) h
  | .quoted hRead later, previous, _, hApart, h =>
    .cons hRead hApart (fun h => later.wordAt (Lexeme.apart hRead previous) h) h
  | .regex hRead later, previous, _, hApart, h =>
    .cons hRead hApart (fun h => later.wordAt (Lexeme.apart hRead previous) h) h
  | .word hRead later, previous, _, hApart, h =>
    .cons hRead hApart (fun h => later.wordAt (Lexeme.apart hRead previous) h) h
  | .mark hRead _ later, previous, _, hApart, h =>
    .cons hRead hApart (fun h => later.wordAt (Lexeme.apart hRead previous) h) h
  | @Code.Reads.literal _ _ _ _ _ v _ body _ hRead inside later, previous, offset, hApart, h => by
    refine WordAt.cons hRead hApart (fun h => ?_) h
    rcases List.mem_append.mp h with hInside | hLater
    · exact inside.wordAt hInside
    · have hBehind : Apart (body.source.getLast?.or (some '`')) v := by
        rcases inside.getLast?_source with rfl | hLast
        · exact .nil _
        · rw [hLast]
          exact .of_isNameChar (by decide) v
      have hWord := WordAt.append (later.wordAt hBehind hLater)
      rwa [← body.sourceBefore_eq, inside.sourceBefore_eq] at hWord

/-- The words in the holes of a template literal stand apart from what is in front of them. -/
theorem Literal.Reads.wordAt {t u name : Text} {body : Literal} {start : Nat} :
    Literal.Reads t body u →
    ∀ {previous : Option Char} {offset : Nat}, (start, .word name) ∈ body.lexemesFrom offset →
      WordAt previous t offset start name
  | .cut, _, _, h => by cases h
  | .close _, _, _, h => by cases h
  | .lastBackslash, _, _, h => by cases h
  | @Literal.Reads.escape c t _ _ later, _, _, h => WordAt.append (s := ['\\', c]) (later.wordAt h)
  | @Literal.Reads.char c t _ _ _ _ _ later, _, _, h => WordAt.append (s := [c]) (later.wordAt h)
  | .cutHole inside, _, _, h =>
    WordAt.append (s := ['$', '{']) (inside.wordAt (.of_isNameChar (c := '{') (by decide) _) h)
  | @Literal.Reads.hole t _ _ code rest inside later, previous, offset, h => by
    have hText := inside.sourceBefore_eq
    rw [code.sourceBefore_eq] at hText
    rcases List.mem_append.mp h with hInside | hLater
    · have hBrace : Apart (some '{') t := .of_isNameChar (by decide) t
      exact WordAt.append (s := ['$', '{']) (inside.wordAt hBrace hInside)
    · have hLength : ('$' :: '{' :: (code.source ++ ['}'])).length =
      2 + code.source.length + 1 := by
        simp only [List.length_cons, List.length_append, List.length_nil]
        omega
      rw [Nat.add_assoc, Nat.add_assoc, ← Nat.add_assoc 2, ← hLength] at hLater
      have hWord : WordAt previous _ offset start name := WordAt.append (later.wordAt hLater)
      rw [← hText]
      simpa only [List.cons_append, List.append_assoc, List.nil_append] using hWord

end

theorem Text.wordAt {t name : Text} {start : Nat} (h : (start, .word name) ∈ t.lexemes) :
    WordAt none t 0 start name :=
  (Code.reads_ofText t).wordAt (.of_inWord rfl t) h

/-! ## The mask in front of a word -/

theorem Text.getElem?_before {t before rest : Text} {offset : Nat} (h : t = before ++ rest)
    (hOffset : offset = before.length) :
    (if offset = 0 then none else t[offset - 1]?) = before.getLast? := by
  subst h hOffset
  rcases List.eq_nil_or_concat before with rfl | ⟨before, last, rfl⟩
  · rfl
  · rw [List.concat_eq_append, List.getLast?_concat, List.length_append, List.length_singleton,
      if_neg (by omega), List.append_assoc]
    exact Text.getElem?_of_eq_append rfl rfl

/-- Where the mask shows a word that begins with a letter, no word character of the text
is hidden in front. -/
theorem Text.inWord_before_shown {t rest : Text} {offset : Nat} {c d : Char}
    (hLetter : isLetter c = true) (hd : isNameChar d = true)
    (hShown : (Code.ofText t).mask.drop offset = [c, d] ++ rest)
    (hMask : Pattern.inWord (if offset = 0 then none else (Code.ofText t).mask[offset - 1]?) =
      false) : Pattern.inWord (if offset = 0 then none else t[offset - 1]?) = false := by
  have hc := isNameChar_of_isLetter hLetter
  have hAt : ShownAt t.lexemes (0 + offset) c :=
    (Code.ofText t).shownAt (isInk_of_isNameChar hc) (Text.getElem?_of_drop hShown)
  obtain ⟨start, lexeme, i, hMem, hOffset, hSeen⟩ := hAt
  rw [Nat.zero_add] at hOffset
  obtain ⟨first, shown, context, braces, a, s, u, hText, hStart, hRead, -, hPasses⟩ :=
    Text.lexemeAt hMem
  rw [Nat.zero_add] at hStart
  have hSpace : ∀ b ∈ [c, d], b ≠ ' ' :=
    List.forall_mem_cons.mpr ⟨ne_of_class hc (by decide),
      List.forall_mem_singleton.mpr (ne_of_class hd (by decide))⟩
  obtain ⟨later, hHere⟩ := (Code.masks_ofText t).exists_drop_append hShown hSpace
  rw [← hOffset, hStart, ← List.drop_drop, hText, List.drop_left] at hHere
  obtain ⟨name, rfl, hInside⟩ := Lexeme.exists_word_of_shown hRead hc hd hSeen hHere
  cases i with
  | zero =>
    obtain ⟨before, behind, hWord, hBefore, hApart⟩ := Text.wordAt hMem
    rw [Nat.zero_add] at hBefore
    rw [Text.getElem?_before hWord (hOffset.symm.trans hBefore),
      ← Option.or_none (o := before.getLast?)]
    exact hApart c (List.head?_eq_getElem?.trans hSeen) hLetter
  | succ j =>
    -- Within the word the mask shows what the text has.
    obtain ⟨mask, hRest⟩ := Code.exists_shows ((Lexeme.word name).after context) braces u
    have hWord := Code.Shows.lexeme hRead (by simp) (by simp) hRest
    obtain ⟨tail, hAll⟩ := hPasses.shows _ _ (.cons a s s) hWord
    rw [← hText] at hAll
    have hSame : t[offset - 1]? = (Code.ofText t).mask[offset - 1]? := by
      rw [hAll.ofText_mask, hText, ← Lexeme.text_append hRead,
        show offset - 1 = first.length + j by
          omega, List.getElem?_append_right (Nat.le_add_right _ _), ← hPasses.length_eq,
        List.getElem?_append_right (Nat.le_add_right _ _), Nat.add_sub_cancel_left,
        Lexeme.mask, Lexeme.text, List.append_assoc, List.getElem?_append_left (by omega),
        List.getElem?_append_left (by omega)]
    rwa [hSame]

end TemplateCheck
