import TemplateCheck.Proofs.Source.Mask
import TemplateCheck.Proofs.Source.Templates

/-!
# What the mask hides

The mask differs from its text only in spaces, and it keeps the line breaks of the text at their
places (`Code.map_lineBreak?_mask`). Of a marked template it hides the text outside the holes, the
opening of each hole, and the brace that closes it (`TaggedTemplate.Hidden`). What stands in a hole
is code again and is shown or hidden as code is, so the statement about a literal only looks at its
own level (`Literal.Reads.hidden`), and one induction over the pieces carries it to the templates at
every depth.
-/

namespace TemplateCheck

/-! ## Line breaks -/

/-- The character, if it breaks a line. -/
def lineBreak? (c : Char) : Option Char := if c = '\n' ∨ c = '\r' then some c else none

theorem lineBreak?_hide (c : Char) : lineBreak? (Text.hide c) = lineBreak? c := by
  by_cases h : c = '\n' ∨ c = '\r'
  · rw [Text.hide, if_pos h]
  · rw [Text.hide, if_neg h, lineBreak?, lineBreak?, if_neg h, if_neg (by decide)]

theorem map_lineBreak?_hide (t : Text) : (t.map Text.hide).map lineBreak? = t.map lineBreak? := by
  rw [List.map_map]
  exact List.map_congr_left fun c _ => lineBreak?_hide c

theorem map_lineBreak?_hideInit : (t : Text) → (hideInit t).map lineBreak? = t.map lineBreak?
  | [] => rfl
  | [_] => rfl
  | c :: d :: t => by
    rw [hideInit, List.map_cons, List.map_cons, lineBreak?_hide, map_lineBreak?_hideInit (d :: t)]

theorem map_lineBreak?_maskQuoted (t : Text) :
    (maskQuoted t).map lineBreak? = t.map lineBreak? := by
  cases t with
  | nil => rfl
  | cons q t => rw [maskQuoted, List.map_cons, List.map_cons, map_lineBreak?_hideInit]

theorem map_lineBreak?_maskRegex (t : Text) : (maskRegex t).map lineBreak? = t.map lineBreak? := by
  cases t with
  | nil => rfl
  | cons slash t => rw [maskRegex, List.map_cons, List.map_cons, map_lineBreak?_hide]

mutual

/-- The mask breaks its lines where the source does. -/
theorem Code.map_lineBreak?_mask : (code : Code) →
    code.mask.map lineBreak? = code.source.map lineBreak?
  | .done => rfl
  | .mark _ rest => by simp [Code.mask, rest.map_lineBreak?_mask]
  | .word _ rest => by simp [Code.mask, rest.map_lineBreak?_mask]
  | .comment text rest => by
    rw [Code.mask, Code.source_comment, List.map_append, List.map_append, map_lineBreak?_hide,
      rest.map_lineBreak?_mask]
  | .quoted text rest => by
    rw [Code.mask, Code.source_quoted, List.map_append, List.map_append, map_lineBreak?_maskQuoted,
      rest.map_lineBreak?_mask]
  | .regex text rest => by
    rw [Code.mask, Code.source_regex, List.map_append, List.map_append, map_lineBreak?_maskRegex,
      rest.map_lineBreak?_mask]
  | .literal body rest => by simp [Code.mask, body.map_lineBreak?_mask, rest.map_lineBreak?_mask]

theorem Literal.map_lineBreak?_mask : (body : Literal) →
    body.mask.map lineBreak? = body.source.map lineBreak?
  | .cut => rfl
  | .close => rfl
  | .char c rest => by simp [Literal.mask, lineBreak?_hide, rest.map_lineBreak?_mask]
  | .escape c rest => by
    have hBackslash : lineBreak? '\\' = lineBreak? ' ' := rfl
    simp [Literal.mask, lineBreak?_hide, rest.map_lineBreak?_mask, hBackslash]
  | .hole code rest => by
    simp [Literal.mask, code.map_lineBreak?_mask, rest.map_lineBreak?_mask, lineBreak?]
  | .cutHole code => by simp [Literal.mask, code.map_lineBreak?_mask, lineBreak?]

end

/-- The mask shows a character of its text or replaces it by a space; a line break it shows. -/
theorem Code.getElem?_mask (text : Text) {offset : Nat} {c : Char} (hc : text[offset]? = some c) :
    (Code.ofText text).mask[offset]? = some c ∨
      (Code.ofText text).mask[offset]? = some ' ' ∧ c ≠ '\n' ∧ c ≠ '\r' := by
  have hMasks := Code.masks_ofText text
  have hBreaks := (Code.ofText text).map_lineBreak?_mask
  rw [Code.source_ofText] at hBreaks
  obtain ⟨hOffset, hText⟩ := List.getElem?_eq_some_iff.mp hc
  have hMask : offset < (Code.ofText text).mask.length := by rw [hMasks.length_eq]; exact hOffset
  have hShown := List.Forall₂.get hMasks hMask hOffset
  simp only [List.get_eq_getElem, hText] at hShown
  rw [List.getElem?_eq_getElem hMask]
  rcases hShown with hSame | hSpace
  · exact .inl (congrArg some hSame)
  · refine .inr ⟨congrArg some hSpace, ?_⟩
    have hHere := congrArg (·[offset]?) hBreaks
    simp only [List.getElem?_map, List.getElem?_eq_getElem hMask, hSpace, hc,
      Option.map_some] at hHere
    rw [← not_or]
    intro hBreak
    rw [lineBreak?, lineBreak?, if_neg (by decide), if_pos hBreak] at hHere
    cases Option.some.inj hHere

/-! ## Hidden places -/

/-- Nothing is to be seen at an offset of a mask but a space or a line break. -/
def HidesAt (mask : Text) (offset : Nat) : Prop :=
  ∃ c ∈ mask[offset]?, c = ' ' ∨ c = '\n' ∨ c = '\r'

theorem hidesAt_of_drop {mask rest : Text} {offset : Nat} {c : Char}
    (h : mask.drop offset = c :: rest) (hc : c = ' ' ∨ c = '\n' ∨ c = '\r') : HidesAt mask offset :=
  ⟨c, Text.getElem?_of_drop h, hc⟩

theorem hide_cases (c : Char) : Text.hide c = ' ' ∨ Text.hide c = '\n' ∨ Text.hide c = '\r' := by
  unfold Text.hide
  split_ifs with h
  · exact .inr h
  · exact .inl rfl

/-- What the mask hides of a hole: the dollar sign and the brace that open it and the brace that
closes it, if it is closed. The code of a hole that is not closed goes up to the end of the text. -/
structure Span.Hidden (mask text : Text) (span : Span) : Prop where
  opening : HidesAt mask span.start ∧ HidesAt mask (span.start + 1)
  closing : text[span.stop - 1]? = some '}' ∧ HidesAt mask (span.stop - 1) ∨
    span.stop = text.length ∧ ∃ code, Code.Reads .start (some 0)
      (text.drop (span.start + 2)) code []

/-- What the mask hides of a body that goes from `start` to `stop` and has the given holes: all that
stands outside the holes, and the rims of the holes. -/
structure BodyHidden (mask text : Text) (start stop : Nat) (spans : List Span) : Prop where
  outside : ∀ offset, start ≤ offset → offset < stop →
    (∀ span ∈ spans, offset < span.start ∨ span.stop ≤ offset) → HidesAt mask offset
  rims : ∀ span ∈ spans, span.Hidden mask text

namespace BodyHidden

variable {mask text : Text} {start stop : Nat} {spans : List Span}

theorem nil (mask text : Text) (start : Nat) : BodyHidden mask text start start [] where
  outside offset hStart hStop _ := absurd hStop (Nat.not_lt.mpr hStart)
  rims := by simp

theorem cons (h : BodyHidden mask text (start + 1) stop spans) (hHides : HidesAt mask start) :
    BodyHidden mask text start stop spans where
  outside offset hStart hStop hSpans := by
    rcases Nat.eq_or_lt_of_le hStart with rfl | hLater
    · exact hHides
    · exact h.outside offset hLater hStop hSpans
  rims := h.rims

/-- A hole in front. -/
theorem hole {span : Span} (h : BodyHidden mask text span.stop stop spans)
    (hSpan : span.Hidden mask text) : BodyHidden mask text span.start stop (span :: spans) where
  outside offset hStart hStop hSpans := by
    obtain ⟨hFirst, hLater⟩ := List.forall_mem_cons.mp hSpans
    refine h.outside offset ?_ hStop hLater
    omega
  rims := List.forall_mem_cons.mpr ⟨hSpan, h.rims⟩

end BodyHidden

/-! ## Literals -/

/-- Outside its holes a literal is hidden, and so are the rims of its holes. -/
theorem Literal.Reads.hidden {text mask t u : Text} {body : Literal} (h : Literal.Reads t body u) :
    ∀ offset after, text.drop offset = t → mask.drop offset = body.mask ++ after →
      BodyHidden mask text offset (offset + body.body.length) (body.spans offset) := by
  induction h using Literal.Reads.induction with
  | cut => exact fun offset _ _ _ => .nil mask text offset
  | close => exact fun offset _ _ _ => .nil mask text offset
  | lastBackslash =>
    intro offset after _ hMask
    exact (BodyHidden.nil mask text (offset + 1)).cons (hidesAt_of_drop hMask (hide_cases _))
  | @escape c t u rest _ ih =>
    intro offset after hText hMask
    have hMore : mask.drop (offset + 1) = Text.hide c :: (rest.mask ++ after) :=
      Text.drop_succ hMask
    have hRest := ih (offset + 2) after (Text.drop_succ (Text.drop_succ hText))
      (Text.drop_succ hMore)
    rw [Literal.add_length_body_escape]
    exact (hRest.cons (hidesAt_of_drop hMore (hide_cases c))).cons
      (hidesAt_of_drop hMask (.inl rfl))
  | @hole t u v code rest inside _ ih =>
    intro offset after hText hMask
    have hCode := Text.drop_succ (Text.drop_succ hText)
    rw [← inside.sourceBefore_eq, code.sourceBefore_eq] at hCode
    have hBrace := Text.drop_add_length hCode
    have hSecond : mask.drop (offset + 1) = ' ' :: (code.mask ++ ' ' :: rest.mask ++ after) :=
      Text.drop_succ hMask
    have hInside := Text.drop_succ hSecond
    rw [List.append_assoc] at hInside
    have hClosing := Text.drop_add_length hInside
    rw [code.length_mask] at hClosing
    have hRest := ih _ after (Text.drop_succ hBrace) (Text.drop_succ hClosing)
    rw [Literal.add_length_body_hole]
    have hSpan :
        (Span.ofCode offset (offset + 2 + code.source.length + 1) code.source).Hidden mask text :=
      { opening := ⟨hidesAt_of_drop hMask (.inl rfl), hidesAt_of_drop hSecond (.inl rfl)⟩
        closing := .inl ⟨Text.getElem?_of_drop hBrace, hidesAt_of_drop hClosing (.inl rfl)⟩ }
    exact hRest.hole hSpan
  | @cutHole t code inside =>
    intro offset after hText hMask
    have hSecond : mask.drop (offset + 1) = ' ' :: (code.mask ++ after) := Text.drop_succ hMask
    have hCode : text.drop (offset + 2) = t := Text.drop_succ (Text.drop_succ hText)
    have hEnd : offset + 2 + code.source.length = text.length := by
      have hSource := inside.sourceBefore_eq
      rw [code.sourceBefore_eq, List.append_nil] at hSource
      have hLength := congrArg List.length hText
      rw [hSource]
      simp only [List.length_drop, List.length_cons] at hLength
      omega
    rw [Literal.add_length_body_cutHole]
    have hSpan :
        (Span.ofCode offset (offset + 2 + code.source.length) code.source).Hidden mask text :=
      { opening := ⟨hidesAt_of_drop hMask (.inl rfl), hidesAt_of_drop hSecond (.inl rfl)⟩
        closing := .inr ⟨hEnd, code, by rw [Span.ofCode, hCode]; exact inside⟩ }
    exact (BodyHidden.nil mask text _).hole hSpan
  | @char c t u rest _ _ _ _ ih =>
    intro offset after hText hMask
    have hRest := ih (offset + 1) after (Text.drop_succ hText) (Text.drop_succ hMask)
    rw [Literal.add_length_body_char]
    exact hRest.cons (hidesAt_of_drop hMask (hide_cases c))

/-! ## Templates at every depth -/

/-- What the mask hides of a marked template. -/
def TaggedTemplate.Hidden (mask text : Text) (template : TaggedTemplate) : Prop :=
  BodyHidden mask text template.bodyStart (template.bodyStart + template.body.length) template.spans

mutual

/-- The marked templates of code that lexing cuts off a text are hidden. -/
theorem Code.Reads.hidden {text mask : Text} (marker : WideText) {context : Context}
    {braces : Option Nat} {t u : Text} {code : Code} : Code.Reads context braces t code u →
      ∀ before offset parent next after, text.drop offset = t →
        mask.drop offset = code.mask ++ after →
        ∀ template ∈ code.templatesFrom marker before offset parent next, template.Hidden mask text
  | .done _ _, _, _, _, _, _, _, _, template, h => by simp [Code.templatesFrom] at h
  | .stop _ _, _, _, _, _, _, _, _, template, h => by simp [Code.templatesFrom] at h
  | .comment lexeme later, _, _, _, _, after, hText, hMask, template, h => by
    rw [← Lexeme.text_append lexeme] at hText
    rw [Code.mask, List.append_assoc] at hMask
    have hRest := Text.drop_add_length hMask
    rw [List.length_map] at hRest
    exact later.hidden marker _ _ _ _ after (Text.drop_add_length hText) hRest template h
  | @Code.Reads.quoted _ _ _ _ text' _ _ _ lexeme later, _, _, _, _, after, hText, hMask,
      template, h => by
    rw [← Lexeme.text_append lexeme] at hText
    rw [Code.mask, List.append_assoc] at hMask
    have hRest := Text.drop_add_length hMask
    rw [(Masks.maskQuoted text').length_eq] at hRest
    exact later.hidden marker _ _ _ _ after (Text.drop_add_length hText) hRest template h
  | @Code.Reads.regex _ _ _ _ text' _ _ _ lexeme later, _, _, _, _, after, hText, hMask,
      template, h => by
    rw [← Lexeme.text_append lexeme] at hText
    rw [Code.mask, List.append_assoc] at hMask
    have hRest := Text.drop_add_length hMask
    rw [(Masks.maskRegex text').length_eq] at hRest
    exact later.hidden marker _ _ _ _ after (Text.drop_add_length hText) hRest template h
  | .word lexeme later, _, _, _, _, after, hText, hMask, template, h => by
    rw [← Lexeme.text_append lexeme] at hText
    rw [Code.mask, List.append_assoc] at hMask
    exact later.hidden marker _ _ _ _ after (Text.drop_add_length hText)
      (Text.drop_add_length hMask) template h
  | .mark lexeme _ later, _, _, _, _, after, hText, hMask, template, h => by
    rw [← Lexeme.text_append lexeme] at hText
    exact later.hidden marker _ _ _ _ after (Text.drop_succ hText) (Text.drop_succ hMask) template h
  | @Code.Reads.literal _ _ c t u v w body rest lexeme inside later, before, offset,
      parent, next, after,
      hText, hMask, template, h => by
    rw [← Lexeme.text_append lexeme] at hText
    have hBody : text.drop (offset + 1) = u := Text.drop_succ hText
    have hBodyMask : mask.drop (offset + 1) = body.mask ++ (rest.mask ++ after) := by
      rw [← List.append_assoc]
      exact Text.drop_succ hMask
    have hRest : text.drop (offset + 1 + body.source.length) = v := by
      have hSource := hBody
      rw [← inside.sourceBefore_eq, body.sourceBefore_eq] at hSource
      exact Text.drop_add_length hSource
    have hRestMask : mask.drop (offset + 1 + body.source.length) = rest.mask ++ after := by
      rw [← body.length_mask]
      exact Text.drop_add_length hBodyMask
    rw [Code.templatesFrom] at h
    rcases List.mem_append.mp h with h | h
    · split_ifs at h with hMarked
      · rcases List.mem_cons.mp h with rfl | h
        · exact inside.hidden _ _ hBody hBodyMask
        · exact inside.hidden_templates marker _ _ _ _ _ hBody hBodyMask template h
      · exact inside.hidden_templates marker _ _ _ _ _ hBody hBodyMask template h
    · exact later.hidden marker _ _ _ _ after hRest hRestMask template h

theorem Literal.Reads.hidden_templates {text mask : Text} (marker : WideText) {t u : Text}
    {body : Literal} :
    Literal.Reads t body u →
      ∀ before offset parent next after, text.drop offset = t →
        mask.drop offset = body.mask ++ after →
        ∀ template ∈ body.templatesFrom marker before offset parent next, template.Hidden mask text
  | .cut, _, _, _, _, _, _, _, template, h => by simp [Literal.templatesFrom] at h
  | .close _, _, _, _, _, _, _, _, template, h => by simp [Literal.templatesFrom] at h
  | .lastBackslash, _, _, _, _, _, _, _, template, h => by simp [Literal.templatesFrom] at h
  | .escape _ later, _, _, _, _, after, hText, hMask, template, h =>
    later.hidden_templates marker _ _ _ _ after (Text.drop_succ (Text.drop_succ hText))
      (Text.drop_succ (Text.drop_succ hMask)) template h
  | @Literal.Reads.hole t u v code rest inside later, before, offset, parent, next,
      after, hText, hMask,
      template, h => by
    have hCode := Text.drop_succ (Text.drop_succ hText)
    have hCodeMask : mask.drop (offset + 2) = code.mask ++ (' ' :: rest.mask ++ after) := by
      rw [← List.append_assoc]
      exact Text.drop_succ (Text.drop_succ hMask)
    rw [Literal.templatesFrom] at h
    rcases List.mem_append.mp h with h | h
    · exact inside.hidden marker _ _ _ _ _ hCode hCodeMask template h
    · have hRestMask := Text.drop_succ (Text.drop_add_length hCodeMask)
      rw [code.length_mask] at hRestMask
      rw [← inside.sourceBefore_eq, code.sourceBefore_eq] at hCode
      exact later.hidden_templates marker _ _ _ _ after
        (Text.drop_succ (Text.drop_add_length hCode)) hRestMask
        template h
  | .cutHole inside, _, _, _, _, after, hText, hMask, template, h =>
    inside.hidden marker _ _ _ _ after (Text.drop_succ (Text.drop_succ hText))
      (Text.drop_succ (Text.drop_succ hMask)) template h
  | .char _ _ _ later, _, _, _, _, after, hText, hMask, template, h =>
    later.hidden_templates marker _ _ _ _ after (Text.drop_succ hText)
      (Text.drop_succ hMask) template h

end

/-- The mask of every text, malformed texts included: it has the length of the text, it shows each
character or a space in its place, line breaks it shows, and of each marked template it hides what
stands in the body outside the holes and the rims of the holes. -/
theorem mask_hides (marker : WideText) (path text : Text) :
    let file := SourceFile.read marker path text
    file.mask.length = text.length ∧
    (∀ (offset : Nat) (c : Char), text[offset]? = some c →
      file.mask[offset]? = some c ∨ file.mask[offset]? = some ' ' ∧ c ≠ '\n' ∧ c ≠ '\r') ∧
    ∀ template ∈ file.templates, template.Hidden file.mask text := by
  intro file
  refine ⟨(Code.masks_ofText text).length_eq, fun offset c => Code.getElem?_mask text, ?_⟩
  exact (Code.reads_ofText text).hidden marker [] 0 none 0 [] rfl (List.append_nil _).symm

end TemplateCheck
