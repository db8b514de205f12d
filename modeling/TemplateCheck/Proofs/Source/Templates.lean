import TemplateCheck.Proofs.Source.Lexing
import TemplateCheck.Proofs.Source.Nesting
import TemplateCheck.Proofs.Text.Slice

/-!
# The marked templates of a source text

What holds of the marked templates of every text, malformed texts included.

1. Holes are found where the text opens them, and their expressions are slices of the text
   (`Literal.span_text`).
2. A literal goes up to its first bare backtick outside its holes, or to the end of the text
   (`Literal.Reads.closing_or_end`, `Literal.Reads.not_holdsBare`).
3. So every marked template has its shape in the text (`Code.Reads.shaped`); how the templates lie
   in each other is known from the tree of pieces alone.
-/

namespace TemplateCheck

/-! ## Bare characters -/

/-- Whether the text holds a character that no backslash guards. -/
def Text.holdsBare (c : Char) : Text → Bool
  | [] => false
  | ['\\'] => false
  | '\\' :: _ :: t => holdsBare c t
  | d :: t => d = c || holdsBare c t

theorem Text.holdsBare_cons (c : Char) {d : Char} (h : d ≠ '\\') (t : Text) :
    Text.holdsBare c (d :: t) = (d = c || Text.holdsBare c t) := by
  cases t <;> simp [Text.holdsBare, h]

theorem Text.holdsBare_escape (c d : Char) (t : Text) :
    Text.holdsBare c ('\\' :: d :: t) = Text.holdsBare c t := rfl

/-- The parts of a text from `offset` to `stop` that lie outside the spans. -/
def Text.outside (text : Text) (stop : Nat) : (offset : Nat) → List Span → List Text
  | offset, [] => [Text.slice text offset stop]
  | offset, span :: spans =>
    Text.slice text offset span.start :: Text.outside text stop span.stop spans

/-! ## The shape of a template in its text -/

/-- What a marked template is in its text: a backtick, a body up to the closing backtick or to the
end of the text, and holes in the body. -/
structure TaggedTemplate.Shaped (text : Text) (template : TaggedTemplate) : Prop where
  backtick : text[template.start]? = some '`'
  start_lt_stop : template.start < template.stop
  stop_le : template.stop ≤ text.length
  /-- The closing backtick is the first one outside the holes that no backslash guards. -/
  body_eq : ∃ bodyStop, template.body = Text.slice text (template.start + 1) bodyStop ∧
    (∀ part ∈ text.outside bodyStop (template.start + 1) template.spans,
      Text.holdsBare '`' part = false) ∧
    (text[bodyStop]? = some '`' ∧ template.stop = bodyStop + 1 ∨
      bodyStop = text.length ∧ template.stop = text.length)
  span_inside : ∀ span ∈ template.spans,
    template.start + 1 ≤ span.start ∧ span.start < span.stop ∧ span.stop ≤ template.stop
  spans_ordered : template.spans.Pairwise fun a b => a.stop ≤ b.start
  span_opens : ∀ span ∈ template.spans,
    Text.slice text span.start (span.start + 2) = ['$', '{']
  expression_eq : ∀ span ∈ template.spans,
    Text.slice text span.expressionStart (span.expressionStart + span.expression.length) =
      span.expression

theorem TaggedTemplate.Shaped.slice_body {text : Text} {template : TaggedTemplate}
    (h : template.Shaped text) {offset : Nat} {piece : Text}
    (hPiece : Text.slice template.body offset (offset + piece.length) = piece) :
    Text.slice text (template.start + 1 + offset) (template.start + 1 + offset + piece.length) =
      piece := by
  obtain ⟨bodyStop, hBody, -⟩ := h.body_eq
  rw [hBody] at hPiece
  exact Text.slice_of_slice hPiece rfl

theorem TaggedTemplate.Shaped.getElem?_body {text : Text} {template : TaggedTemplate}
    (h : template.Shaped text) {offset : Nat} {c : Char} (hc : template.body[offset]? = some c) :
    text[template.start + 1 + offset]? = some c := by
  obtain ⟨bodyStop, hBody, -⟩ := h.body_eq
  rw [hBody] at hc
  exact Text.getElem?_of_slice hc

/-! ## Holes in the text -/

theorem Span.slice_expression {text code rest : Text} {start stop : Nat}
    (h : text.drop (start + 2) = code ++ rest) :
    Text.slice text (Span.ofCode start stop code).expressionStart
      ((Span.ofCode start stop code).expressionStart +
        (Span.ofCode start stop code).expression.length) =
        (Span.ofCode start stop code).expression := by
  obtain ⟨after, hTrim⟩ := Text.exists_trim_append code
  have hDrop : text.drop (start + 2 + Text.indent code) = Text.trim code ++ (after ++ rest) := by
    rw [← List.drop_drop, h, List.drop_append_of_le_length (Text.indent_le_length code), hTrim,
      List.append_assoc]
  exact Text.slice_of_drop hDrop

theorem Literal.span_text {text tail : Text} : (body : Literal) → ∀ offset,
    text.drop offset = body.sourceBefore tail → ∀ span ∈ body.spans offset,
      Text.slice text span.start (span.start + 2) = ['$', '{'] ∧
      Text.slice text span.expressionStart (span.expressionStart + span.expression.length) =
        span.expression
  | .cut, _, _, _, h => by simp [Literal.spans] at h
  | .close, _, _, _, h => by simp [Literal.spans] at h
  | .char _ rest, offset, hText, span,
      h => rest.span_text (offset + 1) (Text.drop_succ hText) span h
  | .escape c rest, offset, hText, span, h =>
    rest.span_text (offset + 2) (Text.drop_succ (Text.drop_succ hText)) span h
  | .hole code rest, offset, hText, span, h => by
    have hCode := Text.drop_succ (Text.drop_succ hText)
    rw [code.sourceBefore_eq] at hCode
    rcases List.mem_cons.mp h with rfl | h
    · exact ⟨Text.slice_pair hText, Span.slice_expression hCode⟩
    · exact rest.span_text _ (Text.drop_succ (Text.drop_add_length hCode)) span h
  | .cutHole code, offset, hText, span, h => by
    have hCode := Text.drop_succ (Text.drop_succ hText)
    rw [code.sourceBefore_eq] at hCode
    obtain rfl := List.mem_singleton.mp h
    exact ⟨Text.slice_pair hText, Span.slice_expression hCode⟩

/-! ## Where a literal ends -/

theorem Literal.Reads.closing_or_end {t u : Text} {body : Literal} (h : Literal.Reads t body u) :
    body.closing = ['`'] ∨ body.closing = [] ∧ u = [] := by
  induction h using Literal.Reads.induction with
  | cut => exact .inr ⟨rfl, rfl⟩
  | close => exact .inl rfl
  | lastBackslash => exact .inr ⟨rfl, rfl⟩
  | escape _ _ ih => exact ih
  | hole _ _ ih => exact ih
  | cutHole => exact .inr ⟨rfl, rfl⟩
  | char _ _ _ _ ih => exact ih

/-- Bare characters outside spans that start beyond a piece are not changed by a piece that has
none and leaves no backslash open. -/
theorem Text.not_holdsBare_outside {text piece rest : Text} {c : Char} {offset stop : Nat}
    {spans : List Span} (h : text.drop offset = piece ++ rest)
    (hStop : offset + piece.length ≤ stop)
    (hSpans : ∀ span ∈ spans, offset + piece.length ≤ span.start)
    (hPiece : ∀ part, Text.holdsBare c (piece ++ part) = Text.holdsBare c part)
    (hLater : ∀ part ∈ text.outside stop (offset + piece.length) spans,
      Text.holdsBare c part = false) :
    ∀ part ∈ text.outside stop offset spans, Text.holdsBare c part = false := by
  cases spans with
  | nil =>
    intro part hPart
    obtain rfl := List.mem_singleton.mp hPart
    rw [Text.slice_eq_append h hStop, hPiece]
    exact hLater _ List.mem_cons_self
  | cons span spans =>
    obtain ⟨hFirst, hOthers⟩ := List.forall_mem_cons.mp hLater
    refine List.forall_mem_cons.mpr ⟨?_, hOthers⟩
    rw [Text.slice_eq_append h (hSpans span List.mem_cons_self), hPiece]
    exact hFirst

theorem Literal.Reads.not_holdsBare {text t u : Text} {body : Literal}
    (h : Literal.Reads t body u) : ∀ offset, text.drop offset = t →
      ∀ part ∈ text.outside (offset + body.body.length) offset (body.spans offset),
        Text.holdsBare '`' part = false := by
  induction h using Literal.Reads.induction with
  | cut =>
    intro offset _ part h
    obtain rfl := List.mem_singleton.mp h
    rw [Literal.body, List.length_nil, Nat.add_zero, Text.slice_self]
    rfl
  | close _ =>
    intro offset _ part h
    obtain rfl := List.mem_singleton.mp h
    rw [Literal.body, List.length_nil, Nat.add_zero, Text.slice_self]
    rfl
  | lastBackslash =>
    intro offset hText part h
    obtain rfl := List.mem_singleton.mp h
    have hSlice := Text.slice_of_drop (show text.drop offset = ['\\'] ++ [] from hText)
    show Text.holdsBare '`' (Text.slice text offset (offset + 1)) = false
    rw [show Text.slice text offset (offset + 1) = ['\\'] from hSlice]
    rfl
  | @escape c t u rest _ ih =>
    intro offset hText part h
    have hRest := ih (offset + 2) (Text.drop_succ (Text.drop_succ hText))
    rw [Literal.add_length_body_escape] at h
    exact Text.not_holdsBare_outside (show text.drop offset = ['\\', c] ++ t from hText)
      (Nat.le_add_right _ _) (fun span hSpan => (rest.span_bounds _ span hSpan).1)
      (fun part => Text.holdsBare_escape '`' c part) hRest part h
  | @hole t u v code rest inside _ ih =>
    intro offset hText part h
    have hCode := Text.drop_succ (Text.drop_succ hText)
    rw [← inside.sourceBefore_eq, code.sourceBefore_eq] at hCode
    have hRest := ih _ (Text.drop_succ (Text.drop_add_length hCode))
    rw [Literal.add_length_body_hole] at h
    rcases List.mem_cons.mp h with rfl | h
    · show Text.holdsBare '`' (Text.slice text offset offset) = false
      rw [Text.slice_self]
      rfl
    · exact hRest part h
  | @cutHole t code _ =>
    intro offset _ part h
    rcases List.mem_cons.mp h with rfl | h
    · show Text.holdsBare '`' (Text.slice text offset offset) = false
      rw [Text.slice_self]
      rfl
    · obtain rfl := List.mem_singleton.mp h
      rw [Literal.add_length_body_cutHole]
      show Text.holdsBare '`' (Text.slice text (offset + 2 + code.source.length) _) = false
      rw [Text.slice_self]
      rfl
  | @char c t u rest noClose noEscape _ _ ih =>
    intro offset hText part h
    have hRest := ih (offset + 1) (Text.drop_succ hText)
    rw [Literal.add_length_body_char] at h
    refine Text.not_holdsBare_outside (show text.drop offset = [c] ++ t from hText)
      (Nat.le_add_right _ _) (fun span hSpan => (rest.span_bounds _ span hSpan).1)
      (fun part => ?_) hRest part h
    rw [List.singleton_append, Text.holdsBare_cons _ noEscape]
    simp [noClose]

/-! ## Every marked template has its shape -/

theorem Literal.Reads.shaped_template {text t u : Text} {body : Literal}
    (h : Literal.Reads t body u) {offset : Nat} (hText : text.drop offset = '`' :: t)
    (index tagStart : Nat) (tag : Text) (parent : Option Nat) :
    TaggedTemplate.Shaped text
      { index := index, tag := tag, tagStart := tagStart, start := offset,
        stop := offset + 1 + body.source.length, spans := body.spans (offset + 1),
        parent := parent, body := body.body } := by
  have hBody : text.drop (offset + 1) = body.sourceBefore u := by
    rw [Text.drop_succ hText, h.sourceBefore_eq]
  have hSplit : text.drop (offset + 1) = body.body ++ (body.closing ++ u) := by
    rw [hBody, body.sourceBefore_eq, body.source_eq_body, List.append_assoc]
  have hLength : body.source.length = body.body.length + body.closing.length := by
    rw [body.source_eq_body, List.length_append]
  have hEnd : text.length = offset + 1 + body.source.length + u.length := by
    have h1 := congrArg List.length hText
    have h2 := congrArg List.length h.sourceBefore_eq
    rw [List.length_drop, List.length_cons] at h1
    rw [body.sourceBefore_eq, List.length_append] at h2
    omega
  exact
    { backtick := Text.getElem?_of_drop hText
      start_lt_stop := by simp only; omega
      stop_le := by simp only; omega
      body_eq := by
        refine ⟨offset + 1 + body.body.length, (Text.slice_of_drop hSplit).symm,
          h.not_holdsBare (offset + 1) (Text.drop_succ hText), ?_⟩
        have hAfter := Text.drop_add_length hSplit
        rcases h.closing_or_end with hClosing | ⟨hClosing, rfl⟩
        · rw [hClosing] at hAfter hLength
          exact .inl ⟨Text.getElem?_of_drop hAfter, by simp only [hLength]; rfl⟩
        · rw [hClosing] at hLength
          simp only [List.length_nil] at hLength hEnd
          exact .inr ⟨by omega, by simp only; omega⟩
      span_inside := fun span hSpan => by
        have h1 := body.span_bounds _ span hSpan
        simp only
        omega
      spans_ordered := body.spans_ordered _
      span_opens := fun span hSpan => (body.span_text _ hBody span hSpan).1
      expression_eq := fun span hSpan => (body.span_text _ hBody span hSpan).2 }

mutual

/-- The marked templates of code that lexing cuts off a text have their shape in it. -/
theorem Code.Reads.shaped {text : Text} (marker : WideText) {context : Context}
    {braces : Option Nat} {t u : Text} {code : Code} : Code.Reads context braces t code u →
      ∀ before offset parent next, text.drop offset = t →
        ∀ template ∈ code.templatesFrom marker before offset parent next, template.Shaped text
  | .done _ _, _, _, _, _, _, template, h => by simp [Code.templatesFrom] at h
  | .stop _ _, _, _, _, _, _, template, h => by simp [Code.templatesFrom] at h
  | .comment lexeme later, _, _, _, _, hText, template, h => by
    rw [← Lexeme.text_append lexeme] at hText
    exact later.shaped marker _ _ _ _ (Text.drop_add_length hText) template h
  | .quoted lexeme later, _, _, _, _, hText, template, h => by
    rw [← Lexeme.text_append lexeme] at hText
    exact later.shaped marker _ _ _ _ (Text.drop_add_length hText) template h
  | .regex lexeme later, _, _, _, _, hText, template, h => by
    rw [← Lexeme.text_append lexeme] at hText
    exact later.shaped marker _ _ _ _ (Text.drop_add_length hText) template h
  | .word lexeme later, _, _, _, _, hText, template, h => by
    rw [← Lexeme.text_append lexeme] at hText
    exact later.shaped marker _ _ _ _ (Text.drop_add_length hText) template h
  | .mark lexeme _ later, _, _, _, _, hText, template, h => by
    rw [← Lexeme.text_append lexeme] at hText
    exact later.shaped marker _ _ _ _ (Text.drop_succ hText) template h
  | @Code.Reads.literal _ _ c t u v w body rest lexeme inside later, before, offset, parent, next,
      hText, template, h => by
    rw [← Lexeme.text_append lexeme] at hText
    have hBody : text.drop (offset + 1) = u := Text.drop_succ hText
    have hRest : text.drop (offset + 1 + body.source.length) = v := by
      rw [← inside.sourceBefore_eq, body.sourceBefore_eq] at hBody
      exact Text.drop_add_length hBody
    rw [Code.templatesFrom] at h
    rcases List.mem_append.mp h with h | h
    · split_ifs at h with hMarked
      · rcases List.mem_cons.mp h with rfl | h
        · exact inside.shaped_template hText _ _ _ _
        · exact inside.shaped marker _ _ _ _ hBody template h
      · exact inside.shaped marker _ _ _ _ hBody template h
    · exact later.shaped marker _ _ _ _ hRest template h

theorem Literal.Reads.shaped {text : Text} (marker : WideText) {t u : Text} {body : Literal} :
    Literal.Reads t body u → ∀ before offset parent next, text.drop offset = t →
      ∀ template ∈ body.templatesFrom marker before offset parent next, template.Shaped text
  | .cut, _, _, _, _, _, template, h => by simp [Literal.templatesFrom] at h
  | .close _, _, _, _, _, _, template, h => by simp [Literal.templatesFrom] at h
  | .lastBackslash, _, _, _, _, _, template, h => by simp [Literal.templatesFrom] at h
  | .escape _ later, _, _, _, _, hText, template, h =>
    later.shaped marker _ _ _ _ (Text.drop_succ (Text.drop_succ hText)) template h
  | @Literal.Reads.hole t u v code rest inside later, before, offset, parent, next, hText, template,
      h => by
    have hCode := Text.drop_succ (Text.drop_succ hText)
    rw [Literal.templatesFrom] at h
    rcases List.mem_append.mp h with h | h
    · exact inside.shaped marker _ _ _ _ hCode template h
    · rw [← inside.sourceBefore_eq, code.sourceBefore_eq] at hCode
      exact later.shaped marker _ _ _ _ (Text.drop_succ (Text.drop_add_length hCode)) template h
  | .cutHole inside, _, _, _, _, hText, template, h =>
    inside.shaped marker _ _ _ _ (Text.drop_succ (Text.drop_succ hText)) template h
  | .char _ _ _ later, _, _, _, _, hText, template, h =>
    later.shaped marker _ _ _ _ (Text.drop_succ hText) template h

end

/-! ## The templates of a whole text -/

theorem Code.shaped_templates (marker : WideText) (text : Text) :
    ∀ template ∈ (Code.ofText text).templates marker, template.Shaped text :=
  (Code.reads_ofText text).shaped marker [] 0 none 0 rfl

/-- The marked templates of a text are arranged. -/
theorem Code.arranged_templates (marker : WideText) (text : Text) :
    Arranged none 0 0 text.length ((Code.ofText text).templates marker) := by
  have h := (Code.ofText text).arranged_templatesFrom marker [] 0 none 0
  rwa [Code.source_ofText, Nat.zero_add] at h

/-- A template in a hole of another one lies in exactly one of its holes. -/
theorem TaggedTemplate.Shaped.existsUnique_span {text : Text} {outer inner : TaggedTemplate}
    (h : outer.Shaped text) (hInner : inner.start < inner.stop) (hEncloses : outer.Encloses inner) :
    ∃! span, span ∈ outer.spans ∧ span.Contains inner := by
  obtain ⟨span, hSpan, hContains⟩ := hEncloses
  refine ⟨span, ⟨hSpan, hContains⟩, fun other ⟨hOther, hContains'⟩ => ?_⟩
  have hDisjoint : ∀ a ∈ outer.spans, ∀ b ∈ outer.spans,
      a = b ∨ a.stop ≤ b.start ∨ b.stop ≤ a.start := by
    intro a ha b hb
    refine List.Pairwise.forall_of_forall_of_flip
      (R := fun a b => a = b ∨ a.stop ≤ b.start ∨ b.stop ≤ a.start) (fun a _ => .inl rfl)
      (h.spans_ordered.imp fun hab => ?_) (h.spans_ordered.imp fun hba => ?_) ha hb
    · exact .inr (.inl hab)
    · exact .inr (.inr hba)
  obtain ⟨h1, h2⟩ := hContains
  obtain ⟨h3, h4⟩ := hContains'
  rcases hDisjoint other hOther span hSpan with hEq | hBefore | hAfter
  · exact hEq
  · omega
  · omega

namespace Arranged

variable {next low high : Nat} {ts : List TaggedTemplate}

theorem apart_or_encloses {parent : Option Nat} (h : Arranged parent next low high ts) :
    ∀ t ∈ ts, ∀ u ∈ ts, t = u ∨ t.Apart u ∨ t.Encloses u ∨ u.Encloses t := by
  intro t ht u hu
  refine List.Pairwise.forall_of_forall_of_flip
    (R := fun t u => t = u ∨ t.Apart u ∨ t.Encloses u ∨ u.Encloses t) (fun t _ => .inl rfl)
    (h.laminar.imp fun htu => ?_) (h.laminar.imp fun hut => ?_) ht hu
  · exact .inr (htu.imp .inl .inl)
  · exact .inr (hut.imp .inr .inr)

theorem index_of_getElem? {parent : Option Nat} (h : Arranged parent next low high ts) {i : Nat}
    {t : TaggedTemplate} (ht : ts[i]? = some t) : t.index = next + i := by
  have hIndex := congrArg (·[i]?) h.index_eq
  obtain ⟨hi, -⟩ := List.getElem?_eq_some_iff.mp ht
  simpa [ht, List.getElem?_range' hi] using hIndex

/-- Without a parent from outside, a template has the innermost template around it as its parent. -/
theorem parent_eq_some_iff (h : Arranged none next low high ts) {t : TaggedTemplate} (ht : t ∈ ts)
    (p : Nat) : t.parent = some p ↔ ∃ outer ∈ ts, outer.index = p ∧ outer.Encloses t ∧
      ∀ u ∈ ts, u.Encloses t → u = outer ∨ u.Encloses outer := by
  rcases h.parent_eq t ht with ⟨hParent, hNone⟩ | ⟨inner, hInner, hParent, hEncloses, hInnermost⟩
  · rw [hParent]
    constructor
    · intro hSome
      cases hSome
    · rintro ⟨outer, hOuter, -, hOuterEncloses, -⟩
      exact absurd hOuterEncloses (hNone outer hOuter)
  · rw [hParent]
    constructor
    · intro hSome
      exact ⟨inner, hInner, Option.some.inj hSome, hEncloses, hInnermost⟩
    · rintro ⟨outer, hOuter, rfl, hOuterEncloses, hOuterInnermost⟩
      -- Two innermost templates around `t` would lie in each other.
      rcases hInnermost outer hOuter hOuterEncloses with rfl | hOut
      · rfl
      · rcases hOuterInnermost inner hInner hEncloses with rfl | hIn
        · rfl
        · have h1 := (h.bounded outer hOuter).start_lt_of_encloses hOut
          have h2 := (h.bounded inner hInner).start_lt_of_encloses hIn
          omega

theorem parent_eq_none_iff (h : Arranged none next low high ts) {t : TaggedTemplate} (ht : t ∈ ts) :
    t.parent = none ↔ ∀ u ∈ ts, ¬ u.Encloses t := by
  rcases h.parent_eq t ht with ⟨hParent, hNone⟩ | ⟨inner, hInner, hParent, hEncloses, -⟩
  · exact ⟨fun _ => hNone, fun _ => hParent⟩
  · constructor
    · intro hNone
      rw [hParent] at hNone
      cases hNone
    · exact fun hNone => absurd hEncloses (hNone inner hInner)

end Arranged

/-- The marked templates of every text, malformed texts included: they are numbered in the order of
their opening backticks; each has its shape in the text; any two are apart, or one lies in exactly
one hole of the other; and the parent is the innermost marked template around. -/
theorem templates_structure (marker : WideText) (text : Text) :
    let templates := (Code.ofText text).templates marker
    (templates.Pairwise fun t u => t.start < u.start) ∧
    (∀ (i : Nat) (t : TaggedTemplate), templates[i]? = some t → t.index = i) ∧
    (∀ t ∈ templates, t.Shaped text) ∧
    (∀ t ∈ templates, ∀ u ∈ templates, t ≠ u → t.Apart u ∨
      (∃! span, span ∈ t.spans ∧ span.Contains u) ∨ (∃! span, span ∈ u.spans ∧ span.Contains t)) ∧
    (∀ t ∈ templates, ∀ p, t.parent = some p ↔ ∃ outer ∈ templates, outer.index = p ∧
      outer.Encloses t ∧ ∀ u ∈ templates, u.Encloses t → u = outer ∨ u.Encloses outer) ∧
    (∀ t ∈ templates, t.parent = none ↔ ∀ u ∈ templates, ¬ u.Encloses t) := by
  intro templates
  have hArranged : Arranged none 0 0 text.length templates := Code.arranged_templates marker text
  have hShaped : ∀ t ∈ templates, t.Shaped text := Code.shaped_templates marker text
  refine ⟨hArranged.ordered, fun i t ht => ?_, hShaped, fun t ht u hu hne => ?_,
    fun t ht => hArranged.parent_eq_some_iff ht, fun t ht => hArranged.parent_eq_none_iff ht⟩
  · rw [hArranged.index_of_getElem? ht, Nat.zero_add]
  · rcases hArranged.apart_or_encloses t ht u hu with hEq | hApart | hEncloses | hEncloses
    · exact absurd hEq hne
    · exact .inl hApart
    · exact .inr (.inl ((hShaped t ht).existsUnique_span (hShaped u hu).start_lt_stop hEncloses))
    · exact .inr (.inr ((hShaped u hu).existsUnique_span (hShaped t ht).start_lt_stop hEncloses))

end TemplateCheck
