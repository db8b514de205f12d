import TemplateCheck.Proofs.Source.Hiding
import TemplateCheck.Proofs.Source.Lexemes

/-!
# Comments are blanks to the lexer

A comment that the lexer reads may be replaced by as many spaces, line breaks kept, and the mask of
the text stays as it is (`exists_commentBetween`). The pieces in front of the comment end before it
and are read alike before a space (`Code.Reads.sourceBefore_of_resembles`), and blanks leave the
context as it is, so what follows the comment is read as before.
-/

namespace TemplateCheck

/-- The text with the characters of a range hidden. -/
def Text.hideRange (t : Text) (start stop : Nat) : Text :=
  t.take start ++ ((Text.slice t start stop).map Text.hide ++ t.drop stop)

theorem Text.hideRange_append (s t u : Text) :
    Text.hideRange (s ++ (t ++ u)) s.length (s.length + t.length) =
      s ++ (t.map Text.hide ++ u) := by
  have hSlice : Text.slice (s ++ (t ++ u)) s.length (s.length + t.length) = t :=
    Text.slice_of_drop List.drop_left
  have hRest : (s ++ (t ++ u)).drop (s.length + t.length) = u := Text.drop_add_length List.drop_left
  rw [Text.hideRange, hSlice, hRest, List.take_left]

/-! ## Blanks -/

/-- Blanks in front of code are shown, and nothing else changes. -/
theorem Code.Reads.exists_blanks {context : Context} {braces : Option Nat} {s t u : Text}
    {code : Code} (hs : ∀ c ∈ s, isBlank c = true) (h : Code.Reads context braces t code u) :
    ∃ code', Code.Reads context braces (s ++ t) code' u ∧
    code'.mask = s ++ code.mask := by
  induction s with
  | nil => exact ⟨code, h, rfl⟩
  | cons c s ih =>
    obtain ⟨hc, hs⟩ := List.forall_mem_cons.mp hs
    obtain ⟨rest, hReads, hMask⟩ := ih hs
    have hPlain := isPlain_of_isBlank hc
    obtain ⟨hOpen, hClose⟩ := ne_brace_of_isPlain hPlain
    have hContext : context.afterMark c = context := if_pos hc
    have hBraces : bracesAfter braces c = braces := by rw [bracesAfter, if_neg hOpen, if_neg hClose]
    refine ⟨.mark c rest,
      .mark (Lexeme.read_plain hPlain (isNameChar_of_isBlank hc) context) ?_ ?_, ?_⟩
    · exact fun hEnd => hClose hEnd.1
    · rw [hContext, hBraces]
      exact hReads
    · rw [Code.mask, hMask]
      rfl

theorem isBlank_of_mem_map_hide {t : Text} {c : Char} (h : c ∈ t.map Text.hide) :
    isBlank c = true := by
  obtain ⟨d, -, rfl⟩ := List.mem_map.mp h
  rcases hide_cases d with hd | hd | hd <;> rw [hd] <;> decide

/-! ## Comments -/

/-- The text is `before`, then the comment, then `after`; a comment that no slash ends goes on up to
the end of its line or of the text. -/
structure CommentBetween (text before comment after : Text) : Prop where
  text_eq : text = before ++ (comment ++ after)
  head?_eq : comment.head? = some '/'
  ends : comment.getLast? = some '/' ∨ after = [] ∨ after.head? = some '\n'

namespace CommentBetween

variable {text before comment after : Text}

theorem append (h : CommentBetween text before comment after) (s : Text) :
    CommentBetween (s ++ text) (s ++ before) comment after where
  text_eq := by rw [h.text_eq, List.append_assoc]
  head?_eq := h.head?_eq
  ends := h.ends

theorem resembles (h : CommentBetween text before comment after) :
    Resembles text (before ++ (comment.map Text.hide ++ after)) := by
  rw [h.text_eq, eq_cons_of_head? h.head?_eq]
  exact Resembles.append ⟨'/', _, ' ', _, rfl, rfl, .inr ⟨rfl, rfl⟩⟩ before

end CommentBetween

theorem getLast?_blockCommentEnd {t : Text} (h : (blockCommentEnd t).2 ≠ []) :
    (blockCommentEnd t).1.getLast? = some '/' := by
  fun_induction blockCommentEnd t with
  | case1 => exact absurd rfl h
  | case2 t => rfl
  | case3 c t hOpen body rest hRead ih =>
    rw [hRead] at ih
    rw [List.getLast?_cons, ih h]
    rfl

/-- A comment begins with a slash, and what follows it shows where it ends. -/
theorem Lexeme.commentBetween {context : Context} {c : Char} {t comment u : Text}
    (h : Lexeme.read context c t = (.comment comment, u)) :
    CommentBetween (c :: t) [] comment u := by
  have hText := (Lexeme.text_append h).symm
  cases Lexeme.cuts_iff.mpr h with
  | lineComment slash =>
    refine ⟨hText, congrArg some slash, .inr ?_⟩
    cases hRest : t.dropWhile (· ≠ '\n') with
    | nil => exact .inl rfl
    | cons d rest =>
      have hd := forall_head?_dropWhile (· ≠ '\n') t d (by rw [hRest]; rfl)
      have hLine : d = '\n' := by simpa using hd
      exact .inr (congrArg some hLine)
  | blockComment slash =>
    refine ⟨hText, congrArg some slash, ?_⟩
    by_cases hOpen : (blockCommentEnd t.tail).2 = []
    · exact .inr (.inl hOpen)
    · left
      rw [List.getLast?_cons, List.getLast?_cons, getLast?_blockCommentEnd hOpen]
      rfl

/-! ## Hiding a comment -/

/-- The comment stands at `start` in the text, which stands at `offset`, and the text has the
property when the comment is hidden. -/
def HoldsBlanked (property : Text → Prop) (t : Text) (offset start : Nat) (comment : Text) : Prop :=
  ∃ before after, CommentBetween t before comment after ∧ start = offset + before.length ∧
    property (before ++ (comment.map Text.hide ++ after))

theorem HoldsBlanked.append {property property' : Text → Prop} {s t : Text} {offset start : Nat}
    {comment : Text} (h : HoldsBlanked property t (offset + s.length) start comment)
    (hStep : ∀ v, Resembles t v → property v → property' (s ++ v)) :
    HoldsBlanked property' (s ++ t) offset start comment := by
  obtain ⟨before, after, hComment, hStart, hBlanked⟩ := h
  refine ⟨s ++ before, after, hComment.append s, ?_, ?_⟩
  · rw [hStart, List.length_append, Nat.add_assoc]
  · rw [List.append_assoc]
    exact hStep _ hComment.resembles hBlanked

theorem HoldsBlanked.lexeme {property property' : Text → Prop} {context : Context} {c : Char}
    {t u : Text} {lexeme : Lexeme} {offset start : Nat} {comment : Text}
    (hRead : Lexeme.read context c t = (lexeme, u))
    (h : HoldsBlanked property u (offset + lexeme.text.length) start comment)
    (hStep : ∀ body v, Lexeme.read context c (body ++ v) = (lexeme, v) → property v →
      property' (c :: (body ++ v))) : HoldsBlanked property' (c :: t) offset start comment := by
  obtain ⟨body, hText, -, hAlike⟩ := Lexeme.exists_read_of_resembles hRead
  rw [← Lexeme.text_append hRead]
  refine h.append fun v hv hProperty => ?_
  rw [hText]
  exact hStep body v (hAlike v hv) hProperty

theorem Literal.Reads.holdsBlanked_behind {property : Text → Prop} {t u : Text} {body : Literal}
    {offset start : Nat} {comment : Text} (inside : Literal.Reads t body u)
    (h : HoldsBlanked property u (offset + body.source.length) start comment) :
    HoldsBlanked (fun v => ∃ w, Literal.Reads v body w ∧ property w) t offset start comment := by
  rw [← inside.sourceBefore_eq, body.sourceBefore_eq]
  refine h.append fun v hv hProperty => ⟨v, ?_, hProperty⟩
  rw [← body.sourceBefore_eq]
  exact inside.sourceBefore_of_resembles hv

theorem Code.Reads.holdsBlanked_behind {property : Text → Prop} {t u : Text} {code : Code}
    {offset start : Nat} {comment : Text} (inside : Code.Reads .start (some 0) t code ('}' :: u))
    (h : HoldsBlanked property u (offset + code.source.length + 1) start comment) :
    HoldsBlanked (fun v => ∃ w, Code.Reads .start (some 0) v code ('}' :: w) ∧ property w) t offset
      start comment := by
  have hBrace : HoldsBlanked (fun v => ∃ w, v = '}' :: w ∧ property w) ('}' :: u)
      (offset + code.source.length)
      start comment :=
    HoldsBlanked.append (s := ['}']) h fun v _ hProperty => ⟨v, rfl, hProperty⟩
  rw [← inside.sourceBefore_eq, code.sourceBefore_eq]
  refine hBrace.append fun v hv hRest => ?_
  obtain ⟨w, rfl, hProperty⟩ := hRest
  refine ⟨w, ?_, hProperty⟩
  rw [← code.sourceBefore_eq]
  exact inside.sourceBefore_of_resembles hv

mutual

/-- A comment of code may be hidden, and the mask stays as it is. -/
theorem Code.Reads.holdsBlanked {context : Context} {braces : Option Nat} {t u : Text} {code : Code}
    {start : Nat} {comment : Text} :
    Code.Reads context braces t code u →
    ∀ {offset : Nat},
      (start, .comment comment) ∈ code.lexemesFrom offset →
        HoldsBlanked (fun v => ∃ code', Code.Reads context braces v code' u ∧
          code'.mask = code.mask)
          t offset start comment
  | .done _ _, _, h => by cases h
  | .stop _ _, _, h => by cases h
  | .comment lexeme later, offset, h => by
    rcases List.mem_cons.mp h with hHere | hLater
    · obtain ⟨rfl, hText⟩ := Prod.mk.inj hHere
      obtain rfl := Lexeme.comment.inj hText
      have hBlanks : ∀ c ∈ comment.map Text.hide, isBlank c = true :=
        fun c => isBlank_of_mem_map_hide
      exact ⟨[], _, Lexeme.commentBetween lexeme, rfl, later.exists_blanks hBlanks⟩
    · refine (later.holdsBlanked hLater).lexeme lexeme fun body v hRead hRest => ?_
      obtain ⟨rest, hReads, hMask⟩ := hRest
      exact ⟨.comment _ rest, .comment hRead hReads, by rw [Code.mask, Code.mask, hMask]⟩
  | .quoted lexeme later, offset, h => by
    have hLater := (List.mem_cons.mp h).resolve_left (by simp)
    refine (later.holdsBlanked hLater).lexeme lexeme fun body v hRead hRest => ?_
    obtain ⟨rest, hReads, hMask⟩ := hRest
    exact ⟨.quoted _ rest, .quoted hRead hReads, by rw [Code.mask, Code.mask, hMask]⟩
  | .regex lexeme later, offset, h => by
    have hLater := (List.mem_cons.mp h).resolve_left (by simp)
    refine (later.holdsBlanked hLater).lexeme lexeme fun body v hRead hRest => ?_
    obtain ⟨rest, hReads, hMask⟩ := hRest
    exact ⟨.regex _ rest, .regex hRead hReads, by rw [Code.mask, Code.mask, hMask]⟩
  | .word lexeme later, offset, h => by
    have hLater := (List.mem_cons.mp h).resolve_left (by simp)
    refine (later.holdsBlanked hLater).lexeme lexeme fun body v hRead hRest => ?_
    obtain ⟨rest, hReads, hMask⟩ := hRest
    exact ⟨.word _ rest, .word hRead hReads, by rw [Code.mask, Code.mask, hMask]⟩
  | .mark lexeme goesOn later, offset, h => by
    have hLater := (List.mem_cons.mp h).resolve_left (by simp)
    refine (later.holdsBlanked hLater).lexeme lexeme fun body v hRead hRest => ?_
    obtain ⟨rest, hReads, hMask⟩ := hRest
    exact ⟨.mark _ rest, .mark hRead goesOn hReads, by rw [Code.mask, Code.mask, hMask]⟩
  | @Code.Reads.literal _ _ _ _ _ _ _ literal _ lexeme inside later, offset, h => by
    rcases List.mem_append.mp ((List.mem_cons.mp h).resolve_left (by simp)) with hInside | hLater
    · refine (inside.holdsBlanked hInside).lexeme lexeme fun body v hRead hBody => ?_
      obtain ⟨literal', hReads, hMask⟩ := hBody
      exact ⟨.literal literal' _, .literal hRead hReads later, by rw [Code.mask, Code.mask, hMask]⟩
    · refine (inside.holdsBlanked_behind (later.holdsBlanked hLater)).lexeme lexeme
        fun body v hRead hRest => ?_
      obtain ⟨w, hLiteral, rest, hReads, hMask⟩ := hRest
      exact ⟨.literal literal rest, .literal hRead hLiteral hReads,
        by rw [Code.mask, Code.mask, hMask]⟩

theorem Literal.Reads.holdsBlanked {t u : Text} {body : Literal} {start : Nat} {comment : Text} :
    Literal.Reads t body u → ∀ {offset : Nat}, (start, .comment comment) ∈ body.lexemesFrom offset →
      HoldsBlanked (fun v => ∃ body', Literal.Reads v body' u ∧ body'.mask = body.mask) t
        offset start comment
  | .cut, _, h => by cases h
  | .close _, _, h => by cases h
  | .lastBackslash, _, h => by cases h
  | .escape c later, offset, h => by
    refine (later.holdsBlanked h).append (s := ['\\', c]) fun v _ hRest => ?_
    obtain ⟨rest', hReads, hMask⟩ := hRest
    exact ⟨.escape c rest', .escape c hReads, by rw [Literal.mask, Literal.mask, hMask]⟩
  | @Literal.Reads.char c _ _ _ noClose noEscape noHole later, offset, h => by
    refine (later.holdsBlanked h).append (s := [c]) fun v hv hRest => ?_
    obtain ⟨rest', hReads, hMask⟩ := hRest
    refine ⟨.char c rest', .char noClose noEscape ?_ hReads,
      by rw [Literal.mask, Literal.mask, hMask]⟩
    rintro ⟨hc, hHead⟩
    exact noHole ⟨hc, hv.head?_of_ne hHead (by decide)⟩
  | @Literal.Reads.hole _ _ _ code rest inside later, offset, h => by
    rcases List.mem_append.mp h with hInside | hLater
    · refine (inside.holdsBlanked hInside).append (s := ['$', '{']) fun v _ hRest => ?_
      obtain ⟨code', hReads, hMask⟩ := hRest
      exact ⟨.hole code' rest, .hole hReads later, by rw [Literal.mask, Literal.mask, hMask]⟩
    · have hHole := inside.holdsBlanked_behind (later.holdsBlanked hLater)
      refine hHole.append (s := ['$', '{']) fun v _ hRest => ?_
      obtain ⟨w, hCode, rest', hReads, hMask⟩ := hRest
      exact ⟨.hole code rest', .hole hCode hReads, by rw [Literal.mask, Literal.mask, hMask]⟩
  | .cutHole inside, offset, h => by
    refine (inside.holdsBlanked h).append (s := ['$', '{']) fun v _ hRest => ?_
    obtain ⟨code', hReads, hMask⟩ := hRest
    exact ⟨.cutHole code', .cutHole hReads, by rw [Literal.mask, Literal.mask, hMask]⟩

end

/-- A comment that the lexer reads in a text stands there, and hiding it keeps the mask. -/
theorem exists_commentBetween {text comment : Text} {start : Nat}
    (h : (start, .comment comment) ∈ text.lexemes) :
    ∃ before after, CommentBetween text before comment after ∧ start = before.length ∧
      (Code.ofText (before ++ (comment.map Text.hide ++ after))).mask =
        (Code.ofText text).mask := by
  obtain ⟨before, after, hComment, hStart, code, hReads, hMask⟩ :=
    (Code.reads_ofText text).holdsBlanked h
  exact ⟨before, after, hComment, by rw [hStart, Nat.zero_add], by rw [hReads.ofText_eq, hMask]⟩

end TemplateCheck
