import TemplateCheck.Proofs.Source.ClassBody
import TemplateCheck.Proofs.Source.ImportShown
import TemplateCheck.Proofs.Text.BracketKind

/-!
# What the mask shows of a class body

The mask shows a brace only at the end of a lexeme: the brace itself, or a string that its line cuts
off behind it. The lexer goes on behind it in code (`exists_passes_of_brace`), and a text without
quotes, slashes and backticks that closes its braces is shown there as it stands
(`StartsAs.nested`). If the brace is code, so is the one that closes it, whatever literal the class
stands in (`exists_body_of_mark`).
-/

namespace TemplateCheck

open Text (isBrace openAfter?)

/-! ## Texts with braces -/

/-- Whether the character begins no string, no template literal, no comment and no
regular expression. -/
def isCode (c : Char) : Bool := c ∉ ['"', '\'', '`', '/']

theorem isCode_of_isPlain {c : Char} (h : isPlain c = true) : isCode c = true :=
  decide_eq_true (not_mem_of_class h (by decide))

theorem Lexeme.read_code {c : Char} (h : isCode c = true) (hName : isNameChar c = false)
    (context : Context) (t : Text) : Lexeme.read context c t = (.mark c, t) :=
  (Lexeme.Cuts.mark (of_decide_eq_true h) hName).read_eq

/-- Names, marks and braces are shown as they are as long as no more braces are closed
than are open. -/
theorem StartsAs.nested {s : Text} {previous : Option Char} {count last : Int} {braces : Option Nat}
    (hChars : ∀ c ∈ s, isCode c = true) (hCount : 0 ≤ count)
    (hOpen : openAfter? isBrace previous count s = some last)
    (hBraces : ∀ n ∈ braces, count ≤ (n : Int)) (t : Text) : StartsAs braces (s ++ t) s := by
  induction s generalizing previous count braces with
  | nil => exact .nil braces t
  | cons c s ih =>
    obtain ⟨hc, hLater⟩ := List.forall_mem_cons.mp hChars
    obtain ⟨hNonneg, hRest⟩ := Text.openAfter?_cons.mp hOpen
    cases hName : isNameChar c with
    | true =>
      have hStep : Text.kindNesting isBrace previous c = 0 := by
        rw [Text.kindNesting, (Text.isBracket_cases (Text.isBracket_of_isNameChar hName)).2.2,
          if_neg Bool.false_ne_true]
      rw [hStep, Int.add_zero] at hRest
      exact (ih hLater hCount hRest hBraces).name hName
    | false =>
      by_cases hOpening : c = '{'
      · subst hOpening
        have hStep : Text.kindNesting isBrace previous '{' = 1 := rfl
        refine .mark (fun context => Lexeme.read_code hc hName context _) hName (by simp)
          (ih hLater hNonneg hRest ?_)
        intro n hn
        obtain ⟨m, hm, rfl⟩ := Option.map_eq_some_iff.mp hn
        have hMore := hBraces m hm
        omega
      by_cases hClosing : c = '}'
      · subst hClosing
        have hStep : Text.kindNesting isBrace previous '}' = -1 := rfl
        refine .mark (fun context => Lexeme.read_code hc hName context _) hName ?_
          (ih hLater hNonneg hRest ?_)
        · rintro ⟨-, rfl⟩
          have hMore := hBraces 0 rfl
          omega
        · intro n hn
          obtain ⟨m, hm, rfl⟩ := Option.map_eq_some_iff.mp hn
          have hMore := hBraces m hm
          omega
      · have hStep : Text.kindNesting isBrace previous c = 0 :=
          if_neg (by simp [isBrace, hOpening, hClosing])
        rw [hStep, Int.add_zero] at hRest
        refine .mark (fun context => Lexeme.read_code hc hName context _) hName
          (fun hEnd => hClosing hEnd.1) ?_
        rw [bracesAfter, if_neg hOpening, if_neg hClosing]
        exact ih hLater hCount hRest hBraces

/-! ## Behind a brace -/

theorem LexemeAt.exists_passes {reader : Text → Text → Prop} {t : Text} {offset start : Nat}
    {lexeme : Lexeme} (h : LexemeAt reader t offset start lexeme) (hLiteral : lexeme ≠ .backtick) :
    ∃ first shown context braces rest,
      t = first ++ rest ∧ offset + first.length = start + lexeme.text.length ∧
      Passes reader (Code.Shows context (lexeme.bracesAfter braces)) first shown rest := by
  obtain ⟨before, shown, context, braces, c, s, rest, rfl, rfl, hRead, hGoesOn, hPasses⟩ := h
  have hText := Lexeme.text_append hRead
  rw [← hText] at hPasses ⊢
  refine ⟨before ++ lexeme.text, shown ++ lexeme.mask, lexeme.after context, braces, rest, ?_, ?_,
    hPasses.trans (.lexeme hRead hLiteral hGoesOn)⟩
  · rw [List.append_assoc]
  · rw [List.length_append, Nat.add_assoc]

/-- The mask shows a brace only at the end of a lexeme. -/
theorem Lexeme.length_of_shown_brace {context : Context} {a : Char} {s rest : Text}
    {lexeme : Lexeme} {i : Nat} (hRead : Lexeme.read context a s = (lexeme, rest))
    (hShown : lexeme.mask[i]? = some '{') : lexeme ≠ .backtick ∧ lexeme.text.length = i + 1 := by
  cases lexeme with
  | comment text => exact absurd hShown (getElem?_map_hide_ne (by decide) i)
  | quoted text =>
    obtain ⟨body, hBody, -⟩ := Lexeme.text_of_read hRead
    obtain rfl : text = a :: body := hBody
    have hQuote : '{' ≠ a := by
      rintro rfl
      rw [Lexeme.read_openingBrace] at hRead
      cases hRead
    obtain ⟨-, rfl⟩ := eq_of_getElem?_maskQuoted (by decide) hQuote hShown
    exact ⟨by simp, rfl⟩
  | regex text =>
    obtain ⟨body, hBody, -⟩ := Lexeme.text_of_read hRead
    obtain rfl : text = a :: body := hBody
    cases i with
    | zero =>
      obtain rfl : a = '{' := Option.some.inj hShown
      rw [Lexeme.read_openingBrace] at hRead
      cases hRead
    | succ i => exact absurd hShown (getElem?_map_hide_ne (by decide) i)
  | backtick =>
    cases i with
    | zero => exact absurd (Option.some.inj hShown) (by decide)
    | succ i => cases hShown
  | word name =>
    have hName := Lexeme.isNameChar_of_read_word hRead '{' (List.mem_of_getElem? hShown)
    exact absurd hName (by decide)
  | mark b =>
    cases i with
    | zero => exact ⟨by simp, rfl⟩
    | succ i => cases hShown

theorem exists_passes_of_brace {text : Text} {offset : Nat}
    (h : (Code.ofText text).mask[offset]? = some '{') :
    ∃ first shown context braces rest, text = first ++ rest ∧ first.length = offset + 1 ∧
      Passes (Code.Shows .start none) (Code.Shows context braces) first shown rest := by
  obtain ⟨start, lexeme, i, hAt, rfl, hShown⟩ := Text.exists_lexemeAt_of_shown (by decide) h
  obtain ⟨_, _, _, _, c, s, later, _, _, hRead, _, _⟩ := id hAt
  obtain ⟨hLiteral, hLength⟩ := Lexeme.length_of_shown_brace hRead hShown
  obtain ⟨first, shown, context, braces, rest, hText, hEnd, hPasses⟩ := hAt.exists_passes hLiteral
  exact ⟨first, shown, context, _, rest, hText, by omega, hPasses⟩

theorem exists_passes_of_mark {text : Text} {offset : Nat}
    (h : (offset, .mark '{') ∈ text.lexemes) :
    ∃ first shown context braces rest, text = first ++ rest ∧ first.length = offset + 1 ∧
      (∀ n : Nat, n ∈ braces → (1 : Int) ≤ n) ∧
      Passes (Code.Shows .start none) (Code.Shows context braces) first shown rest := by
  obtain ⟨first, shown, context, braces, rest, hText, hEnd, hPasses⟩ :=
    (Text.lexemeAt h).exists_passes (by simp)
  refine ⟨first, shown, context, _, rest, hText, by simpa [Lexeme.text] using hEnd, ?_, hPasses⟩
  intro n hn
  obtain ⟨m, -, rfl⟩ := Option.map_eq_some_iff.mp hn
  omega

/-! ## Bodies -/

/-- Where a reader that passes the text in front begins with a mask, the mask of the
text goes on with it. -/
theorem exists_mask_of_passes {first shown rest s : Text} {context : Context} {braces : Option Nat}
    (hPasses : Passes (Code.Shows .start none) (Code.Shows context braces) first shown rest)
    (hRest : rest ≠ []) (h : StartsAs braces rest s) :
    ∃ tail, (Code.ofText (first ++ rest)).mask.drop first.length = s ++ tail := by
  obtain ⟨tail, hShows⟩ := h.shows context
  obtain ⟨c, rest, rfl⟩ := List.exists_cons_of_ne_nil hRest
  obtain ⟨tail', hShows⟩ := hPasses.shows _ _ (.cons c rest rest) hShows
  refine ⟨tail ++ tail', ?_⟩
  rw [hShows.ofText_mask, ← hPasses.length_eq, List.drop_left, List.append_assoc]

variable {text body rest : Text} {offset : Nat}

/-- Behind a brace that the mask shows, a text that closes its braces is shown as it stands. -/
theorem exists_body_of_brace (h : (Code.ofText text).mask[offset]? = some '{')
    (hText : text.drop (offset + 1) = body ++ '}' :: rest) (hChars : ∀ c ∈ body, isCode c = true)
    (hBraces : Text.ClosesKind isBrace body) :
    ∃ tail,
      (Code.ofText text).mask.drop (offset + 1) = body ++ tail := by
  obtain ⟨first, shown, context, braces, later, rfl, hLength, hPasses⟩ := exists_passes_of_brace h
  rw [← hLength] at hText ⊢
  rw [List.drop_left] at hText
  subst hText
  exact exists_mask_of_passes hPasses (by simp)
    (.nested hChars (Int.le_refl 0) hBraces (fun n _ => by omega) _)

theorem exists_body_of_mark (h : (offset, .mark '{') ∈ text.lexemes)
    (hText : text.drop (offset + 1) = body ++ '}' :: rest) (hChars : ∀ c ∈ body, isCode c = true)
    (hBraces : Text.ClosesKind isBrace body) :
    ∃ tail, (Code.ofText text).mask.drop (offset + 1) = body ++ '}' :: tail := by
  obtain ⟨first, shown, context, braces, later, rfl, hLength, hMore, hPasses⟩ :=
    exists_passes_of_mark h
  rw [← hLength] at hText ⊢
  rw [List.drop_left] at hText
  subst hText
  have hOpen : openAfter? isBrace none 1 (body ++ ['}']) = some 0 :=
    Text.openAfter?_append rfl (Text.openAfter?_add rfl Int.one_nonneg hBraces)
      (show openAfter? isBrace none 1 ['}'] = some 0 from rfl)
  have hStarts : StartsAs braces (body ++ '}' :: rest) (body ++ ['}']) := by
    have hNested :=
      StartsAs.nested (List.forall_mem_append.mpr ⟨hChars, List.forall_mem_singleton.mpr rfl⟩)
      Int.one_nonneg hOpen hMore rest
    rwa [List.append_assoc] at hNested
  obtain ⟨tail, hMask⟩ := exists_mask_of_passes hPasses (by simp) hStarts
  exact ⟨tail, by rw [hMask, List.append_assoc, List.singleton_append]⟩

namespace ClassDeclaration

/-- The count of open braces goes on behind a text that closes its own. -/
theorem braceStopFrom_append {previous : Option Char} {count last : Int} {s : Text}
    (hCount : 0 ≤ count) (h : openAfter? isBrace previous count s = some last) (offset : Nat)
    (t : Text) :
    braceStopFrom (1 + count) offset (s ++ t) = braceStopFrom (1 + last) (offset + s.length) t := by
  induction s generalizing previous count offset with
  | nil =>
    obtain rfl := Option.some.inj h
    rfl
  | cons c s ih =>
    obtain ⟨hNonneg, hRest⟩ := Text.openAfter?_cons.mp h
    have hLength : offset + (c :: s).length = offset + 1 + s.length := by
      rw [List.length_cons]
      omega
    rw [List.cons_append, hLength, ← ih hNonneg hRest, braceStopFrom]
    split_ifs with hOpening hClosing hLast
    · subst hOpening
      exact congrArg (braceStopFrom · _ _) (Int.add_assoc 1 count 1)
    · subst hClosing
      have hStep : Text.kindNesting isBrace previous '}' = -1 := rfl
      omega
    · subst hClosing
      exact congrArg (braceStopFrom · _ _) (Int.add_assoc 1 count (-1))
    · have hStep : Text.kindNesting isBrace previous c = 0 :=
        if_neg (by simp [isBrace, hOpening, hClosing])
      rw [hStep, Int.add_zero]

theorem braceStop_of_body {mask : Text} (h : mask[offset]? = some '{')
    (hMask : mask.drop (offset + 1) = body ++ '}' :: rest)
    (hBraces : Text.ClosesKind isBrace body) :
    braceStop mask offset = offset + body.length + 2 := by
  rw [braceStop_eq h, hMask]
  have hStop := braceStopFrom_append (Int.le_refl 0) hBraces (offset + 1) ('}' :: rest)
  rw [Int.add_zero] at hStop
  rw [hStop, braceStopFrom, if_neg (by decide), if_pos rfl, if_pos rfl]
  omega

end ClassDeclaration

end TemplateCheck
