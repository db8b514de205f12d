import TemplateCheck.Proofs.Source.Hiding
import TemplateCheck.Proofs.Source.Lexemes

/-!
# How lexing comes to a place

The mask of a text from a place on depends on what the lexer knows when it comes there: the context
and the braces open in a hole, or that it is in a template literal. `Passes` says that a reader
comes past a piece of text, shows something of the same length for it and goes on as another reader,
whatever follows that resembles what follows now.

1. Every piece of code and every character of a literal is passed in one step, into or out of a
   hole as well.
2. Steps are put together (`Passes.trans`), so the reader that comes to a lexeme is found by
   induction over the pieces in front of it (`Code.Reads.lexemeAt`).
3. A character that neither stands for a hidden one nor ends a template literal is part of a lexeme
   where the mask shows it (`Text.exists_lexemeAt_of_shown`).
-/

namespace TemplateCheck

/-! ## Single lexemes -/

namespace Lexeme

/-- What the mask shows of a lexeme. -/
def mask : Lexeme → Text
  | comment text => text.map Text.hide
  | quoted text => maskQuoted text
  | regex text => maskRegex text
  | backtick => ['`']
  | word name => name
  | mark c => [c]

/-- The context after a lexeme. -/
def after (context : Context) : Lexeme → Context
  | comment _ => context
  | quoted text => ⟨text.head?, []⟩
  | regex _ => ⟨some '/', []⟩
  | backtick => ⟨some '`', []⟩
  | word name => ⟨name.getLast?, name⟩
  | mark c => context.afterMark c

/-- The braces open in a hole after a lexeme. -/
def bracesAfter (braces : Option Nat) : Lexeme → Option Nat
  | mark c => TemplateCheck.bracesAfter braces c
  | _ => braces

theorem length_mask (lexeme : Lexeme) : lexeme.mask.length = lexeme.text.length := by
  cases lexeme with
  | comment text => exact List.length_map Text.hide
  | quoted text => exact (Masks.maskQuoted text).length_eq
  | regex text => exact (Masks.maskRegex text).length_eq
  | backtick => rfl
  | word name => rfl
  | mark c => rfl

end Lexeme

/-! ## What a reader shows -/

/-- Lexing a text as code shows a mask of what it reads. -/
def Code.Shows (context : Context) (braces : Option Nat) (t mask : Text) : Prop :=
  ∃ code u, Code.Reads context braces t code u ∧ code.mask = mask

/-- Lexing a text as the inside of a template literal shows a mask of what it reads. -/
def Literal.Shows (t mask : Text) : Prop := ∃ body u, Literal.Reads t body u ∧ body.mask = mask

theorem Code.exists_shows (context : Context) (braces : Option Nat) (t : Text) :
    ∃ mask, Code.Shows context braces t mask :=
  ⟨_, _, _, Code.reads_read context braces (Nat.le_refl t.length), rfl⟩

theorem Literal.exists_shows (t : Text) : ∃ mask, Literal.Shows t mask :=
  ⟨_, _, _, (reads_read_both t.length).2 t (Nat.le_refl _), rfl⟩

theorem Code.Shows.ofText_mask {t mask : Text} (h : Code.Shows .start none t mask) :
    (Code.ofText t).mask = mask := by
  obtain ⟨code, u, hReads, rfl⟩ := h
  rcases hReads.stops with rfl | ⟨hHole, -⟩
  · rw [hReads.ofText_eq]
  · cases hHole

theorem Code.Shows.lexeme {context : Context} {braces : Option Nat} {c : Char} {t u mask : Text}
    {lexeme : Lexeme} (hRead : Lexeme.read context c t = (lexeme, u))
    (hLiteral : lexeme ≠ .backtick) (hGoesOn : ¬ (lexeme = .mark '}' ∧ braces = some 0))
    (h : Code.Shows (lexeme.after context) (lexeme.bracesAfter braces) u mask) :
    Code.Shows context braces (c :: t) (lexeme.mask ++ mask) := by
  obtain ⟨code, v, hReads, rfl⟩ := h
  cases lexeme with
  | comment text => exact ⟨.comment text code, v, .comment hRead hReads, rfl⟩
  | quoted text =>
    obtain ⟨body, hText, -⟩ := Lexeme.text_of_read hRead
    obtain rfl : text = c :: body := hText
    exact ⟨.quoted _ code, v, .quoted hRead hReads, rfl⟩
  | regex text => exact ⟨.regex text code, v, .regex hRead hReads, rfl⟩
  | backtick => exact absurd rfl hLiteral
  | word name => exact ⟨.word name code, v, .word hRead hReads, rfl⟩
  | mark d =>
    have hEnd : ¬ (d = '}' ∧ braces = some 0) := fun hd => hGoesOn ⟨by rw [hd.1], hd.2⟩
    exact ⟨.mark d code, v, .mark hRead hEnd hReads, rfl⟩

/-! ## Passing a piece of text -/

/-- Before a text that resembles `rest`, the reader `first` passes `passed`, shows `shown` in its
place and goes on as the reader `next`. -/
structure Passes (first next : Text → Text → Prop) (passed shown rest : Text) : Prop where
  length_eq : shown.length = passed.length
  shows : ∀ t mask, Resembles rest t → next t mask →
    ∃ tail, first (passed ++ t) (shown ++ (mask ++ tail))

namespace Passes

variable {first next last : Text → Text → Prop} {context : Context} {braces : Option Nat}
  {passed shown passed' shown' rest t u : Text}

theorem refl (first : Text → Text → Prop) (rest : Text) : Passes first first [] [] rest where
  length_eq := rfl
  shows t mask _ h := ⟨[], by rwa [List.append_nil]⟩

theorem trans (h : Passes first next passed shown (passed' ++ rest))
    (h' : Passes next last passed' shown' rest) :
    Passes first last (passed ++ passed') (shown ++ shown') rest where
  length_eq := by rw [List.length_append, List.length_append, h.length_eq, h'.length_eq]
  shows t mask hRest hLast := by
    obtain ⟨tail', hNext⟩ := h'.shows t mask hRest hLast
    obtain ⟨tail, hFirst⟩ := h.shows (passed' ++ t) _ (hRest.append passed') hNext
    refine ⟨tail' ++ tail, ?_⟩
    simpa only [List.append_assoc] using hFirst

theorem lexeme {c : Char} {lexeme : Lexeme} (hRead : Lexeme.read context c t = (lexeme, u))
    (hLiteral : lexeme ≠ .backtick) (hGoesOn : ¬ (lexeme = .mark '}' ∧ braces = some 0)) :
    Passes (Code.Shows context braces)
      (Code.Shows (lexeme.after context) (lexeme.bracesAfter braces))
      lexeme.text lexeme.mask u where
  length_eq := lexeme.length_mask
  shows v mask hv h := by
    obtain ⟨body, hText, -, hAlike⟩ := Lexeme.exists_read_of_resembles hRead
    refine ⟨[], ?_⟩
    rw [hText, List.append_nil]
    exact Code.Shows.lexeme (hAlike v hv) hLiteral hGoesOn h

theorem literal {body : Literal} (context : Context) (braces : Option Nat)
    (hReads : Literal.Reads t body u) :
    Passes (Code.Shows context braces) (Code.Shows ⟨some '`', []⟩ braces)
      ('`' :: body.source) ('`' :: body.mask) u where
  length_eq := by rw [List.length_cons, List.length_cons, body.length_mask]
  shows v mask hv h := by
    obtain ⟨code, w, hCode, rfl⟩ := h
    refine ⟨[], .literal body code, w, ?_, ?_⟩
    · have hBody := hReads.sourceBefore_of_resembles hv
      rw [body.sourceBefore_eq] at hBody
      exact .literal (Lexeme.read_backtick context _) hBody hCode
    · rw [List.append_nil, Code.mask, List.cons_append]

theorem opening (context : Context) (braces : Option Nat) (rest : Text) :
    Passes (Code.Shows context braces) Literal.Shows ['`'] ['`'] rest where
  length_eq := rfl
  shows v mask _ h := by
    obtain ⟨body, w, hBody, rfl⟩ := h
    obtain ⟨tail, code, w', hCode, rfl⟩ := Code.exists_shows ⟨some '`', []⟩ braces w
    exact ⟨code.mask, .literal body code, w',
      .literal (Lexeme.read_backtick context _) hBody hCode, rfl⟩

theorem escape (c : Char) (rest : Text) :
    Passes Literal.Shows Literal.Shows ['\\', c] [' ', Text.hide c] rest where
  length_eq := rfl
  shows v mask _ h := by
    obtain ⟨body, w, hBody, rfl⟩ := h
    exact ⟨[], .escape c body, w, .escape c hBody, by rw [List.append_nil]; rfl⟩

theorem char {c : Char} (hClose : c ≠ '`') (hEscape : c ≠ '\\')
    (hHole : ¬ (c = '$' ∧ t.head? = some '{')) :
    Passes Literal.Shows Literal.Shows [c] [Text.hide c] t where
  length_eq := rfl
  shows v mask hv h := by
    obtain ⟨body, w, hBody, rfl⟩ := h
    refine ⟨[], .char c body, w, .char hClose hEscape ?_ hBody, by rw [List.append_nil]; rfl⟩
    rintro ⟨hc, hHead⟩
    exact hHole ⟨hc, hv.head?_of_ne hHead (by decide)⟩

theorem hole {code : Code} (hReads : Code.Reads .start (some 0) t code ('}' :: u)) :
    Passes Literal.Shows Literal.Shows ('$' :: '{' :: (code.source ++ ['}']))
      (' ' :: ' ' :: (code.mask ++ [' ']))
      u where
  length_eq := by
    simp only [List.length_cons, List.length_append, code.length_mask]
  shows v mask hv h := by
    obtain ⟨body, w, hBody, rfl⟩ := h
    refine ⟨[], .hole code body, w, ?_, ?_⟩
    · have hCode := hReads.sourceBefore_of_resembles (.cons '}' u v)
      rw [code.sourceBefore_eq] at hCode
      have hHole := Literal.Reads.hole hCode hBody
      simpa only [List.cons_append, List.append_assoc, List.nil_append] using hHole
    · simp only [Literal.mask, List.cons_append, List.append_assoc, List.nil_append,
        List.append_nil]

theorem enter (rest : Text) :
    Passes Literal.Shows (Code.Shows .start (some 0)) ['$', '{'] [' ', ' '] rest where
  length_eq := rfl
  shows v mask _ h := by
    obtain ⟨code, w, hCode, rfl⟩ := h
    rcases hCode.stops with rfl | ⟨-, w, rfl⟩
    · exact ⟨[], .cutHole code, [], .cutHole hCode, by rw [List.append_nil]; rfl⟩
    · obtain ⟨mask, body, u, hBody, rfl⟩ := Literal.exists_shows w
      exact ⟨' ' :: body.mask, .hole code body, u, .hole hCode hBody, rfl⟩

end Passes

/-! ## Where the lexemes are read -/

/-- The reader comes in the text `t`, which stands at `offset`, to a lexeme that stands
at `start`. -/
def LexemeAt (reader : Text → Text → Prop) (t : Text) (offset start : Nat) (lexeme : Lexeme) :
    Prop :=
  ∃ before shown context braces c s rest, t = before ++ c :: s ∧ start = offset + before.length ∧
    Lexeme.read context c s = (lexeme, rest) ∧ ¬ (lexeme = .mark '}' ∧ braces = some 0) ∧
    Passes reader (Code.Shows context braces) before shown (c :: s)

theorem LexemeAt.append {reader next : Text → Text → Prop} {passed shown t : Text}
    {offset start : Nat} {lexeme : Lexeme}
    (h : LexemeAt next t (offset + passed.length) start lexeme)
    (hPasses : Passes reader next passed shown t) :
    LexemeAt reader (passed ++ t) offset start lexeme := by
  obtain ⟨before, shown', context, braces, c, s, rest, rfl, hStart, hRead, hGoesOn, hNext⟩ := h
  refine ⟨passed ++ before, shown ++ shown', context, braces, c, s, rest, ?_, ?_, hRead, hGoesOn,
    hPasses.trans hNext⟩
  · rw [List.append_assoc]
  · rw [hStart, List.length_append, Nat.add_assoc]

theorem LexemeAt.cons {context : Context} {braces : Option Nat} {c : Char} {t u : Text}
    {lexeme lexeme' : Lexeme} {offset start : Nat} {later : List (Nat × Lexeme)}
    (hRead : Lexeme.read context c t = (lexeme, u)) (hLiteral : lexeme ≠ .backtick)
    (hGoesOn : ¬ (lexeme = .mark '}' ∧ braces = some 0))
    (hLater : (start, lexeme') ∈ later →
      LexemeAt (Code.Shows (lexeme.after context) (lexeme.bracesAfter braces)) u
      (offset + lexeme.text.length) start lexeme')
    (h : (start, lexeme') ∈ (offset, lexeme) :: later) :
    LexemeAt (Code.Shows context braces) (c :: t) offset start lexeme' := by
  rcases List.mem_cons.mp h with hHere | h
  · obtain ⟨rfl, rfl⟩ := Prod.mk.inj hHere
    exact ⟨[], [], context, braces, c, t, u, rfl, rfl, hRead, hGoesOn, .refl _ _⟩
  · rw [← Lexeme.text_append hRead]
    exact (hLater h).append (.lexeme hRead hLiteral hGoesOn)

mutual

/-- The lexer comes to each of the lexemes that it reads. -/
theorem Code.Reads.lexemeAt {context : Context} {braces : Option Nat} {t u : Text} {code : Code}
    {start : Nat} {lexeme : Lexeme} :
    Code.Reads context braces t code u →
    ∀ {offset : Nat},
      (start, lexeme) ∈ code.lexemesFrom offset →
      LexemeAt (Code.Shows context braces) t offset start lexeme
  | .done _ _, _, h => by cases h
  | .stop _ _, _, h => by cases h
  | .comment hRead later, _, h =>
    .cons hRead (by simp) (by simp) (fun h => later.lexemeAt h) h
  | .quoted (c := c) hRead later, _, h => by
    refine .cons hRead (by simp) (by simp) (fun h => ?_) h
    obtain ⟨body, hText, -⟩ := Lexeme.text_of_read hRead
    obtain rfl : _ = c :: body := hText
    exact later.lexemeAt h
  | .regex hRead later, _, h =>
    .cons hRead (by simp) (by simp) (fun h => later.lexemeAt h) h
  | .word hRead later, _, h =>
    .cons hRead (by simp) (by simp) (fun h => later.lexemeAt h) h
  | .mark hRead goesOn later, _, h =>
    .cons hRead (by simp) (by simpa using goesOn) (fun h => later.lexemeAt h) h
  | @Code.Reads.literal _ _ c _ _ _ _ body _ hRead inside later, offset, h => by
    obtain ⟨_, hText, rfl⟩ := Lexeme.text_of_read hRead
    obtain ⟨rfl, rfl⟩ := List.cons.inj hText
    rcases List.mem_cons.mp h with hHere | h
    · obtain ⟨rfl, rfl⟩ := Prod.mk.inj hHere
      exact ⟨[], [], context, braces, _, _, _, rfl, rfl, hRead, by simp, .refl _ _⟩
    · rcases List.mem_append.mp h with hInside | hLater
      · exact (inside.lexemeAt hInside).append (.opening context braces _)
      · have hAt := later.lexemeAt hLater
        rw [Nat.add_assoc, Nat.add_comm 1] at hAt
        have hPasses := LexemeAt.append hAt (.literal context braces inside)
        rwa [List.cons_append, ← body.sourceBefore_eq, inside.sourceBefore_eq] at hPasses

theorem Literal.Reads.lexemeAt {t u : Text} {body : Literal} {start : Nat} {lexeme : Lexeme} :
    Literal.Reads t body u → ∀ {offset : Nat}, (start, lexeme) ∈ body.lexemesFrom offset →
      LexemeAt Literal.Shows t offset start lexeme
  | .cut, _, h => by cases h
  | .close _, _, h => by cases h
  | .lastBackslash, _, h => by cases h
  | .escape c later, _, h => (later.lexemeAt h).append (.escape c _)
  | .char noClose noEscape noHole later, _,
      h => (later.lexemeAt h).append (.char noClose noEscape noHole)
  | .cutHole inside, _, h => (inside.lexemeAt h).append (.enter _)
  | @Literal.Reads.hole _ _ _ code _ inside later, offset, h => by
    rcases List.mem_append.mp h with hInside | hLater
    · exact (inside.lexemeAt hInside).append (.enter _)
    · have hAt := later.lexemeAt hLater
      have hLength : ('$' :: '{' :: (code.source ++ ['}'])).length =
        2 + code.source.length + 1 := by
        simp only [List.length_cons, List.length_append, List.length_nil]
        omega
      rw [Nat.add_assoc, Nat.add_assoc, ← Nat.add_assoc 2, ← hLength] at hAt
      have hPasses := hAt.append (.hole inside)
      have hText := inside.sourceBefore_eq
      rw [code.sourceBefore_eq] at hText
      rw [← hText]
      simpa only [List.cons_append, List.append_assoc, List.nil_append] using hPasses

end

theorem Text.lexemeAt {t : Text} {start : Nat} {lexeme : Lexeme} (h : (start, lexeme) ∈ t.lexemes) :
    LexemeAt (Code.Shows .start none) t 0 start lexeme :=
  (Code.reads_ofText t).lexemeAt h

/-! ## What is shown belongs to a lexeme -/

/-- A lexeme among those of a list shows the character at an offset. -/
def ShownAt (lexemes : List (Nat × Lexeme)) (offset : Nat) (c : Char) : Prop :=
  ∃ start lexeme i, (start, lexeme) ∈ lexemes ∧ start + i = offset ∧ lexeme.mask[i]? = some c

theorem ShownAt.mono {lexemes lexemes' : List (Nat × Lexeme)} {offset : Nat} {c : Char}
    (h : ShownAt lexemes offset c) (hSubset : lexemes ⊆ lexemes') : ShownAt lexemes' offset c := by
  obtain ⟨start, lexeme, i, hMem, hOffset, hShown⟩ := h
  exact ⟨start, lexeme, i, hSubset hMem, hOffset, hShown⟩

theorem ShownAt.append {lexemes later : List (Nat × Lexeme)} {mask mask' : Text}
    {offset place : Nat} {c : Char}
    (hFirst : ∀ i, mask[i]? = some c → ShownAt lexemes (offset + i) c)
    (hLater : ∀ i, mask'[i]? = some c → ShownAt later (offset + mask.length + i) c)
    (h : (mask ++ mask')[place]? = some c) : ShownAt (lexemes ++ later) (offset + place) c := by
  rcases Nat.lt_or_ge place mask.length with hHere | hBehind
  · rw [List.getElem?_append_left hHere] at h
    exact (hFirst place h).mono (List.subset_append_left _ _)
  · rw [List.getElem?_append_right hBehind] at h
    have hShown := hLater _ h
    rw [Nat.add_assoc, Nat.add_sub_cancel' hBehind] at hShown
    exact hShown.mono (List.subset_append_right _ _)

/-- The character is shown by the first lexeme, or behind it. -/
theorem ShownAt.cons {lexeme : Lexeme} {later : List (Nat × Lexeme)} {mask : Text}
    {offset place : Nat} {c : Char}
    (hLater : ∀ i, mask[i]? = some c → ShownAt later (offset + lexeme.text.length + i) c)
    (h : (lexeme.mask ++ mask)[place]? = some c) :
    ShownAt ((offset, lexeme) :: later) (offset + place) c := by
  rw [← lexeme.length_mask] at hLater
  exact ShownAt.append
    (fun i hShown => ⟨offset, lexeme, i, List.mem_singleton_self _, rfl, hShown⟩) hLater h

/-- Whether the mask can show the character only as part of a lexeme: it does not stand for a hidden
one, and it does not end a template literal. -/
def isInk (c : Char) : Bool := c ∉ [' ', '\n', '\r', '`']

theorem isInk_hide (c : Char) : isInk (Text.hide c) = false := by
  rcases hide_cases c with h | h | h <;> rw [h] <;> decide

theorem isInk_of_isNameChar {c : Char} (h : isNameChar c = true) : isInk c = true :=
  decide_eq_true (not_mem_of_class h (by decide))

theorem exists_getElem?_of_cons {c d : Char} (hc : isInk c = true) (hd : isInk d = false)
    {mask : Text} {place : Nat} (h : (d :: mask)[place]? = some c) :
    ∃ i, place = i + 1 ∧ mask[i]? = some c := by
  cases place with
  | zero => exact absurd (Option.some.inj h).symm (ne_of_class hc hd)
  | succ i => exact ⟨i, rfl, h⟩

mutual

/-- A character that the mask can show only as part of a lexeme is part of one where the
mask shows it. -/
theorem Code.shownAt {c : Char} (hc : isInk c = true) : (code : Code) → ∀ {offset place : Nat},
    code.mask[place]? = some c → ShownAt (code.lexemesFrom offset) (offset + place) c
  | .done, _, _, h => by cases h
  | .mark _ rest, _, _, h => .cons (fun _ h => rest.shownAt hc h) h
  | .word _ rest, _, _, h => .cons (fun _ h => rest.shownAt hc h) h
  | .comment _ rest, _, _, h => .cons (fun _ h => rest.shownAt hc h) h
  | .quoted _ rest, _, _, h => .cons (fun _ h => rest.shownAt hc h) h
  | .regex _ rest, _, _, h => .cons (fun _ h => rest.shownAt hc h) h
  | .literal body rest, offset, place, h => by
    have hBehind (i : Nat) (h : (body.mask ++ rest.mask)[i]? = some c) :
        ShownAt (body.lexemesFrom (offset + 1) ++
          rest.lexemesFrom (offset + 1 + body.source.length))
          (offset + 1 + i) c := by
      refine ShownAt.append (fun _ h => body.shownAt hc h) (fun _ h => ?_) h
      rw [body.length_mask]
      exact rest.shownAt hc h
    exact @ShownAt.cons .backtick _ _ offset place c hBehind h

/-- In a template literal, it is part of a lexeme in a hole. -/
theorem Literal.shownAt {c : Char} (hc : isInk c = true) : (body : Literal) →
    ∀ {offset place : Nat},
    body.mask[place]? = some c → ShownAt (body.lexemesFrom offset) (offset + place) c
  | .cut, _, _, h => by cases h
  | .close, _, _, h => by
    obtain ⟨_, -, h⟩ := exists_getElem?_of_cons hc (by decide) h
    cases h
  | .char d rest, offset, _, h => by
    obtain ⟨i, rfl, h⟩ := exists_getElem?_of_cons hc (isInk_hide d) h
    have hShown : ShownAt (rest.lexemesFrom (offset + 1)) (offset + 1 + i) c := rest.shownAt hc h
    rwa [Nat.add_assoc, Nat.add_comm 1] at hShown
  | .escape d rest, offset, _, h => by
    obtain ⟨_, rfl, h₁⟩ := exists_getElem?_of_cons hc (by decide) h
    obtain ⟨i, rfl, h₂⟩ := exists_getElem?_of_cons hc (isInk_hide d) h₁
    have hShown : ShownAt (rest.lexemesFrom (offset + 2)) (offset + 2 + i) c := rest.shownAt hc h₂
    rwa [Nat.add_assoc, Nat.add_comm 2] at hShown
  | .hole code rest, offset, _, h => by
    obtain ⟨_, rfl, h₁⟩ := exists_getElem?_of_cons hc (by decide) h
    obtain ⟨i, rfl, h₂⟩ := exists_getElem?_of_cons hc (by decide) h₁
    have hShown :
        ShownAt (code.lexemesFrom (offset + 2) ++
          rest.lexemesFrom (offset + 2 + code.source.length + 1))
        (offset + 2 + i) c := by
      refine ShownAt.append (fun _ h => code.shownAt hc h) (fun _ h => ?_) h₂
      obtain ⟨i, rfl, h⟩ := exists_getElem?_of_cons hc (by decide) h
      have hLater : ShownAt (rest.lexemesFrom (offset + 2 + code.source.length + 1))
          (offset + 2 + code.source.length + 1 + i) c := rest.shownAt hc h
      rwa [code.length_mask, Nat.add_comm i, ← Nat.add_assoc]
    rwa [Nat.add_assoc offset 2 i, Nat.add_comm 2] at hShown
  | .cutHole code, offset, _, h => by
    obtain ⟨_, rfl, h₁⟩ := exists_getElem?_of_cons hc (by decide) h
    obtain ⟨i, rfl, h₂⟩ := exists_getElem?_of_cons hc (by decide) h₁
    have hShown : ShownAt (code.lexemesFrom (offset + 2)) (offset + 2 + i) c := code.shownAt hc h₂
    rwa [Nat.add_assoc, Nat.add_comm 2] at hShown

end

/-- Where the mask of a text shows such a character, it is part of a lexeme to which the
lexer comes. -/
theorem Text.exists_lexemeAt_of_shown {t : Text} {offset : Nat} {c : Char} (hc : isInk c = true)
    (h : (Code.ofText t).mask[offset]? = some c) : ∃ start lexeme i,
      LexemeAt (Code.Shows .start none) t 0 start lexeme ∧ start + i = offset ∧
      lexeme.mask[i]? = some c := by
  have hAt : ShownAt t.lexemes (0 + offset) c := (Code.ofText t).shownAt hc h
  obtain ⟨start, lexeme, i, hMem, hOffset, hShown⟩ := hAt
  exact ⟨start, lexeme, i, Text.lexemeAt hMem, hOffset.trans (Nat.zero_add offset), hShown⟩

end TemplateCheck
