import TemplateCheck.Proofs.Text.Classes
import TemplateCheck.Source.Lexer

/-!
# What lexing gives

Lexing reads a whole text and loses nothing of it (`Code.source_ofText`), and the pieces that it
gives are cut where the text demands it (`Code.reads_ofText`).

1. `Lexeme.Cuts` says, one rule for each kind of lexeme, which lexeme a text begins with
   (`Lexeme.cuts_iff`). A lexeme and what follows it give the text back.
2. `Code.Reads` and `Literal.Reads` say, one rule for each piece, how a text is read into pieces and
   what is left after them. A literal character is neither a backtick, nor the dollar sign of a
   hole, nor a backslash with a character to guard, and nothing is cut before the end of the text.
3. With at least one piece allowed for every character, the reader follows these rules
   (`reads_read_both`): code stops only at the end of the text or before the brace that closes its
   hole.
4. The rules leave no choice: the pieces of a derivation are those that lexing gives
   (`Code.Reads.ofText_eq`).
-/

namespace TemplateCheck

/-! ## One lexeme -/

theorem blockCommentEnd_append (t : Text) :
    (blockCommentEnd t).1 ++ (blockCommentEnd t).2 = t := by
  fun_induction blockCommentEnd t <;> simp_all

theorem quotedEnd_append (quote : Char) (t : Text) :
    (quotedEnd quote t).1 ++ (quotedEnd quote t).2 = t := by
  fun_induction quotedEnd quote t <;> simp_all

theorem regexEnd_append (inClass : Bool) (t : Text) :
    (regexEnd inClass t).1 ++ (regexEnd inClass t).2 = t := by
  fun_induction regexEnd inClass t <;> simp_all

/-- The characters of a lexeme. -/
def Lexeme.text : Lexeme → Text
  | comment text => text
  | quoted text => text
  | regex text => text
  | backtick => ['`']
  | word name => name
  | mark c => [c]

theorem eq_cons_of_head? {t : Text} {c : Char} (h : t.head? = some c) : t = c :: t.tail := by
  cases t with
  | nil => cases h
  | cons d t => rw [Option.some.inj h, List.tail_cons]

/-- Which lexeme the text `c :: t` begins with, and what follows it. -/
inductive Lexeme.Cuts (context : Context) (c : Char) (t : Text) : Lexeme → Text → Prop
  | lineComment (slash : c = '/') (next : t.head? = some '/') :
      Lexeme.Cuts context c t (.comment (c :: t.takeWhile (· ≠ '\n'))) (t.dropWhile (· ≠ '\n'))
  | blockComment (slash : c = '/') (next : t.head? = some '*') :
      Lexeme.Cuts context c t (.comment (c :: '*' :: (blockCommentEnd t.tail).1))
        (blockCommentEnd t.tail).2
  | quoted (quote : c = '"' ∨ c = '\'') :
      Lexeme.Cuts context c t (.quoted (c :: (quotedEnd c t).1)) (quotedEnd c t).2
  | backtick (backtick : c = '`') : Lexeme.Cuts context c t .backtick t
  | regex (slash : c = '/') (next : ∀ d ∈ t.head?, d ≠ '/' ∧ d ≠ '*')
      (operand : context.expectsOperand = true) :
      Lexeme.Cuts context c t (.regex (c :: (regexEnd false t).1)) (regexEnd false t).2
  | word (name : isNameChar c = true) :
      Lexeme.Cuts context c t (.word (c :: t.takeWhile isNameChar)) (t.dropWhile isNameChar)
  | division (slash : c = '/') (next : ∀ d ∈ t.head?, d ≠ '/' ∧ d ≠ '*')
      (operator : context.expectsOperand = false) : Lexeme.Cuts context c t (.mark c) t
  | mark (plain : c ∉ ['"', '\'', '`', '/']) (noName : isNameChar c = false) :
      Lexeme.Cuts context c t (.mark c) t

theorem Lexeme.Cuts.read_eq {context : Context} {c : Char} {t u : Text} {lexeme : Lexeme}
    (h : Lexeme.Cuts context c t lexeme u) : Lexeme.read context c t = (lexeme, u) := by
  cases h with
  | lineComment slash next => rw [Lexeme.read, if_pos ⟨slash, next⟩]
  | blockComment slash next => rw [Lexeme.read, if_neg (by simp [next]), if_pos ⟨slash, next⟩]
  | quoted quote =>
    have hSlash : c ≠ '/' := by rcases quote with rfl | rfl <;> decide
    rw [Lexeme.read, if_neg fun h => hSlash h.1, if_neg fun h => hSlash h.1, if_pos quote]
  | backtick backtick =>
    subst backtick
    rfl
  | regex slash next operand =>
    subst slash
    rw [Lexeme.read, if_neg fun h => (next _ h.2).1 rfl, if_neg fun h => (next _ h.2).2 rfl,
      if_neg (by decide), if_neg (by decide), if_pos ⟨rfl, operand⟩]
  | word name =>
    have hOther : c ∉ ['"', '\'', '`', '/'] := not_mem_of_class name (by decide)
    simp only [List.mem_cons, List.not_mem_nil, or_false, not_or] at hOther
    simp [Lexeme.read, hOther, name]
  | division slash next operator =>
    subst slash
    rw [Lexeme.read, if_neg fun h => (next _ h.2).1 rfl, if_neg fun h => (next _ h.2).2 rfl,
      if_neg (by decide), if_neg (by decide), if_neg (by simp [operator]), if_neg (by decide)]
  | mark plain noName =>
    simp only [List.mem_cons, List.not_mem_nil, or_false, not_or] at plain
    simp [Lexeme.read, plain, noName]

theorem Lexeme.cuts_iff {context : Context} {c : Char} {t u : Text} {lexeme : Lexeme} :
    Lexeme.Cuts context c t lexeme u ↔ Lexeme.read context c t = (lexeme, u) := by
  refine ⟨Lexeme.Cuts.read_eq, fun h => ?_⟩
  unfold Lexeme.read at h
  split_ifs at h with hLine hBlock hQuote hBacktick hRegex hName <;>
    obtain ⟨rfl, rfl⟩ := Prod.mk.inj h
  · exact .lineComment hLine.1 hLine.2
  · exact .blockComment hBlock.1 hBlock.2
  · exact .quoted hQuote
  · exact .backtick hBacktick
  · refine .regex hRegex.1 (fun d hd => ⟨?_, ?_⟩) hRegex.2
    · exact fun h => hLine ⟨hRegex.1, h ▸ hd⟩
    · exact fun h => hBlock ⟨hRegex.1, h ▸ hd⟩
  · exact .word hName
  · by_cases hSlash : c = '/'
    · refine .division hSlash (fun d hd => ⟨?_, ?_⟩) (Bool.eq_false_iff.mpr fun h =>
        hRegex ⟨hSlash, h⟩)
      · exact fun h => hLine ⟨hSlash, h ▸ hd⟩
      · exact fun h => hBlock ⟨hSlash, h ▸ hd⟩
    · exact .mark (by simp [not_or.mp hQuote, hBacktick, hSlash]) (Bool.eq_false_iff.mpr hName)

theorem Lexeme.text_of_read {context : Context} {c : Char} {t u : Text} {lexeme : Lexeme}
    (h : Lexeme.read context c t = (lexeme, u)) :
    ∃ body, lexeme.text = c :: body ∧
    body ++ u = t := by
  cases Lexeme.cuts_iff.mpr h with
  | lineComment | word => exact ⟨_, rfl, List.takeWhile_append_dropWhile⟩
  | blockComment _ next =>
    refine ⟨'*' :: (blockCommentEnd t.tail).1, rfl, ?_⟩
    rw [List.cons_append, blockCommentEnd_append, ← eq_cons_of_head? next]
  | quoted => exact ⟨_, rfl, quotedEnd_append c t⟩
  | backtick backtick => exact ⟨[], by rw [backtick]; rfl, rfl⟩
  | regex => exact ⟨_, rfl, regexEnd_append false t⟩
  | division | mark => exact ⟨[], rfl, rfl⟩

theorem Lexeme.text_append {context : Context} {c : Char} {t u : Text} {lexeme : Lexeme}
    (h : Lexeme.read context c t = (lexeme, u)) : lexeme.text ++ u = c :: t := by
  obtain ⟨body, hText, rfl⟩ := Lexeme.text_of_read h
  rw [hText, List.cons_append]

theorem Lexeme.length_le {context : Context} {c : Char} {t u : Text} {lexeme : Lexeme}
    (h : Lexeme.read context c t = (lexeme, u)) : u.length ≤ t.length := by
  obtain ⟨body, -, rfl⟩ := Lexeme.text_of_read h
  rw [List.length_append]
  omega

/-! ## Derivations -/

mutual

/-- `Code.Reads context braces t code u` says that lexing cuts the pieces `code` off the text `t`
and stops before `u`. -/
inductive Code.Reads : Context → Option Nat → Text → Code → Text → Prop
  | done (context : Context) (braces : Option Nat) : Code.Reads context braces [] .done []
  | stop (context : Context) (t : Text) : Code.Reads context (some 0) ('}' :: t) .done ('}' :: t)
  | comment {context : Context} {braces : Option Nat} {c : Char} {t text u v : Text} {rest : Code}
      (lexeme : Lexeme.read context c t = (.comment text, u))
      (later : Code.Reads context braces u rest v) :
      Code.Reads context braces (c :: t) (.comment text rest) v
  | quoted {context : Context} {braces : Option Nat} {c : Char} {t text u v : Text} {rest : Code}
      (lexeme : Lexeme.read context c t = (.quoted text, u))
      (later : Code.Reads ⟨some c, []⟩ braces u rest v) :
      Code.Reads context braces (c :: t) (.quoted text rest) v
  | regex {context : Context} {braces : Option Nat} {c : Char} {t text u v : Text} {rest : Code}
      (lexeme : Lexeme.read context c t = (.regex text, u))
      (later : Code.Reads ⟨some '/', []⟩ braces u rest v) :
      Code.Reads context braces (c :: t) (.regex text rest) v
  | literal {context : Context} {braces : Option Nat} {c : Char} {t u v w : Text} {body : Literal}
      {rest : Code} (lexeme : Lexeme.read context c t = (.backtick, u))
      (inside : Literal.Reads u body v) (later : Code.Reads ⟨some '`', []⟩ braces v rest w) :
      Code.Reads context braces (c :: t) (.literal body rest) w
  | word {context : Context} {braces : Option Nat} {c : Char} {t name u v : Text} {rest : Code}
      (lexeme : Lexeme.read context c t = (.word name, u))
      (later : Code.Reads ⟨name.getLast?, name⟩ braces u rest v) :
      Code.Reads context braces (c :: t) (.word name rest) v
  | mark {context : Context} {braces : Option Nat} {c d : Char} {t u v : Text} {rest : Code}
      (lexeme : Lexeme.read context c t = (.mark d, u)) (goesOn : ¬ (d = '}' ∧ braces = some 0))
      (later : Code.Reads (context.afterMark d) (bracesAfter braces d) u rest v) :
      Code.Reads context braces (c :: t) (.mark d rest) v

/-- `Literal.Reads t body u` says that the template literal whose opening backtick stands before `t`
goes on with `body` and ends before `u`. -/
inductive Literal.Reads : Text → Literal → Text → Prop
  | cut : Literal.Reads [] .cut []
  | close (t : Text) : Literal.Reads ('`' :: t) .close t
  | lastBackslash : Literal.Reads ['\\'] (.char '\\' .cut) []
  | escape (c : Char) {t u : Text} {rest : Literal} (later : Literal.Reads t rest u) :
      Literal.Reads ('\\' :: c :: t) (.escape c rest) u
  | hole {t u v : Text} {code : Code} {rest : Literal}
      (inside : Code.Reads .start (some 0) t code ('}' :: u)) (later : Literal.Reads u rest v) :
      Literal.Reads ('$' :: '{' :: t) (.hole code rest) v
  | cutHole {t : Text} {code : Code} (inside : Code.Reads .start (some 0) t code []) :
      Literal.Reads ('$' :: '{' :: t) (.cutHole code) []
  | char {c : Char} {t u : Text} {rest : Literal} (noClose : c ≠ '`') (noEscape : c ≠ '\\')
      (noHole : ¬ (c = '$' ∧ t.head? = some '{')) (later : Literal.Reads t rest u) :
      Literal.Reads (c :: t) (.char c rest) u

end

/-- Induction on the derivation of a literal, for facts that say nothing about the code in its
holes. -/
@[elab_as_elim]
theorem Literal.Reads.induction {motive : ∀ t body u, Literal.Reads t body u → Prop}
    (cut : motive [] .cut [] .cut) (close : ∀ t, motive ('`' :: t) .close t (.close t))
    (lastBackslash : motive ['\\'] (.char '\\' .cut) [] .lastBackslash)
    (escape : ∀ c {t u rest} (later : Literal.Reads t rest u), motive t rest u later →
      motive ('\\' :: c :: t) (.escape c rest) u (.escape c later))
    (hole : ∀ {t u v code rest} (inside : Code.Reads .start (some 0) t code ('}' :: u))
      (later : Literal.Reads u rest v), motive u rest v later →
        motive ('$' :: '{' :: t) (.hole code rest) v (.hole inside later))
    (cutHole : ∀ {t code} (inside : Code.Reads .start (some 0) t code []),
      motive ('$' :: '{' :: t) (.cutHole code) [] (.cutHole inside))
    (char : ∀ {c t u rest} (noClose : c ≠ '`') (noEscape : c ≠ '\\')
      (noHole : ¬ (c = '$' ∧ t.head? = some '{')) (later : Literal.Reads t rest u),
        motive t rest u later →
        motive (c :: t) (.char c rest) u (.char noClose noEscape noHole later))
    {t : Text} {body : Literal} {u : Text} (h : Literal.Reads t body u) : motive t body u h := by
  -- The derivations of the code in the holes are mutual with those of the literal.
  refine @Literal.Reads.rec (fun _ _ _ _ _ _ => True) motive ?_ ?_ ?_ ?_ ?_ ?_ ?_ ?_ cut close
    lastBackslash escape (fun inside later _ ih => hole inside later ih)
    (fun inside _ => cutHole inside) char t body u h
  all_goals
    intros
    trivial

/-! ## Nothing is lost -/

mutual

/-- The pieces and what follows them give the text back. -/
theorem Code.Reads.sourceBefore_eq {context : Context} {braces : Option Nat} {t u : Text}
    {code : Code} : Code.Reads context braces t code u → code.sourceBefore u = t
  | .done _ _ => rfl
  | .stop _ _ => rfl
  | .comment lexeme later => by
    rw [Code.sourceBefore, later.sourceBefore_eq]
    exact Lexeme.text_append lexeme
  | .quoted lexeme later => by
    rw [Code.sourceBefore, later.sourceBefore_eq]
    exact Lexeme.text_append lexeme
  | .regex lexeme later => by
    rw [Code.sourceBefore, later.sourceBefore_eq]
    exact Lexeme.text_append lexeme
  | .literal lexeme inside later => by
    rw [Code.sourceBefore, later.sourceBefore_eq, inside.sourceBefore_eq]
    exact Lexeme.text_append lexeme
  | .word lexeme later => by
    rw [Code.sourceBefore, later.sourceBefore_eq]
    exact Lexeme.text_append lexeme
  | .mark lexeme _ later => by
    rw [Code.sourceBefore, later.sourceBefore_eq]
    exact Lexeme.text_append lexeme

theorem Literal.Reads.sourceBefore_eq {t u : Text} {body : Literal} :
    Literal.Reads t body u → body.sourceBefore u = t
  | .cut => rfl
  | .close _ => rfl
  | .lastBackslash => rfl
  | .escape c later => by rw [Literal.sourceBefore, later.sourceBefore_eq]
  | .hole inside later => by
    rw [Literal.sourceBefore, later.sourceBefore_eq, inside.sourceBefore_eq]
  | .cutHole inside => by rw [Literal.sourceBefore, inside.sourceBefore_eq]
  | .char _ _ _ later => by rw [Literal.sourceBefore, later.sourceBefore_eq]

end

theorem Code.Reads.length_le {context : Context} {braces : Option Nat} {t u : Text} {code : Code}
    (h : Code.Reads context braces t code u) : u.length ≤ t.length := by
  rw [← h.sourceBefore_eq, code.sourceBefore_eq, List.length_append]
  omega

theorem Literal.Reads.length_le {t u : Text} {body : Literal} (h : Literal.Reads t body u) :
    u.length ≤ t.length := by
  rw [← h.sourceBefore_eq, body.sourceBefore_eq, List.length_append]
  omega

theorem Code.Reads.source_eq {context : Context} {braces : Option Nat} {s u : Text} {code : Code}
    (h : Code.Reads context braces (s ++ u) code u) : code.source = s := by
  have hSource := h.sourceBefore_eq
  rw [code.sourceBefore_eq] at hSource
  exact List.append_cancel_right hSource

/-- A template literal has the text that was read. -/
theorem Literal.Reads.source_eq {s u : Text} {literal : Literal}
    (h : Literal.Reads (s ++ u) literal u) : literal.source = s := by
  have hSource := h.sourceBefore_eq
  rw [literal.sourceBefore_eq] at hSource
  exact List.append_cancel_right hSource

/-! ## Where reading stops -/

theorem isSome_bracesAfter (braces : Option Nat) (c : Char) :
    (bracesAfter braces c).isSome = braces.isSome := by
  unfold bracesAfter
  split_ifs <;> simp

/-- Code stops at the end of the text or, in a hole, before a brace that closes it. -/
theorem Code.Reads.stops {context : Context} {braces : Option Nat} {t u : Text} {code : Code} :
    Code.Reads context braces t code u →
      u = [] ∨ braces.isSome = true ∧ ∃ v, u = '}' :: v
  | .done _ _ => .inl rfl
  | .stop _ t => .inr ⟨rfl, t, rfl⟩
  | .comment _ later => later.stops
  | .quoted _ later => later.stops
  | .regex _ later => later.stops
  | .literal _ _ later => later.stops
  | .word _ later => later.stops
  | .mark (d := d) _ _ later => by simpa [isSome_bracesAfter] using later.stops

/-! ## The reader follows the derivations -/

section

variable {bound : Nat}
  (ihCode : ∀ context braces t, t.length ≤ bound → Code.Reads context braces t
    (Code.read bound context braces t).1 (Code.read bound context braces t).2)
  (ihLiteral : ∀ t, t.length ≤ bound →
    Literal.Reads t (Literal.read bound t).1 (Literal.read bound t).2)
include ihCode ihLiteral

theorem Code.reads_read_cons (context : Context) (braces : Option Nat) (c : Char) {t : Text}
    (ht : t.length ≤ bound) : Code.Reads context braces (c :: t)
      (Code.read (bound + 1) context braces (c :: t)).1
        (Code.read (bound + 1) context braces (c :: t)).2 := by
  rcases hRead : Lexeme.read context c t with ⟨lexeme, u⟩
  have hu : u.length ≤ bound := Nat.le_trans (Lexeme.length_le hRead) ht
  cases lexeme with
  | comment text => simpa only [Code.read, hRead] using .comment hRead (ihCode _ _ _ hu)
  | quoted text => simpa only [Code.read, hRead] using .quoted hRead (ihCode _ _ _ hu)
  | regex text => simpa only [Code.read, hRead] using .regex hRead (ihCode _ _ _ hu)
  | backtick =>
    have hBody := ihLiteral u hu
    simpa only [Code.read, hRead] using
      .literal hRead hBody (ihCode _ _ _ (Nat.le_trans hBody.length_le hu))
  | word name => simpa only [Code.read, hRead] using .word hRead (ihCode _ _ _ hu)
  | mark d =>
    by_cases hStop : d = '}' ∧ braces = some 0
    · obtain ⟨rfl, rfl⟩ := hStop
      simpa only [Code.read, hRead, and_self, if_true, ← Lexeme.text_append hRead] using
        .stop context u
    · simpa only [Code.read, hRead, if_neg hStop] using .mark hRead hStop (ihCode _ _ _ hu)

theorem Literal.reads_read_cons (c : Char) {t : Text} (ht : t.length ≤ bound) :
    Literal.Reads (c :: t) (Literal.read (bound + 1) (c :: t)).1
      (Literal.read (bound + 1) (c :: t)).2 := by
  simp only [Literal.read]
  split_ifs with hClose hEscape hHole
  · rw [hClose]
    exact .close t
  · rw [hEscape]
    cases t with
    | nil => exact .lastBackslash
    | cons d t => exact .escape d (ihLiteral t (Nat.le_of_succ_le ht))
  · obtain ⟨rfl, hBrace⟩ := hHole
    obtain ⟨t, rfl⟩ : ∃ w, t = '{' :: w := ⟨_, eq_cons_of_head? hBrace⟩
    have hInside : t.length ≤ bound := Nat.le_of_succ_le ht
    have hCode := ihCode .start (some 0) t hInside
    simp only [List.tail_cons]
    rcases hRead : Code.read bound .start (some 0) t with ⟨code, u⟩
    rw [hRead] at hCode
    rcases hCode.stops with rfl | ⟨-, v, rfl⟩
    · exact .cutHole hCode
    · have hv : v.length ≤ bound := Nat.le_trans (Nat.le_of_succ_le hCode.length_le) hInside
      exact .hole hCode (ihLiteral v hv)
  · exact .char hClose hEscape hHole (ihLiteral t ht)

end

theorem reads_read_both (bound : Nat) :
    (∀ context braces t, t.length ≤ bound → Code.Reads context braces t
      (Code.read bound context braces t).1 (Code.read bound context braces t).2) ∧
    (∀ t, t.length ≤ bound →
      Literal.Reads t (Literal.read bound t).1 (Literal.read bound t).2) := by
  induction bound with
  | zero =>
    constructor
    · intro context braces t ht
      obtain rfl : t = [] := List.eq_nil_of_length_eq_zero (by omega)
      exact .done context braces
    · intro t ht
      obtain rfl : t = [] := List.eq_nil_of_length_eq_zero (by omega)
      exact .cut
  | succ bound ih =>
    constructor
    · intro context braces t ht
      cases t with
      | nil => exact .done context braces
      | cons c t =>
        exact Code.reads_read_cons ih.1 ih.2 context braces c (Nat.le_of_succ_le_succ ht)
    · intro t ht
      cases t with
      | nil => exact .cut
      | cons c t => exact Literal.reads_read_cons ih.1 ih.2 c (Nat.le_of_succ_le_succ ht)

/-- With one piece allowed for every character, the reader follows a derivation. -/
theorem Code.reads_read {bound : Nat} (context : Context) (braces : Option Nat) {t : Text}
    (h : t.length ≤ bound) : Code.Reads context braces t
      (Code.read bound context braces t).1 (Code.read bound context braces t).2 :=
  (reads_read_both bound).1 context braces t h

theorem Code.reads_ofText (t : Text) : Code.Reads .start none t (Code.ofText t) [] := by
  have h := Code.reads_read .start none (Nat.le_refl t.length)
  rcases h.stops with hEnd | ⟨hHole, -⟩
  · rwa [hEnd] at h
  · cases hHole

/-- Lexing loses nothing. -/
theorem Code.source_ofText (t : Text) : (Code.ofText t).source = t :=
  (Code.reads_ofText t).sourceBefore_eq

/-! ## Each derivation is followed -/

theorem Lexeme.read_closingBrace (context : Context) (t : Text) :
    Lexeme.read context '}' t = (.mark '}', t) :=
  (Lexeme.Cuts.mark (by decide) (by decide)).read_eq

theorem exists_bound_of_cons {c : Char} {t : Text} {bound : Nat} (h : (c :: t).length ≤ bound) :
    ∃ less, bound = less + 1 ∧ t.length ≤ less := by
  obtain ⟨less, rfl⟩ := Nat.exists_eq_add_of_le' (Nat.le_trans (Nat.le_add_left 1 t.length) h)
  exact ⟨less, rfl, Nat.le_of_succ_le_succ h⟩

mutual

/-- With one piece allowed for every character, the reader gives the pieces of a derivation. -/
theorem Code.Reads.read_eq {context : Context} {braces : Option Nat} {t u : Text} {code : Code}
    {bound : Nat} (hBound : t.length ≤ bound) :
    Code.Reads context braces t code u → Code.read bound context braces t = (code, u)
  | .done _ _ => by cases bound <;> rfl
  | .stop _ _ => by
    obtain ⟨bound, rfl, -⟩ := exists_bound_of_cons hBound
    simp [Code.read, Lexeme.read_closingBrace]
  | .comment lexeme later => by
    obtain ⟨bound, rfl, hRest⟩ := exists_bound_of_cons hBound
    simp only [Code.read, lexeme, later.read_eq (Nat.le_trans (Lexeme.length_le lexeme) hRest)]
  | .quoted lexeme later => by
    obtain ⟨bound, rfl, hRest⟩ := exists_bound_of_cons hBound
    simp only [Code.read, lexeme, later.read_eq (Nat.le_trans (Lexeme.length_le lexeme) hRest)]
  | .regex lexeme later => by
    obtain ⟨bound, rfl, hRest⟩ := exists_bound_of_cons hBound
    simp only [Code.read, lexeme, later.read_eq (Nat.le_trans (Lexeme.length_le lexeme) hRest)]
  | .literal lexeme inside later => by
    obtain ⟨bound, rfl, hRest⟩ := exists_bound_of_cons hBound
    have hInside := Nat.le_trans (Lexeme.length_le lexeme) hRest
    have hLater := Nat.le_trans inside.length_le hInside
    simp only [Code.read, lexeme, inside.read_eq hInside, later.read_eq hLater]
  | .word lexeme later => by
    obtain ⟨bound, rfl, hRest⟩ := exists_bound_of_cons hBound
    simp only [Code.read, lexeme, later.read_eq (Nat.le_trans (Lexeme.length_le lexeme) hRest)]
  | .mark lexeme goesOn later => by
    obtain ⟨bound, rfl, hRest⟩ := exists_bound_of_cons hBound
    simp only [Code.read, lexeme, if_neg goesOn,
      later.read_eq (Nat.le_trans (Lexeme.length_le lexeme) hRest)]

theorem Literal.Reads.read_eq {t u : Text} {body : Literal} {bound : Nat}
    (hBound : t.length ≤ bound) : Literal.Reads t body u → Literal.read bound t = (body, u)
  | .cut => by cases bound <;> rfl
  | .close _ => by
    obtain ⟨bound, rfl, -⟩ := exists_bound_of_cons hBound
    rfl
  | .lastBackslash => by
    obtain ⟨bound, rfl, -⟩ := exists_bound_of_cons hBound
    rfl
  | .escape _ later => by
    obtain ⟨bound, rfl, hRest⟩ := exists_bound_of_cons hBound
    simp [Literal.read, later.read_eq (Nat.le_of_succ_le hRest)]
  | .hole inside later => by
    obtain ⟨bound, rfl, hRest⟩ := exists_bound_of_cons hBound
    have hInside := Nat.le_of_succ_le hRest
    have hLater := Nat.le_of_succ_le (Nat.le_trans inside.length_le hInside)
    simp [Literal.read, inside.read_eq hInside, later.read_eq hLater]
  | .cutHole inside => by
    obtain ⟨bound, rfl, hRest⟩ := exists_bound_of_cons hBound
    simp [Literal.read, inside.read_eq (Nat.le_of_succ_le hRest)]
  | .char noClose noEscape noHole later => by
    obtain ⟨bound, rfl, hRest⟩ := exists_bound_of_cons hBound
    simp only [Literal.read, if_neg noClose, if_neg noEscape, if_neg noHole, later.read_eq hRest]

end

theorem Code.Reads.ofText_eq {t : Text} {code : Code} (h : Code.Reads .start none t code []) :
    Code.ofText t = code :=
  congrArg Prod.fst (h.read_eq (Nat.le_refl t.length))

end TemplateCheck
