import TemplateCheck.Proofs.Source.Printing

/-!
# Lexemes and what follows them

`Code.lexemesFrom` lists the lexemes of a text with their offsets, those in the holes of template
literals included.

Of the text behind a lexeme the lexer sees at most the first character, to know that the lexeme ends
there. So lexemes are read alike before two texts that both go on, the second one with the same
character as the first or with a space for its slash (`Resembles`), and so are all pieces in front
of them (`Code.Reads.sourceBefore_of_resembles`, `Literal.Reads.sourceBefore_of_resembles`).
-/

namespace TemplateCheck

deriving instance DecidableEq for Lexeme

mutual

/-- The lexemes of pieces that stand at an offset, each with its own offset. -/
def Code.lexemesFrom : (offset : Nat) → Code → List (Nat × Lexeme)
  | _, .done => []
  | offset, .mark c rest => (offset, .mark c) :: rest.lexemesFrom (offset + 1)
  | offset, .word name rest => (offset, .word name) :: rest.lexemesFrom (offset + name.length)
  | offset, .comment text rest => (offset, .comment text) :: rest.lexemesFrom (offset + text.length)
  | offset, .quoted text rest => (offset, .quoted text) :: rest.lexemesFrom (offset + text.length)
  | offset, .regex text rest => (offset, .regex text) :: rest.lexemesFrom (offset + text.length)
  | offset, .literal body rest => (offset, .backtick) ::
      (body.lexemesFrom (offset + 1) ++ rest.lexemesFrom (offset + 1 + body.source.length))

/-- The lexemes in the holes of a template literal whose opening backtick stands before
an offset. -/
def Literal.lexemesFrom : (offset : Nat) → Literal → List (Nat × Lexeme)
  | _, .cut => []
  | _, .close => []
  | offset, .char _ rest => rest.lexemesFrom (offset + 1)
  | offset, .escape _ rest => rest.lexemesFrom (offset + 2)
  | offset, .hole code rest =>
    code.lexemesFrom (offset + 2) ++ rest.lexemesFrom (offset + 2 + code.source.length + 1)
  | offset, .cutHole code => code.lexemesFrom (offset + 2)

end

/-- The lexemes that the lexer reads in a text, each with its offset. -/
def Text.lexemes (t : Text) : List (Nat × Lexeme) := (Code.ofText t).lexemesFrom 0

/-! ## Texts that begin alike -/

/-- Both texts go on, with the same character or the second one with a space where the
first has a slash. -/
def Resembles (u v : Text) : Prop :=
  ∃ c s d t, u = c :: s ∧ v = d :: t ∧ (d = c ∨ c = '/' ∧ d = ' ')

namespace Resembles

variable {u v : Text}

theorem cons (c : Char) (s t : Text) : Resembles (c :: s) (c :: t) :=
  ⟨c, s, c, t, rfl, rfl, .inl rfl⟩

theorem append (h : Resembles u v) (s : Text) : Resembles (s ++ u) (s ++ v) := by
  cases s with
  | nil => exact h
  | cons c s => exact cons c (s ++ u) (s ++ v)

theorem ne_nil (h : Resembles u v) : u ≠ [] := by
  obtain ⟨c, s, d, t, rfl, -⟩ := h
  exact List.cons_ne_nil c s

theorem head?_eq (h : Resembles u v) (hSlash : u.head? ≠ some '/') : v.head? = u.head? := by
  obtain ⟨c, s, d, t, rfl, rfl, rfl | ⟨rfl, rfl⟩⟩ := h
  · rfl
  · exact absurd rfl hSlash

theorem head?_of_ne (h : Resembles u v) {c : Char} (hc : v.head? = some c) (hSpace : c ≠ ' ') :
    u.head? = some c := by
  obtain ⟨d, s, d', t, rfl, rfl, rfl | ⟨rfl, rfl⟩⟩ := h
  · exact hc
  · exact absurd (Option.some.inj hc).symm hSpace

theorem forall_head? (h : Resembles u v) {p : Char → Bool} (hSlash : p ' ' = p '/')
    (hu : ∀ c ∈ u.head?, p c = false) : ∀ c ∈ v.head?, p c = false := by
  obtain ⟨c, s, d, t, rfl, rfl, rfl | ⟨rfl, rfl⟩⟩ := h
  · exact hu
  · rintro c ⟨⟩
    exact hSlash.trans (hu '/' rfl)

end Resembles

theorem forall_head?_dropWhile (p : Char → Bool) (t : Text) :
    ∀ c ∈ (t.dropWhile p).head?, p c = false := by
  intro c hc
  simpa [Option.mem_def.mp hc] using head_dropWhile p t

theorem takeWhile_dropWhile_of_resembles {p : Char → Bool} {t v : Text}
    (h : Resembles (t.dropWhile p) v) (hSlash : p ' ' = p '/') :
    (t.takeWhile p ++ v).takeWhile p = t.takeWhile p ∧ (t.takeWhile p ++ v).dropWhile p = v := by
  have hEnd := h.forall_head? hSlash (forall_head?_dropWhile p t)
  have hRun : ∀ c ∈ t.takeWhile p, p c = true := fun c hc => List.mem_takeWhile_imp hc
  rw [List.takeWhile_append_of_pos hRun, List.dropWhile_append_of_pos hRun]
  cases v with
  | nil => simp
  | cons d v =>
    have hd : ¬ p d = true := by simp [hEnd d rfl]
    rw [List.takeWhile_cons_of_neg hd, List.dropWhile_cons_of_neg hd, List.append_nil]
    exact ⟨rfl, rfl⟩

/-! ## Lexemes that end before a text -/

theorem blockCommentEnd_of_ne_nil {t : Text} (h : (blockCommentEnd t).2 ≠ []) (v : Text) :
    (blockCommentEnd t).1 ≠ [] ∧ blockCommentEnd ((blockCommentEnd t).1 ++ v) =
      ((blockCommentEnd t).1, v) := by
  fun_induction blockCommentEnd t with
  | case1 => exact absurd rfl h
  | case2 t => exact ⟨List.cons_ne_nil _ _, rfl⟩
  | case3 c t hOpen body rest hRead ih =>
    rw [hRead] at ih
    obtain ⟨hNonempty, hEnd⟩ := ih h
    refine ⟨List.cons_ne_nil c body, ?_⟩
    have hText : body ++ rest = t := by
      have hAppend := blockCommentEnd_append t
      rwa [hRead] at hAppend
    obtain ⟨d, body', rfl⟩ := List.exists_cons_of_ne_nil hNonempty
    rw [List.cons_append, blockCommentEnd, hEnd]
    intro t' hStar hSlash
    obtain ⟨rfl, -⟩ := List.cons.inj hSlash
    exact hOpen (body' ++ rest) hStar hText.symm

theorem quotedEnd_cons {quote c : Char} (hc : c ≠ '\\') (t : Text) : quotedEnd quote (c :: t) =
    if c = quote then ([c], t) else if c = '\n' then ([], c :: t)
      else (c :: (quotedEnd quote t).1, (quotedEnd quote t).2) := by
  rw [quotedEnd]
  · intro h
    exact absurd h hc
  · intro _ _ h
    exact absurd h hc

theorem regexEnd_cons {c : Char} (hc : c ≠ '\\') (inClass : Bool) (t : Text) :
    regexEnd inClass (c :: t) =
    if c = '\n' then ([], c :: t)
    else if c = '/' ∧ inClass = false then (c :: t.takeWhile isLetter, t.dropWhile isLetter)
    else
      (c :: (regexEnd (if c = '[' then true else if c = ']' then false else inClass) t).1,
        (regexEnd (if c = '[' then true else if c = ']' then false else inClass) t).2) := by
  rw [regexEnd]
  · intro h
    exact absurd h hc
  · intro _ _ h
    exact absurd h hc

theorem ne_backslash {c : Char} {t : Text} (hLast : c = '\\' → t = [] → False)
    (hEscape : ∀ (d : Char) (s : Text), c = '\\' → t = d :: s → False) : c ≠ '\\' := by
  intro hc
  cases t with
  | nil => exact hLast hc rfl
  | cons d s => exact hEscape d s hc rfl

/-- Before a line feed the other text goes on with a line feed too. -/
theorem Resembles.exists_of_lineFeed {s v : Text} (h : Resembles ('\n' :: s) v) :
    ∃ t, v = '\n' :: t := by
  have hHead : v.head? = some '\n' := h.head?_eq (by simp)
  exact ⟨v.tail, eq_cons_of_head? hHead⟩

theorem quotedEnd_of_resembles {quote : Char} {t v : Text} (h : Resembles (quotedEnd quote t).2 v) :
    quotedEnd quote ((quotedEnd quote t).1 ++ v) = ((quotedEnd quote t).1, v) := by
  fun_induction quotedEnd quote t with
  | case1 => exact absurd rfl h.ne_nil
  | case2 => exact absurd rfl h.ne_nil
  | case3 c t body rest hRead ih =>
    rw [hRead] at ih
    rw [List.cons_append, List.cons_append, quotedEnd, ih h]
  | case4 t hLast hEscape =>
    rw [List.singleton_append, quotedEnd_cons (ne_backslash hLast hEscape), if_pos rfl]
  | case5 t hLast hEscape hQuote =>
    obtain ⟨v, rfl⟩ := h.exists_of_lineFeed
    rw [List.nil_append, quotedEnd_cons (ne_backslash hLast hEscape), if_neg hQuote, if_pos rfl]
  | case6 c t hLast hEscape hQuote hLine body rest hRead ih =>
    rw [hRead] at ih
    rw [List.cons_append, quotedEnd_cons (ne_backslash hLast hEscape), if_neg hQuote,
      if_neg hLine, ih h]

theorem regexEnd_of_resembles {inClass : Bool} {t v : Text}
    (h : Resembles (regexEnd inClass t).2 v) :
    regexEnd inClass ((regexEnd inClass t).1 ++ v) = ((regexEnd inClass t).1, v) := by
  fun_induction regexEnd inClass t with
  | case1 => exact absurd rfl h.ne_nil
  | case2 => exact absurd rfl h.ne_nil
  | case3 inClass c t body rest hRead ih =>
    rw [hRead] at ih
    rw [List.cons_append, List.cons_append, regexEnd, ih h]
  | case4 inClass t hLast hEscape =>
    obtain ⟨v, rfl⟩ := h.exists_of_lineFeed
    rw [List.nil_append, regexEnd_cons (ne_backslash hLast hEscape), if_pos rfl]
  | case5 inClass c t hLast hEscape hLine hSlash =>
    obtain ⟨hFlags, hRest⟩ := takeWhile_dropWhile_of_resembles h (by decide)
    rw [List.cons_append, regexEnd_cons (ne_backslash hLast hEscape), if_neg hLine,
      if_pos hSlash, hFlags, hRest]
  | case6 inClass c t hLast hEscape hLine hSlash _ body rest hRead ih =>
    rw [hRead] at ih
    rw [List.cons_append, regexEnd_cons (ne_backslash hLast hEscape), if_neg hLine,
      if_neg hSlash, ih h]

/-- A lexeme that ends before a text is read alike. -/
theorem Lexeme.exists_read_of_resembles {context : Context} {c : Char} {t u : Text}
    {lexeme : Lexeme} (h : Lexeme.read context c t = (lexeme, u)) :
    ∃ body, lexeme.text = c :: body ∧ t = body ++ u ∧
      ∀ v, Resembles u v → Lexeme.read context c (body ++ v) = (lexeme, v) := by
  -- What follows a slash decides about comments; the other text has no slash or star there either.
  have hNext {body v : Text} (hText : t = body ++ u) (hv : Resembles u v)
      (next : ∀ d ∈ t.head?, d ≠ '/' ∧ d ≠ '*') :
      ∀ d ∈ (body ++ v).head?, d ≠ '/' ∧ d ≠ '*' := by
    have hSame {d : Char} (hd : (body ++ v).head? = some d) (hSpace : d ≠ ' ') : t.head? = some d :=
      hText ▸ (hv.append body).head?_of_ne hd hSpace
    rintro d hd
    constructor
    · rintro rfl
      exact (next _ (hSame hd (by decide))).1 rfl
    · rintro rfl
      exact (next _ (hSame hd (by decide))).2 rfl
  cases Lexeme.cuts_iff.mpr h with
  | lineComment slash next =>
    refine ⟨_, rfl, List.takeWhile_append_dropWhile.symm, fun v hv => ?_⟩
    obtain ⟨hTake, hDrop⟩ := takeWhile_dropWhile_of_resembles hv (by decide)
    have hHead : (t.takeWhile (· ≠ '\n') ++ v).head? = some '/' := by
      rw [eq_cons_of_head? next]
      rfl
    rw [(Lexeme.Cuts.lineComment slash hHead).read_eq, hTake, hDrop]
  | blockComment slash next =>
    refine ⟨'*' :: (blockCommentEnd t.tail).1, rfl, ?_, fun v hv => ?_⟩
    · rw [List.cons_append, blockCommentEnd_append]
      exact eq_cons_of_head? next
    · obtain ⟨-, hEnd⟩ := blockCommentEnd_of_ne_nil hv.ne_nil v
      rw [(Lexeme.Cuts.blockComment slash rfl).read_eq, List.cons_append, List.tail_cons, hEnd]
  | quoted quote =>
    refine ⟨_, rfl, (quotedEnd_append c t).symm, fun v hv => ?_⟩
    rw [(Lexeme.Cuts.quoted quote).read_eq, quotedEnd_of_resembles hv]
  | backtick backtick =>
    exact ⟨[], by rw [backtick]; rfl, rfl, fun v _ => (Lexeme.Cuts.backtick backtick).read_eq⟩
  | regex slash next operand =>
    have hText := (regexEnd_append false t).symm
    refine ⟨_, rfl, hText, fun v hv => ?_⟩
    rw [(Lexeme.Cuts.regex slash (hNext hText hv next) operand).read_eq, regexEnd_of_resembles hv]
  | word name =>
    refine ⟨_, rfl, List.takeWhile_append_dropWhile.symm, fun v hv => ?_⟩
    obtain ⟨hTake, hDrop⟩ := takeWhile_dropWhile_of_resembles hv (by decide)
    rw [(Lexeme.Cuts.word name).read_eq, hTake, hDrop]
  | division slash next operator =>
    exact ⟨[], rfl, rfl, fun v hv =>
      (Lexeme.Cuts.division slash (hNext (show t = [] ++ t from rfl) hv next) operator).read_eq⟩
  | mark plain noName => exact ⟨[], rfl, rfl, fun v _ => (Lexeme.Cuts.mark plain noName).read_eq⟩

/-! ## Pieces that end before a text -/

theorem Code.Reads.resembles {context : Context} {braces : Option Nat} {t u v : Text} {code : Code}
    (h : Code.Reads context braces t code u) (hv : Resembles u v) :
    Resembles t (code.sourceBefore v) := by
  rw [← h.sourceBefore_eq, code.sourceBefore_eq, code.sourceBefore_eq]
  exact hv.append code.source

theorem Literal.Reads.resembles {t u v : Text} {body : Literal} (h : Literal.Reads t body u)
    (hv : Resembles u v) :
    Resembles t (body.sourceBefore v) := by
  rw [← h.sourceBefore_eq, body.sourceBefore_eq, body.sourceBefore_eq]
  exact hv.append body.source

mutual

/-- Pieces that end before a text are read alike. -/
theorem Code.Reads.sourceBefore_of_resembles {context : Context} {braces : Option Nat}
    {t u v : Text} {code : Code} :
    Code.Reads context braces t code u → Resembles u v →
    Code.Reads context braces (code.sourceBefore v) code v
  | .done _ _, hv => absurd rfl hv.ne_nil
  | .stop context t, hv => by
    have hHead : v.head? = some '}' := hv.head?_eq (by simp)
    rw [Code.sourceBefore, eq_cons_of_head? hHead]
    exact .stop context _
  | @Code.Reads.comment _ _ _ _ text _ _ rest lexeme later, hv => by
    obtain ⟨body, hText, -, hRead⟩ := Lexeme.exists_read_of_resembles lexeme
    show Code.Reads _ _ ((Lexeme.comment text).text ++ rest.sourceBefore v) _ v
    rw [hText]
    exact .comment (hRead _ (later.resembles hv)) (later.sourceBefore_of_resembles hv)
  | @Code.Reads.quoted _ _ _ _ text _ _ rest lexeme later, hv => by
    obtain ⟨body, hText, -, hRead⟩ := Lexeme.exists_read_of_resembles lexeme
    show Code.Reads _ _ ((Lexeme.quoted text).text ++ rest.sourceBefore v) _ v
    rw [hText]
    exact .quoted (hRead _ (later.resembles hv)) (later.sourceBefore_of_resembles hv)
  | @Code.Reads.regex _ _ _ _ text _ _ rest lexeme later, hv => by
    obtain ⟨body, hText, -, hRead⟩ := Lexeme.exists_read_of_resembles lexeme
    show Code.Reads _ _ ((Lexeme.regex text).text ++ rest.sourceBefore v) _ v
    rw [hText]
    exact .regex (hRead _ (later.resembles hv)) (later.sourceBefore_of_resembles hv)
  | @Code.Reads.literal _ _ _ _ _ _ _ inner rest lexeme inside later, hv => by
    obtain ⟨body, hText, -, hRead⟩ := Lexeme.exists_read_of_resembles lexeme
    have hRest := later.resembles hv
    show Code.Reads _ _ (Lexeme.backtick.text ++ inner.sourceBefore (rest.sourceBefore v)) _ v
    rw [hText]
    exact .literal (hRead _ (inside.resembles hRest)) (inside.sourceBefore_of_resembles hRest)
      (later.sourceBefore_of_resembles hv)
  | @Code.Reads.word _ _ _ _ name _ _ rest lexeme later, hv => by
    obtain ⟨body, hText, -, hRead⟩ := Lexeme.exists_read_of_resembles lexeme
    show Code.Reads _ _ ((Lexeme.word name).text ++ rest.sourceBefore v) _ v
    rw [hText]
    exact .word (hRead _ (later.resembles hv)) (later.sourceBefore_of_resembles hv)
  | @Code.Reads.mark _ _ _ d _ _ _ rest lexeme goesOn later, hv => by
    obtain ⟨body, hText, -, hRead⟩ := Lexeme.exists_read_of_resembles lexeme
    show Code.Reads _ _ ((Lexeme.mark d).text ++ rest.sourceBefore v) _ v
    rw [hText]
    exact .mark (hRead _ (later.resembles hv)) goesOn (later.sourceBefore_of_resembles hv)

theorem Literal.Reads.sourceBefore_of_resembles {t u v : Text} {body : Literal} :
    Literal.Reads t body u → Resembles u v → Literal.Reads (body.sourceBefore v) body v
  | .cut, hv => absurd rfl hv.ne_nil
  | .close _, _ => .close v
  | .lastBackslash, hv => absurd rfl hv.ne_nil
  | .escape c later, hv => .escape c (later.sourceBefore_of_resembles hv)
  | .hole inside later, hv =>
    .hole (inside.sourceBefore_of_resembles (.cons '}' _ _)) (later.sourceBefore_of_resembles hv)
  | .cutHole _, hv => absurd rfl hv.ne_nil
  | .char noClose noEscape noHole later, hv => by
    refine .char noClose noEscape ?_ (later.sourceBefore_of_resembles hv)
    rintro ⟨hc, hHead⟩
    exact noHole ⟨hc, (later.resembles hv).head?_of_ne hHead (by decide)⟩

end

end TemplateCheck
