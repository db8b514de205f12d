import Mathlib.Data.List.TakeWhile
import TemplateCheck.Proofs.Source.Lexing
import TemplateCheck.Proofs.Source.Script
import TemplateCheck.Proofs.Text.Classes

/-!
# Lexing a written script

Lexing undoes writing: of a written script the lexer finds just the literals that the marker marks,
at any depth, with their places, holes and parents (`Script.templates_ofText_print`).

1. No slash stands in the code of a script, so how its pieces are read does not depend on what
   stands before them. `Finds` says, for every context, what is found in a text.
2. Plain characters are written one by one and read as words. `FindsOn` is `Finds` after the end of
   the word in which the text starts; it can be carried backwards over each part of a script, the
   last one first.
3. The tag of a literal is searched backwards from its backtick. What may stand before a literal
   makes this search give the tag that is written (`tagBefore_some`, `tagBefore_none`).
4. A script and the inside of a literal are read in one mutual recursion (`Script.findsOn`,
   `Script.Body.exists_readAs`).
-/

namespace TemplateCheck

/-! ## Single characters -/

section Characters

variable {c : Char} {t : Text}

theorem ne_brace_of_isPlain (h : isPlain c = true) : c ≠ '{' ∧ c ≠ '}' :=
  ⟨ne_of_class h (by decide), ne_of_class h (by decide)⟩

theorem isPlain_of_class {p : Char → Bool} (h : p c = true)
    (hp : ∀ d ∈ ['"', '\'', '`', '/', '{', '}', '\\'], p d = false) : isPlain c = true := by
  have hNe := not_mem_of_class h hp
  simp only [List.mem_cons, List.not_mem_nil, or_false, not_or] at hNe
  simp [isPlain, hNe]

theorem isPlain_of_isNameChar (h : isNameChar c = true) : isPlain c = true :=
  isPlain_of_class h (by decide)

theorem isPlain_of_isBlank (h : isBlank c = true) : isPlain c = true :=
  isPlain_of_class h (by decide)

theorem Lexeme.read_name (h : isNameChar c = true) (context : Context) :
    Lexeme.read context c t = (.word (c :: t.takeWhile isNameChar), t.dropWhile isNameChar) :=
  (Lexeme.Cuts.word h).read_eq

theorem Lexeme.read_plain (hPlain : isPlain c = true) (hName : isNameChar c = false)
    (context : Context) : Lexeme.read context c t = (.mark c, t) :=
  (Lexeme.Cuts.mark (not_mem_of_class hPlain (by decide)) hName).read_eq

theorem Lexeme.read_openingBrace (context : Context) (t : Text) :
    Lexeme.read context '{' t = (.mark '{', t) :=
  (Lexeme.Cuts.mark (by decide) (by decide)).read_eq

theorem Lexeme.read_backtick (context : Context) (t : Text) :
    Lexeme.read context '`' t = (.backtick, t) :=
  (Lexeme.Cuts.backtick rfl).read_eq

theorem quotedEnd_closed {quote : Char} {inside : Text} (hQuote : quote ≠ '\\')
    (hFits : ∀ c ∈ inside, c ≠ quote ∧ c ≠ '\n' ∧ c ≠ '\\') (t : Text) :
    quotedEnd quote (inside ++ quote :: t) = (inside ++ [quote], t) := by
  induction inside with
  | nil =>
    rw [List.nil_append, quotedEnd]
    · simp
    · simp [hQuote]
    · simp [hQuote]
  | cons c inside ih =>
    obtain ⟨⟨hEnd, hLine, hEscape⟩, hRest⟩ := List.forall_mem_cons.mp hFits
    rw [List.cons_append, quotedEnd, ih hRest]
    · simp [hEnd, hLine]
    · simp [hEscape]
    · simp [hEscape]

theorem Lexeme.read_quoted (string : Script.Quoted) (context : Context) (t : Text) :
    Lexeme.read context string.quote (string.inside ++ string.quote :: t) =
      (.quoted string.print, t) := by
  have hBackslash : string.quote ≠ '\\' := by
    rcases string.isQuote with h | h <;> rw [h] <;> decide
  rw [(Lexeme.Cuts.quoted string.isQuote).read_eq, quotedEnd_closed hBackslash string.fits]
  rfl

end Characters

/-! ## What is found in a text -/

/-- In whatever context, reading the text `t` after the text `before`, given backwards, stops before
`u` and finds the templates `found` on its way. -/
def Finds (marker : WideText) (braces : Option Nat) (t u before : Text) (parent : Option Nat)
    (next : Nat) (found : List TaggedTemplate) : Prop :=
  ∀ context, ∃ code, Code.Reads context braces t code u ∧
    code.templatesFrom marker before before.length parent next = found

/-- The same when a word that started before the text may go on in it. -/
def FindsOn (marker : WideText) (braces : Option Nat) (t u before : Text) (parent : Option Nat)
    (next : Nat) (found : List TaggedTemplate) : Prop :=
  Finds marker braces (t.dropWhile isNameChar) u ((t.takeWhile isNameChar).reverse ++ before)
    parent next found

theorem Finds.findsOn {marker : WideText} {braces : Option Nat} {c : Char} {t u before : Text}
    {parent : Option Nat} {next : Nat} {found : List TaggedTemplate} (hName : isNameChar c = false)
    (h : Finds marker braces (c :: t) u before parent next found) :
    FindsOn marker braces (c :: t) u before parent next found := by
  have hNot : ¬ isNameChar c = true := by simp [hName]
  rw [FindsOn, List.dropWhile_cons_of_neg hNot, List.takeWhile_cons_of_neg hNot]
  exact h

namespace FindsOn

variable {marker : WideText} {braces : Option Nat} {c : Char} {t u before : Text}
  {parent : Option Nat} {next : Nat} {found : List TaggedTemplate}

theorem finds (h : FindsOn marker braces t u before parent next found) :
    Finds marker braces t u before parent next found := by
  intro context
  cases t with
  | nil => exact h context
  | cons c t =>
    by_cases hName : isNameChar c = true
    · rw [FindsOn, List.dropWhile_cons_of_pos hName, List.takeWhile_cons_of_pos hName] at h
      obtain ⟨rest, hRest, hFound⟩ :=
        h ⟨(c :: t.takeWhile isNameChar).getLast?, c :: t.takeWhile isNameChar⟩
      refine ⟨.word _ rest, .word (Lexeme.read_name hName context) hRest, ?_⟩
      rwa [List.length_append, List.length_reverse, Nat.add_comm] at hFound
    · rw [FindsOn, List.dropWhile_cons_of_neg hName, List.takeWhile_cons_of_neg hName] at h
      exact h context

theorem done : FindsOn marker braces [] [] before parent next [] :=
  fun context => ⟨.done, .done context braces, rfl⟩

theorem stop : FindsOn marker (some 0) ('}' :: t) ('}' :: t) before parent next [] :=
  Finds.findsOn (by decide) fun context => ⟨.done, .stop context t, rfl⟩

theorem name (hName : isNameChar c = true)
    (h : FindsOn marker braces t u (c :: before) parent next found) :
    FindsOn marker braces (c :: t) u before parent next found := by
  rw [FindsOn, List.dropWhile_cons_of_pos hName, List.takeWhile_cons_of_pos hName,
    List.reverse_cons, List.append_assoc]
  exact h

theorem mark (hRead : ∀ context t, Lexeme.read context c t = (.mark c, t))
    (hName : isNameChar c = false) (hGoesOn : ¬ (c = '}' ∧ braces = some 0))
    (h : FindsOn marker (bracesAfter braces c) t u (c :: before) parent next found) :
    FindsOn marker braces (c :: t) u before parent next found := by
  refine Finds.findsOn hName fun context => ?_
  obtain ⟨rest, hRest, hFound⟩ := h.finds (context.afterMark c)
  exact ⟨.mark c rest, .mark (hRead context t) hGoesOn hRest, hFound⟩

theorem plain (hPlain : isPlain c = true)
    (h : FindsOn marker braces t u (c :: before) parent next found) :
    FindsOn marker braces (c :: t) u before parent next found := by
  cases hName : isNameChar c with
  | true => exact h.name hName
  | false =>
    obtain ⟨hOpen, hClose⟩ := ne_brace_of_isPlain hPlain
    refine mark (fun context t => Lexeme.read_plain hPlain hName context) hName
      (by simp [hClose]) ?_
    rw [bracesAfter, if_neg hOpen, if_neg hClose]
    exact h

theorem plains {s : Text} (hPlain : ∀ c ∈ s, isPlain c = true)
    (h : FindsOn marker braces t u (s.reverse ++ before) parent next found) :
    FindsOn marker braces (s ++ t) u before parent next found := by
  induction s generalizing before with
  | nil => exact h
  | cons c s ih =>
    obtain ⟨hc, hs⟩ := List.forall_mem_cons.mp hPlain
    rw [List.reverse_cons, List.append_assoc] at h
    exact (ih hs h).plain hc

theorem openBrace (h : FindsOn marker (braces.map (· + 1)) t u ('{' :: before) parent next found) :
    FindsOn marker braces ('{' :: t) u before parent next found :=
  mark Lexeme.read_openingBrace (by decide) (by simp) h

theorem closeBrace (h : FindsOn marker braces t u ('}' :: before) parent next found) :
    FindsOn marker (braces.map (· + 1)) ('}' :: t) u before parent next found := by
  refine mark Lexeme.read_closingBrace (by decide) ?_ ?_
  · cases braces <;> simp
  · have hBraces : bracesAfter (braces.map (· + 1)) '}' = braces := by
      cases braces <;> rfl
    rw [hBraces]
    exact h

theorem quoted (string : Script.Quoted)
    (h : FindsOn marker braces t u (string.print.reverse ++ before) parent next found) :
    FindsOn marker braces (string.print ++ t) u before parent next found := by
  have hName : isNameChar string.quote = false := by
    rcases string.isQuote with h | h <;> rw [h] <;> decide
  have hPrint : string.print ++ t = string.quote :: (string.inside ++ string.quote :: t) := by
    simp [Script.Quoted.print]
  rw [hPrint]
  refine Finds.findsOn hName fun context => ?_
  obtain ⟨rest, hRest, hFound⟩ := h.finds ⟨some string.quote, []⟩
  refine ⟨.quoted string.print rest, .quoted (Lexeme.read_quoted string context t) hRest, ?_⟩
  rwa [List.length_append, List.length_reverse, Nat.add_comm] at hFound

end FindsOn

/-! ## Literal text -/

/-- A literal that goes on with a text. -/
def Literal.chars (text : Text) (rest : Literal) : Literal := text.foldr .char rest

section Characters

variable {marker : WideText} {before : Text} {parent : Option Nat} {next : Nat}

theorem Literal.templatesFrom_chars (text : Text) (rest : Literal) :
    (Literal.chars text rest).templatesFrom marker before before.length parent next =
      rest.templatesFrom marker (text.reverse ++ before) (text.reverse ++ before).length parent
        next := by
  induction text generalizing before with
  | nil => rfl
  | cons c text ih =>
    rw [List.reverse_cons, List.append_assoc]
    exact ih

theorem Literal.spans_chars (text : Text) (rest : Literal) (offset : Nat) :
    (Literal.chars text rest).spans offset = rest.spans (offset + text.length) := by
  induction text generalizing offset with
  | nil => rfl
  | cons c text ih =>
    rw [List.length_cons, Nat.add_comm text.length 1, ← Nat.add_assoc]
    exact ih (offset + 1)

theorem Literal.body_chars (text : Text) (rest : Literal) :
    (Literal.chars text rest).body = text ++ rest.body := by
  induction text with
  | nil => rfl
  | cons c text ih => exact congrArg (c :: ·) ih

/-- Text that opens no hole is read character by character, also when it ends with a dollar sign. -/
theorem Literal.Reads.chars {text t u : Text} {rest : Literal}
    (hFits : ∀ c ∈ text, c ≠ '`' ∧ c ≠ '\\') (hNoHole : Text.contains r"${" text = false)
    (hNext : t.head? ≠ some '{') (h : Literal.Reads t rest u) :
    Literal.Reads (text ++ t) (Literal.chars text rest) u := by
  induction text with
  | nil => exact h
  | cons c text ih =>
    obtain ⟨⟨hClose, hEscape⟩, hText⟩ := List.forall_mem_cons.mp hFits
    simp only [Text.contains, Text.find?] at hNoHole
    split_ifs at hNoHole with hStart
    · cases hNoHole
    refine .char hClose hEscape ?_ (ih hText (by simpa [Text.contains] using hNoHole))
    rintro ⟨rfl, hBrace⟩
    cases text with
    | nil => exact hNext hBrace
    | cons d text =>
      obtain rfl : d = '{' := by simpa using hBrace
      exact hStart rfl

end Characters

/-! ## Tags -/

theorem takeWhile_eq_nil_of_head {p : Char → Bool} {t : Text} (h : t.head?.all (!p ·) = true) :
    t.takeWhile p = [] := by
  cases t with
  | nil => rfl
  | cons c t =>
    have hc : p c = false := by simpa using h
    simp [hc]

theorem head_dropWhile (p : Char → Bool) (t : Text) :
    (t.dropWhile p).head?.all (!p ·) = true := by
  induction t with
  | nil => rfl
  | cons c t ih =>
    by_cases hc : p c = true
    · rw [List.dropWhile_cons_of_pos hc]
      exact ih
    · rw [List.dropWhile_cons_of_neg hc]
      simpa using hc

theorem tagBefore_append {gap name rest : Text} (hGap : ∀ c ∈ gap, c = ' ' ∨ c = '\t')
    (hName : ∀ c ∈ name, isNameChar c = true)
    (hStart : (name ++ rest).head?.all (fun c => !(c = ' ' || c = '\t')) = true)
    (hRest : rest.head?.all (fun c => !isNameChar c) = true) (offset : Nat) :
    tagBefore (gap ++ (name ++ rest)) offset =
      if name = [] ∨ rest.head? = some '.' then ⟨[], offset - gap.length⟩
      else ⟨name.reverse, offset - gap.length - name.length⟩ := by
  have hGapTaken : (gap ++ (name ++ rest)).takeWhile (fun c => c = ' ' || c = '\t') = gap := by
    rw [List.takeWhile_append_of_pos (by simpa using hGap), takeWhile_eq_nil_of_head hStart,
      List.append_nil]
  have hNameTaken : (name ++ rest).takeWhile isNameChar = name := by
    rw [List.takeWhile_append_of_pos hName, takeWhile_eq_nil_of_head hRest, List.append_nil]
  simp only [tagBefore, hGapTaken, List.drop_left, hNameTaken]

theorem head_dropWhile_space {before : Text} (h : Script.tagFits before none = true) :
    (before.dropWhile fun c => c = ' ' || c = '\t').head?.all (fun c => !isNameChar c) = true := by
  induction before with
  | nil => rfl
  | cons c before ih =>
    by_cases hSpace : c = ' ' ∨ c = '\t'
    · have hBlank : isBlank c = true := by
        rcases hSpace with rfl | rfl <;> rfl
      rw [Script.tagFits, List.dropWhile_cons_of_pos hBlank] at h
      rw [List.dropWhile_cons_of_pos (by simpa using hSpace)]
      exact ih h
    · rw [List.dropWhile_cons_of_neg (by simpa using hSpace)]
      cases hBlank : isBlank c with
      | true => simp [isNameChar_of_isBlank hBlank]
      | false =>
        rw [Script.tagFits, List.dropWhile_cons_of_neg (by simp [hBlank])] at h
        exact h

theorem tagBefore_none {before : Text} (h : Script.tagFits before none = true) (offset : Nat) :
    (tagBefore before offset).name = [] := by
  have hSplit : before = before.takeWhile (fun c => c = ' ' || c = '\t') ++
      ([] ++ before.dropWhile fun c => c = ' ' || c = '\t') := by
    simp
  rw [hSplit, tagBefore_append _ _ _ (head_dropWhile_space h), if_pos (.inl rfl)]
  · intro c hc
    simpa using List.mem_takeWhile_imp hc
  · simp
  · exact head_dropWhile _ before

theorem tagBefore_some {before : Text} {tag : Script.Tag}
    (h : Script.tagFits before (some tag) = true) :
    tagBefore ((Script.printTag (some tag)).reverse ++ before)
      ((Script.printTag (some tag)).reverse ++ before).length = ⟨tag.name, before.length⟩ := by
  have hGap : ∀ c ∈ tag.gap.reverse, c = ' ' ∨ c = '\t' := by
    intro c hc
    exact tag.gap_fits c (List.mem_reverse.mp hc)
  have hName : ∀ c ∈ tag.name.reverse, isNameChar c = true := by
    intro c hc
    exact tag.name_fits c (List.mem_reverse.mp hc)
  have hNe : tag.name.reverse ≠ [] := by simpa using tag.name_ne_nil
  have hRest : before.head?.all (fun c => !isNameChar c) = true ∧ before.head? ≠ some '.' := by
    cases before with
    | nil => simp
    | cons c before => simpa [Script.tagFits] using h
  have hStart :
      (tag.name.reverse ++ before).head?.all (fun c => !(c = ' ' || c = '\t')) = true := by
    obtain ⟨c, others, hCons⟩ := List.exists_cons_of_ne_nil hNe
    have hc : isNameChar c = true := hName c (hCons ▸ List.mem_cons_self)
    have hSpace : c ≠ ' ' := by
      rintro rfl
      cases hc
    have hTab : c ≠ '\t' := by
      rintro rfl
      cases hc
    simp [hCons, hSpace, hTab]
  rw [Script.printTag, List.reverse_append, List.append_assoc,
    tagBefore_append hGap hName hStart hRest.1, if_neg (by simp [hNe, hRest.2])]
  simp

theorem isPlain_of_mem_printTag {tag : Option Script.Tag} :
    ∀ c ∈ Script.printTag tag, isPlain c = true := by
  intro c hc
  cases tag with
  | none => cases hc
  | some tag =>
    rcases List.mem_append.mp hc with hName | hGap
    · exact isPlain_of_isNameChar (tag.name_fits c hName)
    · rcases tag.gap_fits c hGap with rfl | rfl <;> rfl

/-- The tag that is found is the marker just when the tag that is written is. -/
theorem tagBefore_eq_marker_iff {marker before : Text} (hMarker : marker ≠ [])
    {tag : Option Script.Tag} (h : Script.tagFits before tag = true) :
    (tagBefore ((Script.printTag tag).reverse ++ before)
      ((Script.printTag tag).reverse ++ before).length).name = marker ↔
        tag.map (·.name) = some marker := by
  cases tag with
  | none => simpa [Script.printTag, tagBefore_none h] using hMarker.symm
  | some tag =>
    rw [tagBefore_some h]
    simp

/-! ## Literals -/

/-- The text `t` holds the inside of a literal and ends it before `u`; its pieces have the
templates, the holes and the text of the given inside. -/
structure Script.Body.ReadAs (body : Script.Body) (marker before : Text) (parent : Option Nat)
    (next : Nat) (t u : Text) (literal : Literal) : Prop where
  reads : Literal.Reads t literal u
  templates : literal.templatesFrom (WideText.ofText marker) before before.length parent next =
    body.templates marker before.length parent next
  spans : literal.spans before.length = body.spans before.length
  body_eq : literal.body = body.print

theorem Script.Body.ReadAs.source_eq {body : Script.Body} {marker before t : Text}
    {parent : Option Nat} {next : Nat} {literal : Literal}
    (h : body.ReadAs marker before parent next (body.print ++ '`' :: t) t literal) :
    literal.source = body.print ++ ['`'] := by
  have hReads := h.reads
  rw [← List.singleton_append, ← List.append_assoc] at hReads
  exact hReads.source_eq

theorem Code.templatesFrom_literal {marker before opened t : Text} (hMarker : marker ≠ [])
    {parent : Option Nat} {next : Nat} {tag : Option Script.Tag} {body : Script.Body}
    {literal : Literal} (rest : Code) (hTag : Script.tagFits before tag = true)
    (hOpened : opened = (Script.printTag tag).reverse ++ before)
    (hLiteral : body.ReadAs marker ('`' :: opened)
      (if tag.map (·.name) = some marker then some next else parent)
      (if tag.map (·.name) = some marker then next + 1 else next)
      (body.print ++ '`' :: t) t literal) :
    (Code.literal literal rest).templatesFrom (WideText.ofText marker) opened opened.length parent
        next =
      (Script.literal tag body .done).templates marker before.length parent next ++
        rest.templatesFrom (WideText.ofText marker)
          ('`' :: (body.print.reverse ++ '`' :: opened))
          ('`' :: (body.print.reverse ++ '`' :: opened)).length parent
          (next +
            ((Script.literal tag body .done).templates marker
              before.length parent next).length) := by
  have hStart : before.length + (Script.printTag tag).length = opened.length := by
    simp [hOpened, Nat.add_comm]
  have hStop : ('`' :: (body.print.reverse ++ '`' :: opened)).length =
      opened.length + 1 + body.print.length + 1 := by
    simp
    omega
  have hClosed : (body.print ++ ['`']).reverseAux ('`' :: opened) =
      '`' :: (body.print.reverse ++ '`' :: opened) := by
    simp [List.reverseAux_eq]
  have hTemplates := hLiteral.templates
  have hSpans := hLiteral.spans
  rw [List.length_cons] at hTemplates hSpans
  by_cases hMarked : tag.map (·.name) = some marker
  · have hFound : tagBefore opened opened.length = ⟨marker, before.length⟩ := by
      obtain ⟨tag, rfl, rfl⟩ := Option.map_eq_some_iff.mp hMarked
      rw [hOpened, tagBefore_some hTag]
    simp only [if_pos hMarked] at hTemplates
    simp only [Code.templatesFrom, hFound, if_true, hTemplates, hSpans, hLiteral.source_eq,
      hLiteral.body_eq, hClosed, Script.templates, if_pos hMarked, hStart, hStop, List.append_nil,
      List.length_append, List.length_singleton, ← Nat.add_assoc]
  · have hOther : ¬ WideText.ofText (tagBefore opened opened.length).name =
        WideText.ofText marker := by
      rwa [WideText.ofText_inj, hOpened, tagBefore_eq_marker_iff hMarker hTag]
    simp only [if_neg hMarked] at hTemplates
    simp only [Code.templatesFrom, if_neg hOther, hTemplates, hLiteral.source_eq, hClosed,
      Script.templates, if_neg hMarked, hStart, hStop, List.append_nil, List.length_append,
      List.length_singleton, ← Nat.add_assoc]

/-- A literal whose tag stands at the end of the text `opened`. -/
theorem FindsOn.literal {marker : Text} (hMarker : marker ≠ []) {braces : Option Nat}
    {t u before opened : Text} {parent : Option Nat} {next : Nat} {found : List TaggedTemplate}
    {tag : Option Script.Tag} {body : Script.Body} (hTag : Script.tagFits before tag = true)
    (hOpened : opened = (Script.printTag tag).reverse ++ before)
    (hBody : ∀ parent next, ∃ literal,
      body.ReadAs marker ('`' :: opened) parent next (body.print ++ '`' :: t) t literal)
    (h : FindsOn (WideText.ofText marker) braces t u
      ('`' :: (body.print.reverse ++ '`' :: opened)) parent
      (next + ((Script.literal tag body .done).templates marker before.length parent next).length)
      found) :
    FindsOn (WideText.ofText marker) braces ('`' :: (body.print ++ '`' :: t)) u opened parent
      next ((Script.literal tag body .done).templates marker before.length parent
        next ++ found) := by
  refine Finds.findsOn (by decide) fun context => ?_
  obtain ⟨rest, hRest, hFound⟩ := h.finds ⟨some '`', []⟩
  obtain ⟨literal, hLiteral⟩ :=
    hBody (if tag.map (·.name) = some marker then some next else parent)
      (if tag.map (·.name) = some marker then next + 1 else next)
  refine ⟨.literal literal rest,
    .literal (Lexeme.read_backtick context _) hLiteral.reads hRest, ?_⟩
  rw [Code.templatesFrom_literal hMarker rest hTag hOpened hLiteral, hFound]

theorem Script.Body.ReadAs.last (text : Script.Chars) (marker before u : Text)
    (parent : Option Nat) (next : Nat) :
    (Script.Body.last text).ReadAs marker before parent next (text.text ++ '`' :: u) u
      (.chars text.text .close) where
  reads := (Literal.Reads.close u).chars text.fits text.noHole (by simp)
  templates := Literal.templatesFrom_chars text.text .close
  spans := Literal.spans_chars text.text .close before.length
  body_eq := (Literal.body_chars text.text .close).trans (List.append_nil _)

/-- A text and a hole in front of the rest of a literal. -/
theorem Script.Body.ReadAs.hole {text : Script.Chars} {code : Script} {rest : Script.Body}
    {marker before opened t u : Text} {parent : Option Nat} {next : Nat} {inside : Code}
    {literal : Literal} (hOpened : opened = '{' :: '$' :: (text.text.reverse ++ before))
    (hInside : Code.Reads .start (some 0) (code.print ++ '}' :: t) inside ('}' :: t))
    (hFound : inside.templatesFrom (WideText.ofText marker) opened opened.length parent next =
      code.templates marker opened.length parent next)
    (hRest : rest.ReadAs marker ('}' :: (code.print.reverse ++ opened)) parent
      (next + (code.templates marker opened.length parent next).length) t u literal) :
    (Script.Body.hole text code rest).ReadAs marker before parent next
      (text.text ++ '$' :: '{' :: (code.print ++ '}' :: t)) u
      (.chars text.text (.hole inside literal)) := by
  have hSource : inside.source = code.print := hInside.source_eq
  have hStart : (text.text.reverse ++ before).length + 2 = opened.length := by
    simp [hOpened]
  have hStart' : before.length + text.text.length + 2 = opened.length := by
    rw [← hStart]
    simp [Nat.add_comm]
  have hStop : ('}' :: (code.print.reverse ++ opened)).length =
      opened.length + code.print.length + 1 := by
    simp [Nat.add_comm]
  refine ⟨(Literal.Reads.hole hInside hRest.reads).chars text.fits text.noHole
    (by simp), ?_, ?_, ?_⟩
  · rw [Literal.templatesFrom_chars]
    have hTemplates := hRest.templates
    rw [hStop] at hTemplates
    simp only [Literal.templatesFrom, Script.Body.templates, hSource, hStart, hStart', ← hOpened,
      hFound, List.reverseAux_eq, hTemplates]
  · rw [Literal.spans_chars]
    have hSpans := hRest.spans
    rw [hStop] at hSpans
    simp only [Literal.spans, Script.Body.spans, Span.ofCode, hSource, hStart', hSpans]
  · rw [Literal.body_chars]
    simp [Literal.body, Script.Body.print, Code.sourceBefore_eq, hSource, hRest.body_eq]

/-- The marked literals up to the end of a literal come before those after it. -/
theorem Script.templates_literal (tag : Option Script.Tag) (body : Script.Body) (rest : Script)
    (marker before : Text) (parent : Option Nat) (next : Nat) :
    (Script.literal tag body rest).templates marker before.length parent next =
      (Script.literal tag body .done).templates marker before.length parent next ++
        rest.templates marker
          ('`' :: (body.print.reverse ++ '`' ::
            ((Script.printTag tag).reverse ++ before))).length parent
          (next +
            ((Script.literal tag body .done).templates marker
              before.length parent next).length) := by
  have hStop : ('`' :: (body.print.reverse ++ '`' ::
      ((Script.printTag tag).reverse ++ before))).length =
        before.length + (Script.printTag tag).length + 1 + body.print.length + 1 := by
    simp
    omega
  simp only [Script.templates, List.append_nil, hStop]

mutual

/-- A script in front of a text: its own templates are found first, and then those of the text. -/
theorem Script.findsOn {marker : Text} (hMarker : marker ≠ []) {braces : Option Nat}
    {t u before : Text} (parent : Option Nat) (next : Nat) {found : List TaggedTemplate} :
    (script : Script) → script.fits before = true →
    FindsOn (WideText.ofText marker) braces t u (script.print.reverse ++ before) parent
      (next + (script.templates marker before.length parent next).length) found →
    FindsOn (WideText.ofText marker) braces (script.print ++ t) u before parent next
      (script.templates marker before.length parent next ++ found)
  | .done => by
    intro _ h
    exact h
  | .plain c hPlain rest => by
    intro hFits h
    simp only [Script.print, List.reverse_cons, List.append_assoc] at h
    exact (rest.findsOn hMarker parent next hFits h).plain hPlain
  | .group inside rest => by
    intro hFits h
    simp only [Script.fits, Bool.and_eq_true] at hFits
    have hOffset : before.length + 1 + inside.print.length + 1 =
        ('}' :: (inside.print.reverse ++ '{' :: before)).length := by
      simp
      omega
    simp only [Script.print, Script.templates, hOffset, List.length_append, ← Nat.add_assoc,
      List.reverse_cons, List.reverse_append, List.append_assoc, List.cons_append,
      List.nil_append] at h ⊢
    have hRest := rest.findsOn hMarker parent _ hFits.2 h
    exact (inside.findsOn hMarker parent next hFits.1 hRest.closeBrace).openBrace
  | .quoted string rest => by
    intro hFits h
    have hOffset : before.length + string.print.length =
        (string.print.reverse ++ before).length := by
      simp [Nat.add_comm]
    simp only [Script.print, Script.templates, hOffset, List.reverse_append,
      List.append_assoc] at h ⊢
    exact (rest.findsOn hMarker parent next hFits h).quoted string
  | .literal tag body rest => by
    intro hFits h
    simp only [Script.fits, Bool.and_eq_true] at hFits
    obtain ⟨⟨hTag, hBody⟩, hRest⟩ := hFits
    rw [Script.templates_literal tag body rest marker before] at h ⊢
    simp only [Script.print, List.length_append, ← Nat.add_assoc, List.reverse_cons,
      List.reverse_append, List.append_assoc, List.cons_append, List.nil_append] at h ⊢
    have hRest := rest.findsOn hMarker parent _ hRest h
    exact .plains isPlain_of_mem_printTag (.literal hMarker hTag rfl
      (fun parent next => body.exists_readAs hMarker _ parent next hBody) hRest)

theorem Script.Body.exists_readAs {marker : Text} (hMarker : marker ≠ []) {before : Text} (u : Text)
    (parent : Option Nat) (next : Nat) :
    (body : Script.Body) → body.fits before = true →
    ∃ literal, body.ReadAs marker before parent next (body.print ++ '`' :: u) u literal
  | .last text => by
    intro _
    exact ⟨_, .last text marker before u parent next⟩
  | .hole text code rest => by
    intro hFits
    simp only [Script.Body.fits, Bool.and_eq_true] at hFits
    obtain ⟨hCode, hRest⟩ := hFits
    have hPrint : (Script.Body.hole text code rest).print ++ '`' :: u =
        text.text ++ '$' :: '{' :: (code.print ++ '}' :: (rest.print ++ '`' :: u)) := by
      simp [Script.Body.print]
    obtain ⟨inside, hInside, hFound⟩ :=
      (code.findsOn hMarker parent next hCode (.stop (t := rest.print ++ '`' :: u))).finds .start
    obtain ⟨literal, hLiteral⟩ := rest.exists_readAs hMarker u parent
      (next + (code.templates marker ('{' :: '$' :: (text.text.reverse ++ before)).length parent
        next).length) hRest
    rw [List.append_nil] at hFound
    rw [hPrint]
    exact ⟨_, .hole rfl hInside hFound hLiteral⟩

end

/-! ## Whole scripts -/

namespace Script

/-- Lexing undoes writing: of a written script the lexer finds the literals that the marker marks,
with their places, holes and parents, whatever the script nests. -/
theorem templates_ofText_print (script : Script) (hFits : script.fits [] = true) (marker : Text)
    (hMarker : marker ≠ []) :
    (Code.ofText script.print).templates (WideText.ofText marker) =
      script.templates marker 0 none 0 := by
  have hEnd : FindsOn (WideText.ofText marker) none [] [] (script.print.reverse ++ []) none
      (0 + (script.templates marker 0 none 0).length) [] := .done
  obtain ⟨code, hReads, hFound⟩ := (script.findsOn hMarker none 0 hFits hEnd).finds .start
  rw [List.append_nil] at hReads hFound
  rw [hReads.ofText_eq]
  exact hFound

/-- A marked literal in an unmarked one in a marked one, in a group after a string that holds a
backtick. -/
theorem templates_ofText_print_nested : ∃ script : Script,
    script.print = r"{'`';html`a${ css `b${html`c`}` }d`}".toList ∧
      script.fits [] = true ∧
      (Code.ofText script.print).templates (WideText.ofText "html".toList) =
        [⟨0, "html".toList, 5, 9, 35,
            [⟨11, 33, r"css `b${html`c`}`".toList, 14⟩], none,
            r"a${ css `b${html`c`}` }d".toList⟩,
          ⟨1, "html".toList, 22, 26, 29, [], some 0, "c".toList⟩] := by
  let html : Tag := ⟨"html".toList, [], by simp, List.all_eq_true.mp (by decide), by simp⟩
  let css : Tag := ⟨"css".toList, [' '], by simp, List.all_eq_true.mp (by decide), by simp⟩
  let inner : Body :=
    .hole ⟨['b'], by simp, rfl⟩ (.literal html (.last ⟨['c'], by simp, rfl⟩) .done)
      (.last ⟨[], by simp, rfl⟩)
  let outer : Body :=
    .hole ⟨['a'], by simp, rfl⟩
      (.plain ' ' rfl (.literal css inner (.plain ' ' rfl .done))) (.last ⟨['d'], by simp, rfl⟩)
  let script : Script :=
    .group (.quoted ⟨'\'', ['`'], .inr rfl, by simp⟩
      (.plain ';' rfl (.literal html outer .done))) .done
  refine ⟨script, rfl, by decide, ?_⟩
  rw [templates_ofText_print script (by decide) "html".toList (by decide)]
  decide

end Script

end TemplateCheck
