import TemplateCheck.Proofs.Source.ImportFront
import TemplateCheck.Proofs.Source.Imports
import TemplateCheck.Proofs.Source.Strings

/-!
# What the mask shows behind an import statement

An import statement whose first word is code is read to its end as it stands there: its names, marks
and braces one by one, then its specifier as a string. The string ends with the specifier or, if a
backslash stands before the closing quote, with its line. In both cases a line break behind the
statement ends it, so what is written on the next line is code too (`exists_mask_line`), and what
stands before the statement is shown as before.
-/

namespace TemplateCheck

/-! ## How a mask begins -/

/-- After the end of a word that may go on in it, the mask of a text begins with
`shown`, in whatever context. -/
def StartsAs (braces : Option Nat) (t shown : Text) : Prop :=
  ∀ context, ∃ mask tail, Code.Shows context braces (t.dropWhile isNameChar) mask ∧
    t.takeWhile isNameChar ++ mask = shown ++ tail

namespace StartsAs

variable {braces : Option Nat} {c : Char} {s t shown : Text}

theorem nil (braces : Option Nat) (t : Text) : StartsAs braces t [] := by
  intro context
  obtain ⟨mask, hMask⟩ := Code.exists_shows context braces (t.dropWhile isNameChar)
  exact ⟨mask, _, hMask, rfl⟩

theorem shows (h : StartsAs braces t shown) (context : Context) :
    ∃ tail, Code.Shows context braces t (shown ++ tail) := by
  cases t with
  | nil =>
    obtain ⟨mask, tail, hShows, hMask⟩ := h context
    exact ⟨tail, hMask ▸ hShows⟩
  | cons c t =>
    by_cases hName : isNameChar c = true
    · obtain ⟨mask, tail, hShows, hMask⟩ :=
        h ⟨(c :: t.takeWhile isNameChar).getLast?, c :: t.takeWhile isNameChar⟩
      rw [List.dropWhile_cons_of_pos hName] at hShows
      rw [List.takeWhile_cons_of_pos hName] at hMask
      exact ⟨tail, hMask ▸ Code.Shows.lexeme (Lexeme.read_name hName context) (by simp)
        (by simp) hShows⟩
    · obtain ⟨mask, tail, hShows, hMask⟩ := h context
      rw [List.dropWhile_cons_of_neg hName] at hShows
      rw [List.takeWhile_cons_of_neg hName] at hMask
      exact ⟨tail, hMask ▸ hShows⟩

theorem of_shows (hName : isNameChar c = false)
    (h : ∀ context, ∃ tail, Code.Shows context braces (c :: t) (shown ++ tail)) :
    StartsAs braces (c :: t) shown := by
  have hNot : ¬ isNameChar c = true := by simp [hName]
  intro context
  obtain ⟨tail, hShows⟩ := h context
  rw [List.dropWhile_cons_of_neg hNot, List.takeWhile_cons_of_neg hNot]
  exact ⟨_, tail, hShows, rfl⟩

theorem name (hName : isNameChar c = true) (h : StartsAs braces t shown) :
    StartsAs braces (c :: t) (c :: shown) := by
  intro context
  obtain ⟨mask, tail, hShows, hMask⟩ := h context
  rw [List.dropWhile_cons_of_pos hName, List.takeWhile_cons_of_pos hName]
  exact ⟨mask, tail, hShows, congrArg (c :: ·) hMask⟩

theorem mark (hRead : ∀ context, Lexeme.read context c t = (.mark c, t))
    (hName : isNameChar c = false) (hGoesOn : ¬ (c = '}' ∧ braces = some 0))
    (h : StartsAs (bracesAfter braces c) t shown) : StartsAs braces (c :: t) (c :: shown) := by
  refine of_shows hName fun context => ?_
  obtain ⟨tail, hShows⟩ := h.shows (context.afterMark c)
  have hMark : ¬ (Lexeme.mark c = .mark '}' ∧ braces = some 0) :=
    fun hEnd => hGoesOn ⟨Lexeme.mark.inj hEnd.1, hEnd.2⟩
  exact ⟨tail, Code.Shows.lexeme (hRead context) (by simp) hMark hShows⟩

theorem plain (hs : ∀ c ∈ s, isPlain c = true) (h : StartsAs braces t shown) :
    StartsAs braces (s ++ t) (s ++ shown) := by
  induction s with
  | nil => exact h
  | cons c s ih =>
    obtain ⟨hc, hs⟩ := List.forall_mem_cons.mp hs
    cases hName : isNameChar c with
    | true => exact (ih hs).name hName
    | false =>
      obtain ⟨hOpen, hClose⟩ := ne_brace_of_isPlain hc
      refine mark (Lexeme.read_plain hc hName) hName (fun hEnd => hClose hEnd.1) ?_
      rw [bracesAfter, if_neg hOpen, if_neg hClose]
      exact ih hs

theorem braced (hs : ∀ c ∈ s, isPlain c = true) (h : StartsAs braces t shown) :
    StartsAs braces ('{' :: (s ++ '}' :: t)) ('{' :: (s ++ '}' :: shown)) := by
  have hInside : bracesAfter (bracesAfter braces '{') '}' = braces := by cases braces <;> rfl
  have hClose : StartsAs (bracesAfter braces '{') ('}' :: t) ('}' :: shown) := by
    refine mark (fun context => Lexeme.read_closingBrace context _) (by decide) ?_
      (hInside.symm ▸ h)
    rintro ⟨-, hNone⟩
    cases braces <;> cases hNone
  exact mark (fun context => Lexeme.read_openingBrace context _) (by decide) (by simp)
    (plain hs hClose)

end StartsAs

/-! ## Over a statement -/

theorem Lexeme.read_quote {quote : Char} {t u body : Text} (hQuote : Import.isQuote quote = true)
    (hEnd : quotedEnd quote t = (body, u)) (context : Context) :
    Lexeme.read context quote t = (.quoted (quote :: body), u) := by
  rw [(Lexeme.Cuts.quoted (Import.eq_of_isQuote hQuote)).read_eq, hEnd]

namespace Import

/-- Whether a character may stand between the words of a statement: of a name, a blank, a
comma, a star or a brace. -/
def isClauseChar (c : Char) : Bool := isNameChar c || isBlank c || c ∈ [',', '*', '{', '}']

theorem isPlain_of_isClauseChar {c : Char} (h : isClauseChar c = true) (hOpen : c ≠ '{')
    (hClose : c ≠ '}') :
    isPlain c = true := by
  rcases Bool.or_eq_true_iff.mp h with h | h
  · rcases Bool.or_eq_true_iff.mp h with hName | hBlank
    · exact isPlain_of_isNameChar hName
    · exact isPlain_of_isBlank hBlank
  · have hMem := of_decide_eq_true h
    simp only [List.mem_cons, List.not_mem_nil, or_false, hOpen, hClose] at hMem
    rcases hMem with rfl | rfl <;> rfl

/-- What stands in front of a specifier is shown as it is. -/
theorem Front.startsAs {braces : Option Nat} {front t shown : Text} (h : Front front)
    (hChars : ∀ c ∈ front, isClauseChar c = true) (ht : StartsAs braces t shown) :
    StartsAs braces (front ++ t) (front ++ shown) := by
  have hBare {c : Char} (hc : isClauseChar c = true) (hBare : isBare c = true) : isPlain c = true :=
    isPlain_of_isClauseChar hc (ne_of_class hBare (by decide)) (ne_of_class hBare (by decide))
  cases h with
  | bare hs => exact ht.plain fun c hc => hBare (hChars c hc) (hs c hc)
  | @list s names u hs hNames hu =>
    simp only [List.forall_mem_append, List.forall_mem_cons] at hChars
    obtain ⟨hBefore, -, hInside, -, hBehind⟩ := hChars
    have hNamesPlain : ∀ c ∈ names, isPlain c = true := fun c hc =>
      isPlain_of_isClauseChar (hInside c hc) (ne_of_class (hNames c hc) (by decide))
        (ne_of_class (hNames c hc) (by decide))
    have hRest := (ht.plain fun c hc => hBare (hBehind c hc) (hu c hc)).braced hNamesPlain
    have hAll := hRest.plain fun c hc => hBare (hBefore c hc) (hs c hc)
    simpa only [List.append_assoc, List.cons_append] using hAll

theorem exists_quotedEnd_line {quote : Char} {ending : Text}
    (h : ∀ c ∈ ending, c ≠ quote ∧ c ≠ '\\') (t : Text) (hQuote : quote ≠ '\n') :
    ∃ taken left, ending = taken ++ left ∧
      quotedEnd quote (ending ++ '\n' :: t) = (taken, left ++ '\n' :: t) := by
  have hBreak (t : Text) : quotedEnd quote ('\n' :: t) = ([], '\n' :: t) := by
    rw [quotedEnd_cons (by decide), if_neg hQuote.symm, if_pos rfl]
  induction ending with
  | nil => exact ⟨[], [], rfl, hBreak t⟩
  | cons c ending ih =>
    obtain ⟨⟨hNotQuote, hNotEscape⟩, hLater⟩ := List.forall_mem_cons.mp h
    by_cases hLine : c = '\n'
    · subst hLine
      exact ⟨[], _, rfl, hBreak _⟩
    · obtain ⟨taken, left, rfl, hEnd⟩ := ih hLater
      refine ⟨c :: taken, left, rfl, ?_⟩
      rw [List.cons_append, quotedEnd_cons hNotEscape, if_neg hNotQuote, if_neg hLine, hEnd]

/-- The string of a specifier ends with it, or in what stands behind it on its line. -/
theorem exists_quotedEnd_specifier {quote : Char} (hQuote : isQuote quote = true) {ending : Text}
    (hEnding : ∀ c ∈ ending, c ≠ quote ∧ c ≠ '\\') (t : Text) : (source : Text) →
    (∀ c ∈ source, Pattern.noneOf ['"', '\'', '\n'] c = true) →
    ∃ taken left, ending = taken ++ left ∧
      quotedEnd quote (source ++ quote :: (ending ++ '\n' :: t)) =
        (source ++ quote :: taken, left ++ '\n' :: t)
  | [], _ => by
    refine ⟨[], ending, rfl, ?_⟩
    rw [List.nil_append, quotedEnd_cons (ne_of_class hQuote (by decide)), if_pos rfl]
    rfl
  | c :: source, hSource => by
    obtain ⟨hFits, hLater⟩ := List.forall_mem_cons.mp hSource
    by_cases hEscape : c = '\\'
    · subst hEscape
      -- The character behind the backslash is taken with it, even the quote behind the specifier.
      cases source with
      | nil =>
        obtain ⟨taken, left, rfl, hEnd⟩ :=
          exists_quotedEnd_line hEnding t (ne_of_class hQuote (by decide))
        refine ⟨taken, left, rfl, ?_⟩
        rw [List.cons_append, List.nil_append, quotedEnd, hEnd]
        rfl
      | cons d source =>
        obtain ⟨taken, left, rfl, hEnd⟩ :=
          exists_quotedEnd_specifier hQuote hEnding t source (List.forall_mem_cons.mp hLater).2
        refine ⟨taken, left, rfl, ?_⟩
        rw [List.cons_append, List.cons_append, quotedEnd, hEnd]
        rfl
    · obtain ⟨taken, left, rfl, hEnd⟩ := exists_quotedEnd_specifier hQuote hEnding t source hLater
      have hNotQuote : c ≠ quote := by
        rcases eq_of_isQuote hQuote with rfl | rfl <;> exact ne_of_class hFits (by decide)
      refine ⟨taken, left, rfl, ?_⟩
      rw [List.cons_append, quotedEnd_cons hEscape, if_neg hNotQuote,
        if_neg (ne_of_class hFits (by decide)), hEnd]
      rfl

theorem exists_startsAs_specifier {braces : Option Nat} {quote : Char}
    {source ending t shown : Text} (hQuote : isQuote quote = true)
    (hSource : ∀ c ∈ source, Pattern.noneOf ['"', '\'', '\n'] c = true)
    (hEnding : ∀ c ∈ ending, isBlank c = true ∨ c = ';') (h : StartsAs braces t shown) :
    ∃ mask, mask.length = source.length + 2 + ending.length ∧
      StartsAs braces (quote :: (source ++ quote :: (ending ++ '\n' :: t)))
        (mask ++ '\n' :: shown) := by
  have hPlain : ∀ c ∈ ending, isPlain c = true :=
    fun c hc => (hEnding c hc).elim isPlain_of_isBlank fun h => h ▸ rfl
  have hNot : ∀ c ∈ ending, c ≠ quote ∧ c ≠ '\\' := by
    refine fun c hc => ⟨?_, ?_⟩
    · rcases eq_of_isQuote hQuote with rfl | rfl <;> exact ne_of_class (hPlain c hc) (by decide)
    · exact ne_of_class (hPlain c hc) (by decide)
  obtain ⟨taken, left, rfl, hEnd⟩ := exists_quotedEnd_specifier hQuote hNot t source hSource
  refine ⟨maskQuoted (quote :: (source ++ quote :: taken)) ++ left, ?_,
    .of_shows ?_ fun context => ?_⟩
  · simp only [List.length_append, length_maskQuoted, List.length_cons]
    omega
  · rcases eq_of_isQuote hQuote with rfl | rfl <;> decide
  · have hBehind : StartsAs braces (left ++ '\n' :: t) (left ++ '\n' :: shown) :=
      StartsAs.plain (fun c hc => hPlain c (List.mem_append_right taken hc))
        (h.plain (s := ['\n']) (by decide))
    obtain ⟨tail, hShows⟩ := hBehind.shows ⟨some quote, []⟩
    have hAll := Code.Shows.lexeme (Lexeme.read_quote hQuote hEnd context) (by simp)
      (by simp) hShows
    refine ⟨tail, ?_⟩
    simpa only [Lexeme.mask, List.append_assoc] using hAll

end Import

/-! ## The first word -/

theorem Lexeme.isNameChar_of_read_word {context : Context} {c : Char} {t u name : Text}
    (h : Lexeme.read context c t = (.word name, u)) : ∀ d ∈ name, isNameChar d = true := by
  cases Lexeme.cuts_iff.mpr h with
  | word hName => exact List.forall_mem_cons.mpr ⟨hName, fun d hd => List.mem_takeWhile_imp hd⟩

theorem StringBody.head?_rest {quote : Char} {content rest : Text}
    (h : StringBody quote content rest) :
    ∀ c ∈ rest.head?, c = quote ∨ c = '\n' := by
  induction h with
  | closed t =>
    rintro c ⟨⟩
    exact .inl rfl
  | line t =>
    rintro c ⟨⟩
    exact .inr rfl
  | cut => simp
  | lastBackslash => simp
  | escape c _ ih => exact ih
  | char _ _ _ _ ih => exact ih

theorem getElem?_map_hide_ne {t : Text} {c : Char} (hc : isInk c = true) (i : Nat) :
    (t.map Text.hide)[i]? ≠ some c := by
  intro h
  obtain ⟨d, -, hd⟩ := List.mem_map.mp (List.mem_of_getElem? h)
  exact ne_of_class hc (isInk_hide d) hd.symm

/-- Of what a string holds, the mask shows a character only if it is the last one. -/
theorem eq_of_getElem?_maskQuoted {quote c : Char} {t : Text} (hc : isInk c = true)
    (hQuote : c ≠ quote) {i : Nat} (h : (maskQuoted (quote :: t))[i]? = some c) :
    t.getLast? = some c ∧ i = t.length := by
  rcases List.eq_nil_or_concat t with rfl | ⟨hidden, last, rfl⟩
  · cases i with
    | zero => exact absurd (Option.some.inj h).symm hQuote
    | succ i => cases h
  · rw [List.concat_eq_append, maskQuoted_concat] at h
    rw [List.concat_eq_append, List.getLast?_concat, List.length_append, List.length_singleton]
    cases i with
    | zero => exact absurd (Option.some.inj h).symm hQuote
    | succ i =>
      rw [List.singleton_append, List.getElem?_cons_succ] at h
      rcases Nat.lt_or_ge i (hidden.map Text.hide).length with hInside | hEnd
      · rw [List.getElem?_append_left hInside] at h
        exact absurd h (getElem?_map_hide_ne hc i)
      · rw [List.getElem?_append_right hEnd, List.length_map] at h
        rw [List.length_map] at hEnd
        obtain ⟨hBound, hSame⟩ := List.getElem?_eq_some_iff.mp h
        rw [List.length_singleton] at hBound
        refine ⟨?_, by omega⟩
        rw [← hSame, List.getElem_singleton]

theorem StringBody.not_shown {quote c d : Char} {content later u : Text}
    (h : StringBody quote content later) (hQuote : quote = '"' ∨ quote = '\'')
    (hc : isNameChar c = true) (hd : isNameChar d = true) {i : Nat}
    (hShown : (maskQuoted (quote :: (content ++ closingQuote quote later)))[i]? = some c)
    (hText : (quote :: (content ++ later)).drop i = c :: d :: u) : False := by
  have hNotQuote : c ≠ quote := by
    rcases hQuote with rfl | rfl <;> exact ne_of_class hc (by decide)
  obtain ⟨hLast, rfl⟩ := eq_of_getElem?_maskQuoted (isInk_of_isNameChar hc) hNotQuote hShown
  by_cases hClosed : later.head? = some quote
  · rw [closingQuote_of_closed hClosed, List.getLast?_concat] at hLast
    exact hNotQuote (Option.some.inj hLast).symm
  · rw [closingQuote_of_open hClosed, List.append_nil] at hText
    have hBehind : (quote :: (content ++ later)).drop (content.length + 1) = later := by
      rw [List.drop_succ_cons, List.drop_left]
    have hNext := Text.drop_succ hText
    rw [hBehind] at hNext
    rw [hNext] at hClosed h
    rcases h.head?_rest d rfl with rfl | rfl
    · exact hClosed rfl
    · exact absurd hd (by decide)

/-- A name character that the mask shows with another one behind it is part of a word. -/
theorem Lexeme.exists_word_of_shown {context : Context} {a c d : Char} {s rest u : Text}
    {lexeme : Lexeme} {i : Nat} (hRead : Lexeme.read context a s = (lexeme, rest))
    (hc : isNameChar c = true) (hd : isNameChar d = true) (hShown : lexeme.mask[i]? = some c)
    (hText : (a :: s).drop i = c :: d :: u) : ∃ name, lexeme = .word name ∧ i < name.length := by
  cases lexeme with
  | comment text => exact absurd hShown (getElem?_map_hide_ne (isInk_of_isNameChar hc) i)
  | quoted text =>
    obtain ⟨hQuote, content, later, rfl, hBody, rfl⟩ := Lexeme.exists_stringBody hRead
    exact (hBody.not_shown hQuote hc hd hShown hText).elim
  | regex text =>
    obtain ⟨body, hBody, -⟩ := Lexeme.text_of_read hRead
    obtain rfl : text = a :: body := hBody
    cases i with
    | zero =>
      have hSlash : a = c := Option.some.inj hShown
      subst hSlash
      rw [Lexeme.read_name hc] at hRead
      cases hRead
    | succ i => exact absurd hShown (getElem?_map_hide_ne (isInk_of_isNameChar hc) i)
  | backtick =>
    cases i with
    | zero => exact absurd (Option.some.inj hShown).symm (ne_of_class hc (by decide))
    | succ i => cases hShown
  | word name => exact ⟨name, rfl, (List.getElem?_eq_some_iff.mp hShown).1⟩
  | mark b =>
    obtain ⟨body, hBody, -⟩ := Lexeme.text_of_read hRead
    obtain rfl : b = a := (List.cons.inj hBody).1
    cases i with
    | zero =>
      have hMark : b = c := Option.some.inj hShown
      subst hMark
      rw [Lexeme.read_name hc] at hRead
      cases hRead
    | succ i => cases hShown

/-! ## The next line -/

theorem exists_passes_of_code {before later : Text}
    (hCode : (Code.ofText (before ++ 'i' :: 'm' :: later)).mask[before.length]? = some 'i') :
    ∃ first part shown context braces, before = first ++ part ∧ (∀ d ∈ part, isPlain d = true) ∧
      Passes (Code.Shows .start none) (Code.Shows context braces) first shown
        (part ++ 'i' :: 'm' :: later) := by
  obtain ⟨start, lexeme, i,
    ⟨first, shown, context, braces, c, s, u, hSplit, hStart, hRead, -, hPasses⟩, hOffset, hShown⟩ :=
      Text.exists_lexemeAt_of_shown (by decide) hCode
  rw [Nat.zero_add] at hStart
  obtain ⟨part, rfl⟩ : first <+: before :=
    List.prefix_of_prefix_length_le ⟨_, hSplit.symm⟩ ⟨_, rfl⟩ (by omega)
  rw [List.append_assoc] at hSplit
  have hHere : part ++ 'i' :: 'm' :: later = c :: s := List.append_cancel_left hSplit
  have hPart : part.length = i := by
    rw [List.length_append] at hOffset
    omega
  have hText : (c :: s).drop i = 'i' :: 'm' :: later := by
    rw [← hHere, ← hPart, List.drop_left]
  obtain ⟨name, rfl, hInside⟩ :=
    Lexeme.exists_word_of_shown hRead (by decide) (by decide) hShown hText
  have hPrefix : part <+: name := by
    have hName : name ++ u = c :: s := Lexeme.text_append hRead
    exact List.prefix_of_prefix_length_le ⟨_, hHere⟩ ⟨_, hName⟩ (by omega)
  exact ⟨first, part, shown, context, braces, rfl, fun d hd =>
    isPlain_of_isNameChar (Lexeme.isNameChar_of_read_word hRead d (hPrefix.subset hd)),
    hHere ▸ hPasses⟩

/-- Where a statement that begins as code stands in a text, another text may follow it on the next
line: what the mask shows up to the first letter of the statement stays, and the text on the next
line is read as it would be everywhere. -/
theorem Import.exists_mask_line {before front rest source ending t shown : Text} {quote : Char}
    (hFront : Import.Front front) (hChars : ∀ c ∈ front, Import.isClauseChar c = true)
    (hWord : ∃ later, front = 'i' :: 'm' :: later) (hQuote : Import.isQuote quote = true)
    (hSource : ∀ c ∈ source, Pattern.noneOf ['"', '\'', '\n'] c = true)
    (hEnding : ∀ c ∈ ending, isBlank c = true ∨ c = ';')
    (hCode : (Code.ofText (before ++ (front ++ rest))).mask[before.length]? = some 'i')
    (h : ∀ braces, StartsAs braces t shown) : ∃ mask tail,
      mask.length = before.length + front.length + (source.length + 2 + ending.length) ∧
      (Code.ofText (before ++
        (front ++ quote :: (source ++ quote :: (ending ++ '\n' :: t))))).mask =
        mask ++ '\n' :: (shown ++ tail) ∧
      ∀ i ≤ before.length, mask[i]? = (Code.ofText (before ++ (front ++ rest))).mask[i]? := by
  obtain ⟨later, rfl⟩ := hWord
  obtain ⟨first, part, shown', context, braces, rfl, hPlain, hPasses⟩ := exists_passes_of_code hCode
  obtain ⟨string, hLength, hSpecifier⟩ :=
    exists_startsAs_specifier hQuote hSource hEnding (h braces)
  have hOld : StartsAs braces (part ++ ('i' :: 'm' :: later ++ rest)) (part ++ ['i']) :=
    .plain hPlain (.name (by decide) (.nil _ _))
  have hNew := (hFront.startsAs hChars hSpecifier).plain hPlain
  have hSame (t : Text) :
      Resembles (part ++ 'i' :: 'm' :: (later ++ rest)) (part ++ ('i' :: 'm' :: later ++ t)) :=
    (Resembles.cons 'i' _ _).append part
  obtain ⟨tail, hOld⟩ := hOld.shows context
  obtain ⟨tail', hOld⟩ := hPasses.shows _ _ (hSame _) hOld
  obtain ⟨behind, hNew⟩ := hNew.shows context
  obtain ⟨behind', hNew⟩ := hPasses.shows _ _ (hSame _) hNew
  have hShownLength := hPasses.length_eq
  refine ⟨shown' ++ (part ++ ('i' :: 'm' :: later ++ string)), behind ++ behind', ?_,
    ?_, fun j hj => ?_⟩
  · simp only [List.length_append, List.length_cons]
    omega
  · have hMask := hNew.ofText_mask
    rw [List.append_assoc, hMask]
    simp only [List.append_assoc, List.cons_append]
  · have hMask := hOld.ofText_mask
    have hBound : j < (shown' ++ (part ++ ['i'])).length := by
      simp only [List.length_append, List.length_singleton] at hj ⊢
      omega
    have hLeft : shown' ++ (part ++ ('i' :: 'm' :: later ++ string)) =
        (shown' ++ (part ++ ['i'])) ++ ('m' :: later ++ string) := by
      simp only [List.append_assoc, List.cons_append, List.nil_append]
    have hRight : shown' ++ ((part ++ ['i'] ++ tail) ++ tail') =
        (shown' ++ (part ++ ['i'])) ++ (tail ++ tail') := by
      simp only [List.append_assoc]
    rw [List.append_assoc first, hMask, hLeft, hRight, List.getElem?_append_left hBound,
      List.getElem?_append_left hBound]

end TemplateCheck
