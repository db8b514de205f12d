import TemplateCheck.Proofs.Text.Group
import TemplateCheck.Proofs.Text.Parts
import TemplateCheck.Proofs.TypeText.Resolution

/-!
# Shapes of type texts

Whether a text is a literal, an array, a function, a union or a name is read off the text in several
ways: by patterns, by its first and last characters, by counting brackets. For two kinds of texts
all these readings are settled here.

1. An atom (`AtomText`) is a primitive type or a literal: letters, digits, quotes and a few signs.
2. The text of an element type (`ElementText`) closes its own brackets and cannot be taken for a
   function or a group. Atoms are such texts (`AtomText.elementText`), and so are two of them with a
   bar between them (`ElementText.barred`).
-/

namespace TemplateCheck

namespace TypeText

open Text

/-! ## Characters -/

/-- The characters of primitive types and of literals. -/
def isAtomChar (c : Char) : Bool :=
  isAlphanumeric c || isDecimal c || c ∈ ['-', '+', '.', '_', '"', '\'']

/-- The characters of atoms, of array types and of unions. -/
def isElementChar (c : Char) : Bool :=
  isAtomChar c || c ∈ ['(', ')', '[', ']', '<', '>', ' ', '|']

theorem isElementChar_of_isAtomChar {c : Char} (h : isAtomChar c = true) :
    isElementChar c = true := by
  rw [isElementChar, h, Bool.true_or]

theorem isAtomChar_of_mem_blankCodes : ∀ n ∈ blankCodes, isAtomChar (Char.ofNat n) = false := by
  decide +kernel

theorem isBlank_of_isAtomChar {c : Char} (h : isAtomChar c = true) : isBlank c = false := by
  cases hBlank : isBlank c with
  | false => rfl
  | true =>
    have hNot := isAtomChar_of_mem_blankCodes c.toNat (toNat_mem_blankCodes hBlank)
    rw [Char.ofNat_toNat, h] at hNot
    cases hNot

theorem nesting_of_isAtomChar {c : Char} (h : isAtomChar c = true) : nesting none c = 0 :=
  nesting_of_class h (by decide) none

/-! ## Normal forms -/

/-- A text collapsed and trimmed is in normal form if it does not end in a semicolon or
begin with a bar. -/
theorem normalize_eq_of_trim_collapse {s t : Text} (h : trim (collapse s) = t)
    (hLast : t.getLast? ≠ some ';') (hHead : t.head? ≠ some '|') : normalize s = t := by
  have hTrimmed : t.Trimmed := h ▸ trimmed_trim (collapse s)
  have hSemicolon : dropRightWhile (· = ';') t = t := by
    refine dropRightWhile_eq_self fun c hc => decide_eq_false ?_
    rintro rfl
    exact hLast hc
  unfold normalize
  rw [h, hSemicolon, hTrimmed.trim_eq]
  dsimp only
  split
  · exact absurd rfl hHead
  · rfl

theorem normalize_eq_of_collapse {s t : Text} (hCollapse : collapse s = t) (hTrimmed : t.Trimmed)
    (hLast : t.getLast? ≠ some ';') (hHead : t.head? ≠ some '|') : normalize s = t := by
  refine normalize_eq_of_trim_collapse ?_ hLast hHead
  rw [hCollapse, hTrimmed.trim_eq]

theorem of_normalize_eq_self {t : Text} (h : normalize t = t) :
    collapse t = t ∧ t.Trimmed ∧ t.getLast? ≠ some ';' ∧ t.head? ≠ some '|' := by
  -- Each step of the normal form shortens the text or leaves it as it is.
  have hDropped := dropRightWhile_sublist (· = ';') (trim (collapse t))
  have hTrimmed := trim_sublist (dropRightWhile (· = ';') (trim (collapse t)))
  have hNormal : (normalize t).Sublist (trim (dropRightWhile (· = ';') (trim (collapse t)))) := by
    unfold normalize
    dsimp only
    split
    · next rest hBar =>
      rw [hBar]
      exact (trim_sublist rest).trans (List.sublist_cons_self _ _)
    · exact List.Sublist.refl _
  rw [h] at hNormal
  have hWithin := (hNormal.trans hTrimmed).trans hDropped
  have hCollapse : collapse t = t :=
    ((hWithin.trans (trim_sublist _)).eq_of_length_le (length_collapseFrom_le false t)).symm
  rw [hCollapse] at hDropped hTrimmed hNormal hWithin
  have hTrim : trim t = t := (trim_sublist t).antisymm hWithin
  rw [hTrim] at hDropped hTrimmed hNormal
  have hDrop : dropRightWhile (· = ';') t = t := hDropped.antisymm (hNormal.trans hTrimmed)
  refine ⟨hCollapse, ?_, fun hLast => ?_, fun hHead => ?_⟩
  · have hEnds := trimmed_trim t
    rwa [hTrim] at hEnds
  · have hNot := getLast?_dropRightWhile_not (· = ';') t
    rw [hDrop] at hNot
    exact absurd (hNot ';' hLast) (by decide)
  · obtain ⟨rest, rfl⟩ := List.head?_eq_some_iff.mp hHead
    unfold normalize at h
    rw [hCollapse, hTrim, hDrop, hTrim] at h
    have hShorter := (trim_sublist rest).length_le
    rw [show trim rest = '|' :: rest from h] at hShorter
    exact absurd hShorter (Nat.not_succ_le_self _)

/-! ## What the patterns have read -/

/-- An array type with its name is the name, blanks, and the element type in angle brackets. -/
theorem exists_of_genericArray {inside : Char → Bool} {t : Text} {found : Pattern.Match Unit}
    (h : (genericArray inside).readStart t = some found) :
    ∃ word blanks rest : Text, t = word ++ (blanks ++ '<' :: (found.text () ++ '>' :: rest)) ∧
      (word = "Array".toList ∨ word = "ReadonlyArray".toList) ∧ (∀ c ∈ blanks, isBlank c = true) ∧
      (rest = [] ∨ rest = ['\n']) := by
  obtain ⟨last, hReads, rfl⟩ := Pattern.exists_reads_of_readAt h
  obtain ⟨a, hReadonly, hReads⟩ := hReads.seq_inv
  obtain ⟨b, hArray, hReads⟩ := hReads.seq_inv
  obtain ⟨c, hBlanks, hReads⟩ := hReads.seq_inv
  obtain ⟨d, hOpen, hReads⟩ := hReads.seq_inv
  obtain ⟨e, hElement, hReads⟩ := hReads.seq_inv
  obtain ⟨f, hClose, hReads⟩ := hReads.seq_inv
  obtain ⟨g, hEnd, hEmpty⟩ := hReads.seq_inv
  obtain ⟨blanks, hAfterBlanks, hBlank, -⟩ := hBlanks.span_inv
  obtain ⟨_, element, record, -, hAfterElement, -, hRecord, -, hText⟩ := hElement.capture_inv
  obtain ⟨hAfterClose, hCaptures⟩ := hClose.lit_inv
  obtain ⟨hEq, hRest⟩ := hEnd.rest_of_atEnd
  cases hEmpty
  subst hEq
  have hFound : (Pattern.Match.mk 0 last.offset last.captures).text () = element := by
    rw [hCaptures, hRecord]
    exact hText
  rw [hFound]
  have hTail : a.rest = "Array".toList ++ (blanks ++ '<' :: (element ++ '>' :: last.rest)) := by
    rw [hArray.lit_inv.1, hAfterBlanks, hOpen.lit_inv.1, hAfterElement, hAfterClose]
    rfl
  rcases hReadonly.opt_inv with hReadonly | rfl
  · refine ⟨"ReadonlyArray".toList, blanks, last.rest, ?_, .inr rfl, hBlank, hRest⟩
    rw [show t = _ from hReadonly.lit_inv.1, hTail]
    rfl
  · exact ⟨"Array".toList, blanks, last.rest, hTail, .inl rfl, hBlank, hRest⟩

theorem isAtomChar_of_isDecimal {c : Char} (h : isDecimal c = true) : isAtomChar c = true := by
  rw [isAtomChar, h, Bool.or_true, Bool.true_or]

theorem isAtomChar_of_mem {c : Char} {signs : Text} (hSigns : signs.all isAtomChar = true)
    (h : decide (c ∈ signs) = true) : isAtomChar c = true :=
  List.all_eq_true.mp hSigns c (decide_eq_true_iff.mp h)

theorem numberLiteral_within : numberLiteral.Within fun c => isAtomChar c = true := by
  have hSign : ∀ c, isAtomChar c = true →
      (Pattern.lit [c] : Pattern Unit).Within fun c => isAtomChar c = true := by
    intro c hc d hd
    rwa [List.mem_singleton.mp hd]
  have hDecimal : ∀ c, isDecimal c = true → isAtomChar c = true := fun _ => isAtomChar_of_isDecimal
  have hDigit : ∀ c, (isDecimal c || decide (c ∈ "abcdefABCDEF_".toList)) = true →
      isAtomChar c = true := fun c hc => (Bool.or_eq_true_iff.mp hc).elim (hDecimal c)
    (isAtomChar_of_mem (by decide))
  have hGrouped : ∀ c, (isDecimal c || decide (c = '_')) = true → isAtomChar c = true := by
    intro c hc
    rcases Bool.or_eq_true_iff.mp hc with hc | hc
    · exact hDecimal c hc
    · rw [decide_eq_true_iff.mp hc]
      decide
  exact ⟨⟨hSign '-' (by decide), trivial⟩,
    ⟨⟨hSign '0' (by decide), fun _ => isAtomChar_of_mem (by decide), ⟨hDigit, hDigit⟩, trivial⟩,
      ⟨hDecimal, hGrouped, ⟨⟨hSign '.' (by decide), hDecimal⟩, trivial⟩,
        ⟨⟨fun _ => isAtomChar_of_mem (by decide), ⟨fun _ => isAtomChar_of_mem (by decide), trivial⟩,
          ⟨hDecimal, hDecimal⟩, trivial⟩, trivial⟩, trivial⟩,
      hSign '.' (by decide), hDecimal, hDecimal⟩,
    ⟨hSign 'n' (by decide), trivial⟩, trivial, trivial⟩

theorem isAtomChar_of_isNumberLiteral {t : Text} (h : isNumberLiteral t = true) {c : Char}
    (hc : c ∈ t) : isAtomChar c = true ∨ c = '\n' := by
  obtain ⟨last, hReads⟩ := Pattern.exists_reads_of_accepts h
  obtain ⟨read, hRead, -, hChars⟩ := hReads.exists_passed_within numberLiteral_within
  obtain ⟨a, -, hReads⟩ := hReads.seq_inv
  obtain ⟨b, -, hReads⟩ := hReads.seq_inv
  obtain ⟨d, -, hReads⟩ := hReads.seq_inv
  obtain ⟨e, hEnd, hEmpty⟩ := hReads.seq_inv
  obtain ⟨hEq, hRest⟩ := hEnd.rest_of_atEnd
  cases hEmpty
  subst hEq
  rw [show t = _ from hRead, List.mem_append] at hc
  rcases hc with hc | hc
  · exact .inl (hChars c hc)
  · rcases hRest with hRest | hRest
    · rw [hRest] at hc
      cases hc
    · rw [hRest] at hc
      exact .inr (List.mem_singleton.mp hc)

/-! ## Pieces -/

/-- A text that keeps to itself: it closes its own brackets, no blank stands at its ends, and
collapsing leaves it as it is. -/
structure Piece (t : Text) : Prop where
  balanced : t.Balanced
  closes : ClosesParens t
  trimmed : t.Trimmed
  ne_nil : t ≠ []
  chars : ∀ c ∈ t, isElementChar c = true
  collapsed : ∀ pending, collapseFrom pending t = t

namespace Piece

variable {s t : Text}

theorem pendingAfter_eq (h : Piece t) (pending : Bool) : pendingAfter pending t = false := by
  unfold pendingAfter
  rw [List.getLast?_eq_some_getLast h.ne_nil]
  exact h.trimmed.last _ (List.getLast?_eq_some_getLast h.ne_nil)

theorem of_forall (hNonempty : t ≠ []) (h : ∀ c ∈ t, isAtomChar c = true) : Piece t where
  balanced := .of_forall (fun c hc => nesting_of_isAtomChar (h c hc)) fun hMem =>
    ne_of_class (h _ hMem) (d := '=') (by decide) rfl
  closes := .of_forall fun c hc =>
    ⟨ne_of_class (h c hc) (by decide), ne_of_class (h c hc) (by decide)⟩
  trimmed := ⟨fun c hc => isBlank_of_isAtomChar (h c (List.mem_of_mem_head? hc)),
    fun c hc => isBlank_of_isAtomChar (h c (List.mem_of_getLast? hc))⟩
  ne_nil := hNonempty
  chars c hc := isElementChar_of_isAtomChar (h c hc)
  collapsed := collapseFrom_eq_self fun c hc => isBlank_of_isAtomChar (h c hc)

theorem append (hs : Piece s) (ht : Piece t) : Piece (s ++ t) where
  balanced := hs.balanced.append ht.balanced
  closes := hs.closes.append ht.closes
  trimmed := by
    refine ⟨fun c hc => ?_, fun c hc => ?_⟩
    · rw [List.head?_append_of_ne_nil _ hs.ne_nil] at hc
      exact hs.trimmed.head c hc
    · rw [List.getLast?_append_of_ne_nil _ ht.ne_nil] at hc
      exact ht.trimmed.last c hc
  ne_nil := List.append_ne_nil_of_left_ne_nil hs.ne_nil t
  chars c hc := (List.mem_append.mp hc).elim (hs.chars c) (ht.chars c)
  collapsed pending := by rw [collapseFrom_append, hs.collapsed, ht.collapsed]

theorem spaced (hs : Piece s) (ht : Piece t) : Piece (s ++ ' ' :: t) where
  balanced := hs.balanced.append ((balanced_of_blanks (t := [' ']) (by decide)).append ht.balanced)
  closes := hs.closes.append ((ClosesParens.of_forall (t := [' ']) (by decide)).append ht.closes)
  trimmed := by
    refine ⟨fun c hc => ?_, fun c hc => ?_⟩
    · rw [List.head?_append_of_ne_nil _ hs.ne_nil] at hc
      exact hs.trimmed.head c hc
    · rw [List.append_cons, List.getLast?_append_of_ne_nil _ ht.ne_nil] at hc
      exact ht.trimmed.last c hc
  ne_nil := List.append_ne_nil_of_left_ne_nil hs.ne_nil _
  chars c hc := by
    rcases List.mem_append.mp hc with hc | hc
    · exact hs.chars c hc
    · rcases List.mem_cons.mp hc with rfl | hc
      · decide
      · exact ht.chars c hc
  collapsed pending := by
    rw [collapseFrom_append, hs.collapsed, hs.pendingAfter_eq, collapseFrom, if_pos (by decide),
      if_neg Bool.false_ne_true, ht.collapsed]

theorem enclosed (h : Piece t) {opening closing : Char} (hOpening : nesting none opening = 1)
    (hClosing : nesting none closing = -1) (hCloses : ClosesParens (opening :: t ++ [closing]))
    (hOpeningChar : isElementChar opening = true ∧ isBlank opening = false)
    (hClosingChar : isElementChar closing = true ∧ isBlank closing = false) :
    Piece (opening :: t ++ [closing]) where
  balanced := h.balanced.enclosed hOpening hClosing
  closes := hCloses
  trimmed := by
    refine ⟨fun c hc => ?_, fun c hc => ?_⟩
    · rw [← Option.mem_some.mp hc]
      exact hOpeningChar.2
    · rw [List.getLast?_concat] at hc
      rw [← Option.mem_some.mp hc]
      exact hClosingChar.2
  ne_nil := List.cons_ne_nil _ _
  chars c hc := by
    rcases List.mem_append.mp hc with hc | hc
    · rcases List.mem_cons.mp hc with rfl | hc
      · exact hOpeningChar.1
      · exact h.chars c hc
    · rw [List.mem_singleton.mp hc]
      exact hClosingChar.1
  collapsed pending := by
    rw [List.cons_append, collapseFrom, hOpeningChar.2, if_neg Bool.false_ne_true,
      collapseFrom_append, h.collapsed, collapseFrom, hClosingChar.2, if_neg Bool.false_ne_true,
      collapseFrom]

theorem group (h : Piece t) : Piece ('(' :: t ++ [')']) :=
  h.enclosed rfl rfl h.closes.group (by decide) (by decide)

theorem angled (h : Piece t) : Piece ('<' :: t ++ ['>']) := by
  refine h.enclosed rfl rfl ?_ (by decide) (by decide)
  exact ((ClosesParens.of_forall (t := ['<']) (by decide)).append h.closes).append
    (.of_forall (by decide))

theorem brackets : Piece "[]".toList where
  balanced := show Balanced ('[' :: [] ++ [']']) from Balanced.nil.enclosed rfl rfl
  closes := .of_forall (by decide)
  trimmed := ⟨by decide, by decide⟩
  ne_nil := by decide
  chars := by decide
  collapsed := by decide

theorem bar : Piece ['|'] where
  balanced := .of_forall (by decide) (by decide)
  closes := .of_forall (by decide)
  trimmed := ⟨by decide, by decide⟩
  ne_nil := by decide
  chars := by decide
  collapsed := by decide

end Piece

/-! ## Settled readings -/

theorem mem_of_mem_surfaceFrom {c : Char} {quote : Option Char} {depth : Int} {t : Text}
    (h : c ∈ surfaceFrom quote depth t) : c ∈ t ∨ c = ' ' := by
  induction t generalizing quote depth with
  | nil => cases h
  | cons d t ih =>
    have hLater : ∀ {quote depth}, c ∈ surfaceFrom quote depth t → c ∈ d :: t ∨ c = ' ' := fun h =>
      (ih h).imp_left (List.mem_cons_of_mem d)
    unfold surfaceFrom at h
    split at h
    · exact (List.mem_cons.mp h).elim .inr hLater
    · split at h
      · exact (List.mem_cons.mp h).elim .inr hLater
      · rcases List.mem_cons.mp h with hHead | h
        · refine (ite_eq_or_eq _ d ' ').imp (fun hEq => ?_) hHead.trans
          exact (hHead.trans hEq) ▸ List.mem_cons_self
        · exact hLater h

theorem isFunction_eq_false {t : Text} (hEquals : '=' ∉ t) (hNew : startsWith "new " t = false)
    (hHead : t.head? ≠ some '<') : isFunction t = false := by
  have hArrow : contains "=>" (surface t) = false := by
    refine contains_eq_false (c := '=') (by decide) fun hMem => ?_
    rcases mem_of_mem_surfaceFrom hMem with hMem | hMem
    · exact hEquals hMem
    · cases hMem
  have hGeneric : genericParameters.accepts t = false := by
    refine Bool.eq_false_iff.mpr fun h => hHead ?_
    obtain ⟨last, hReads⟩ := Pattern.exists_reads_of_accepts h
    obtain ⟨a, hOpen, -⟩ := hReads.seq_inv
    rw [show t = _ from hOpen.lit_inv.1]
    rfl
  rw [isFunction, hArrow, hNew, hGeneric, Bool.and_false]
  rfl

theorem isArray_eq_false {t : Text} (hLast : t.getLast? ≠ some ']') (hAngle : '<' ∉ t)
    (hReadonly : startsWith "readonly " t = false) : isArray t = false := by
  have hBrackets : endsWith "[]" t = false := by
    refine Bool.eq_false_iff.mpr fun h => hLast ?_
    obtain ⟨before, hBefore⟩ := Option.isSome_iff_exists.mp h
    rw [eq_append_of_dropEnd? hBefore, List.getLast?_append]
    rfl
  have hGeneric : (genericArray Pattern.inLine).accepts t = false := by
    refine Bool.eq_false_iff.mpr fun h => hAngle ?_
    obtain ⟨found, hFound⟩ := Option.isSome_iff_exists.mp h
    obtain ⟨word, blanks, rest, hEq, -⟩ := exists_of_genericArray hFound
    rw [hEq]
    simp
  rw [isArray, hBrackets, hGeneric, show (afterReadonly? t).isSome = false from hReadonly]
  rfl

theorem literalKind?_eq_none_of_last {t : Text} {c : Char} (hLast : t.getLast? = some c)
    (hc : c ∈ [']', '>']) : literalKind? t = none := by
  have hNe : ∀ d ∉ [']', '>'], c ≠ d := fun d hd hEq => hd (hEq ▸ hc)
  have hAtom : isAtomChar c = false := by
    rcases List.mem_pair.mp hc with rfl | rfl <;> decide
  have hString : isStringLiteral t = false := by
    cases t with
    | nil => rfl
    | cons quote t =>
      cases hTail : t.getLast? with
      | none =>
        obtain rfl := List.getLast?_eq_none_iff.mp hTail
        simp [isStringLiteral]
      | some d =>
        rw [List.getLast?_cons, hTail] at hLast
        obtain rfl : d = c := Option.some.inj hLast
        rw [isStringLiteral,
          if_neg (by rw [hTail]; exact fun h => hNe '\n' (by decide) (Option.some.inj h)), hTail]
        by_cases hQuote : quote = '"' ∨ quote = '\''
        · have hOther : ¬ some d = some quote := by
            rintro ⟨⟩
            rcases hQuote with hQuote | hQuote
            · exact hNe _ (by decide) hQuote
            · exact hNe _ (by decide) hQuote
          rw [decide_eq_false hOther, Bool.and_false, Bool.false_and]
        · obtain ⟨hDouble, hSingle⟩ := not_or.mp hQuote
          rw [decide_eq_false hDouble, decide_eq_false hSingle]
          rfl
  have hTemplate : isTemplateLiteral t = false := by
    unfold isTemplateLiteral
    rw [hLast, decide_eq_false (p := some c = _) fun h =>
      hNe '`' (by decide) (Option.some.inj h), Bool.and_false]
  have hNumber : isNumberLiteral t = false := by
    refine Bool.eq_false_iff.mpr fun h => ?_
    rcases isAtomChar_of_isNumberLiteral h (List.mem_of_getLast? hLast) with h | h
    · rw [h] at hAtom
      cases hAtom
    · exact hNe '\n' (by decide) h
  have hBoolean : ¬ (t = "true" ∨ t = "false") := by
    rintro (rfl | rfl)
    · exact hNe 'e' (by decide) (Option.some.inj hLast).symm
    · exact hNe 'e' (by decide) (Option.some.inj hLast).symm
  rw [literalKind?, hString, hTemplate, hNumber, if_neg hBoolean]
  rfl

/-! ## Elements -/

/-- A type text that can be written into an array type and found there again. -/
structure ElementText (t : Text) : Prop extends Piece t where
  head_not_mem : ∀ c ∈ t.head?, c ∉ ['<', '|']
  last_ne : t.getLast? ≠ some ')'
  not_new : startsWith "new " t = false

namespace ElementText

variable {t : Text}

theorem stripParens_eq (h : ElementText t) : stripParens t = t :=
  stripParens_eq_self h.trimmed h.last_ne

theorem isFunction_eq (h : ElementText t) : isFunction t = false := by
  refine isFunction_eq_false (fun hMem => absurd (h.chars _ hMem) (by decide)) h.not_new ?_
  exact fun hHead => h.head_not_mem _ hHead (by decide)

theorem normalize_eq (h : ElementText t) : normalize t = t := by
  refine normalize_eq_of_collapse (h.collapsed false) h.trimmed (fun hLast => ?_) fun hHead => ?_
  · exact absurd (h.chars _ (List.mem_of_getLast? hLast)) (by decide)
  · exact absurd (List.mem_cons_of_mem _ List.mem_cons_self) (h.head_not_mem '|' hHead)

theorem barred {s t : Text} (hs : ElementText s) (hNew : s ≠ "new") (ht : ElementText t) :
    ElementText (s ++ ' ' :: '|' :: ' ' :: t) where
  toPiece := hs.toPiece.spaced (Piece.bar.spaced ht.toPiece)
  head_not_mem := by
    rw [List.head?_append_of_ne_nil _ hs.ne_nil]
    exact hs.head_not_mem
  last_ne := by
    have hLast : (s ++ ' ' :: '|' :: ' ' :: t).getLast? = t.getLast? := by
      rw [show s ++ ' ' :: '|' :: ' ' :: t = s ++ [' ', '|', ' '] ++ t by simp,
        List.getLast?_append_of_ne_nil _ ht.ne_nil]
    rw [hLast]
    exact ht.last_ne
  not_new := startsWith_word_append "new" (by decide) hs.not_new hNew

theorem join {parts : List Text} (hNonempty : parts ≠ [])
    (h : ∀ part ∈ parts, ElementText part ∧ part ≠ "new") : ElementText (join " | " parts) := by
  induction parts with
  | nil => exact absurd rfl hNonempty
  | cons part parts ih =>
    obtain ⟨hPart, hParts⟩ := List.forall_mem_cons.mp h
    cases parts with
    | nil => exact hPart.1
    | cons next parts =>
      have hText := hPart.1.barred hPart.2 (ih (List.cons_ne_nil _ _) hParts)
      rw [Text.join, List.append_assoc]
      · exact hText
      · simp

end ElementText

/-- The members of a union that is written with bars are found again. -/
theorem unionParts_join {parts : List Text} (hNonempty : parts ≠ [])
    (hParts : ∀ part ∈ parts, part.IsPart '|') : unionParts (Text.join " | " parts) = parts := by
  have hBlank : ∀ c ∈ [' '], isBlank c = true := by decide
  exact topLevelParts_join rfl (by decide) (by decide) hBlank hBlank hNonempty hParts

/-! ## Atoms -/

/-- A text of letters, digits, quotes and signs that is not a word of the type grammar. -/
structure AtomText (t : Text) : Prop where
  ne_nil : t ≠ []
  chars : ∀ c ∈ t, isAtomChar c = true
  ne_new : t ≠ "new"
  ne_readonly : t ≠ "readonly"

namespace AtomText

variable {t : Text}

theorem not_mem (h : AtomText t) {c : Char} (hc : isAtomChar c = false) : c ∉ t := fun hMem =>
  ne_of_class (h.chars c hMem) hc rfl

theorem last_ne (h : AtomText t) {c : Char} (hc : isAtomChar c = false) : t.getLast? ≠ some c :=
  fun hLast => h.not_mem hc (List.mem_of_getLast? hLast)

theorem piece (h : AtomText t) : Piece t := .of_forall h.ne_nil h.chars

theorem elementText (h : AtomText t) : ElementText t where
  toPiece := h.piece
  head_not_mem c hc hMem := by
    have hAtom := h.chars c (List.mem_of_mem_head? hc)
    rcases List.mem_pair.mp hMem with rfl | rfl <;> exact absurd hAtom (by decide)
  last_ne := h.last_ne (by decide)
  not_new := startsWith_eq_false_of_not_mem (c := ' ') (by decide) (h.not_mem (by decide))

theorem not_readonly (h : AtomText t) : startsWith "readonly " t = false :=
  startsWith_eq_false_of_not_mem (c := ' ') (by decide) (h.not_mem (by decide))

theorem isArray_eq (h : AtomText t) : isArray t = false :=
  isArray_eq_false (h.last_ne (by decide)) (h.not_mem (by decide)) h.not_readonly

end AtomText

end TypeText

end TemplateCheck
