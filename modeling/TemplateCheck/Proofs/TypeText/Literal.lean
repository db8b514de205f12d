import TemplateCheck.Proofs.TypeText.Shape

/-!
# Literals

The literal types: strings in either kind of quotes, decimal numbers, big integers and the two
truth values. Numbers are given by a grammar on texts (`NumberText`, `BigIntText`), and a literal
carries the proof that its text follows the grammar.

Every literal is read as one, of its own kind (`Literal.literalKind?_print`), and two literals count
as the same exactly if they are (`Literal.sameLiteral_print`): strings by what stands between their
quotes, all others by their spelling.
-/

namespace TemplateCheck

namespace TypeText

open Text

/-! ## The grammar of numbers -/

/-- One or more digits. -/
def DigitsText (t : Text) : Prop := t ≠ [] ∧ ∀ c ∈ t, isDecimal c = true

/-- A digit, followed by digits and underscores. -/
def WholeText (t : Text) : Prop :=
  ∃ first more, t = first :: more ∧ isDecimal first = true ∧
    ∀ c ∈ more, (isDecimal c || c = '_') = true

/-- Nothing, or a point and digits. -/
def FractionText (t : Text) : Prop :=
  t = [] ∨ ∃ digits, t = '.' :: digits ∧ ∀ c ∈ digits, isDecimal c = true

/-- Nothing, or a mark, a sign that may be left out, and digits. -/
def ExponentText (t : Text) : Prop :=
  t = [] ∨ ∃ mark sign digits, t = mark :: (sign ++ digits) ∧ mark ∈ ['e', 'E'] ∧
    (sign = [] ∨ sign = ['+'] ∨ sign = ['-']) ∧ DigitsText digits

/-- A decimal number without its sign. -/
inductive MagnitudeText : Text → Prop
  | whole {whole fraction exponent : Text} (isWhole : WholeText whole)
      (isFraction : FractionText fraction) (isExponent : ExponentText exponent) :
      MagnitudeText (whole ++ (fraction ++ exponent))
  | point {digits : Text} (isDigits : DigitsText digits) : MagnitudeText ('.' :: digits)

/-- A big integer without its sign and its last letter. -/
inductive BigMagnitudeText : Text → Prop
  | whole {whole : Text} (isWhole : WholeText whole) : BigMagnitudeText whole
  | based {base : Char} {digits : Text} (base_mem : base ∈ "xXbBoO".toList) (ne_nil : digits ≠ [])
      (isDigits : ∀ c ∈ digits, (isDecimal c || c ∈ "abcdefABCDEF_".toList) = true) :
      BigMagnitudeText ('0' :: base :: digits)

/-- A sign that may be left out. -/
def SignText (t : Text) : Prop := t = [] ∨ t = ['-']

/-- A decimal number. -/
def NumberText (t : Text) : Prop :=
  ∃ sign magnitude, t = sign ++ magnitude ∧ SignText sign ∧ MagnitudeText magnitude

/-- A big integer. -/
def BigIntText (t : Text) : Prop :=
  ∃ sign magnitude, t = sign ++ (magnitude ++ ['n']) ∧ SignText sign ∧ BigMagnitudeText magnitude

/-! ## Numbers are read as numbers -/

/-- The numbers without a sign and without an `n`. -/
def magnitudePattern : Pattern Unit :=
  open Pattern in
  any [
    all [lit ['0'], oneOf "xXbBoO", span1 fun c => isDecimal c || c ∈ "abcdefABCDEF_".toList],
    all [char isDecimal, span fun c => isDecimal c || c = '_',
      opt (seq (lit ['.']) (span isDecimal)),
      opt (all [oneOf ['e', 'E'], opt (oneOf ['+', '-']), span1 isDecimal])],
    seq (lit ['.']) (span1 isDecimal)]

theorem isNumberLiteral_of_takes {sign magnitude suffix : Text} (hSign : SignText sign)
    (hMagnitude : magnitudePattern.Takes magnitude) (hSuffix : suffix = [] ∨ suffix = ['n']) :
    isNumberLiteral (sign ++ (magnitude ++ suffix)) = true := by
  have hSignTakes : (Pattern.opt (.lit ['-']) : Pattern Unit).Takes sign :=
    .opt (hSign.imp_right fun h => by rw [h]; exact .lit _)
  have hSuffixTakes : (Pattern.opt (.lit ['n']) : Pattern Unit).Takes suffix :=
    .opt (hSuffix.imp_right fun h => by rw [h]; exact .lit _)
  obtain ⟨a, hFirst, ha⟩ := hSignTakes ⟨none, 0, sign ++ (magnitude ++ suffix), []⟩ _ rfl
  obtain ⟨b, hSecond, hb⟩ := hMagnitude a _ ha
  obtain ⟨c, hThird, hc⟩ := hSuffixTakes b [] (by rw [hb, List.append_nil])
  refine Pattern.Reads.accepts
    (.seq hFirst (.seq hSecond (.seq hThird (.seq (.look ?_) (.empty c))))) rfl
  rw [hc]
  rfl

theorem takes_whole {whole fraction exponent : Text} (hWhole : WholeText whole)
    (hFraction : FractionText fraction) (hExponent : ExponentText exponent) :
    magnitudePattern.Takes (whole ++ (fraction ++ exponent)) := by
  obtain ⟨first, more, rfl, hFirst, hMore⟩ := hWhole
  have hFractionTakes :
      (Pattern.opt (.seq (.lit ['.']) (.span isDecimal)) : Pattern Unit).Takes fraction := by
    refine .opt (hFraction.imp_right ?_)
    rintro ⟨digits, rfl, hDigits⟩
    exact .seq (.lit _) (.span hDigits)
  have hExponentTakes : (Pattern.opt (Pattern.all [.oneOf ['e', 'E'], .opt (.oneOf ['+', '-']),
      .span1 isDecimal]) : Pattern Unit).Takes exponent := by
    refine .opt (hExponent.imp_right ?_)
    rintro ⟨mark, sign, digits, rfl, hMark, hSign, hDigits⟩
    have hSignTakes : (Pattern.opt (.oneOf ['+', '-']) : Pattern Unit).Takes sign := by
      refine .opt (hSign.imp_right ?_)
      rintro (rfl | rfl)
      · exact .char rfl
      · exact .char rfl
    have hTakes := Pattern.Takes.seq (.oneOf hMark)
      (hSignTakes.seq ((Pattern.Takes.span1 hDigits.1 hDigits.2).seq .empty))
    rwa [List.append_nil] at hTakes
  have hTakes := Pattern.Takes.seq (.char hFirst)
    ((Pattern.Takes.span hMore).seq (hFractionTakes.seq (hExponentTakes.seq .empty)))
  rw [List.append_nil] at hTakes
  exact .right _ (hTakes.left _)

theorem MagnitudeText.takes {t : Text} (h : MagnitudeText t) : magnitudePattern.Takes t := by
  cases h with
  | whole hWhole hFraction hExponent => exact takes_whole hWhole hFraction hExponent
  | point hDigits =>
    exact .right _ (.right _ (.seq (.lit _) (Pattern.Takes.span1 hDigits.1 hDigits.2)))

theorem BigMagnitudeText.takes {t : Text} (h : BigMagnitudeText t) : magnitudePattern.Takes t := by
  cases h with
  | whole hWhole =>
    have hTakes := takes_whole hWhole (.inl rfl) (.inl rfl)
    rwa [List.append_nil, List.append_nil] at hTakes
  | based hBase hNonempty hDigits =>
    have hTakes := (Pattern.Takes.lit (ι := Unit) ['0']).seq (.seq (.oneOf hBase)
      ((Pattern.Takes.span1 hNonempty hDigits).seq .empty))
    rw [List.append_nil] at hTakes
    exact hTakes.left _

theorem NumberText.isNumberLiteral {t : Text} (h : NumberText t) : isNumberLiteral t = true := by
  obtain ⟨sign, magnitude, rfl, hSign, hMagnitude⟩ := h
  rw [← List.append_nil magnitude]
  exact isNumberLiteral_of_takes hSign hMagnitude.takes (.inl rfl)

theorem BigIntText.isNumberLiteral {t : Text} (h : BigIntText t) : isNumberLiteral t = true := by
  obtain ⟨sign, magnitude, rfl, hSign, hMagnitude⟩ := h
  exact isNumberLiteral_of_takes hSign hMagnitude.takes (.inr rfl)

/-! ## Characters of numbers -/

theorem WholeText.chars {t : Text} (h : WholeText t) : ∀ c ∈ t, isDecimal c = true ∨ c = '_' := by
  obtain ⟨first, more, rfl, hFirst, hMore⟩ := h
  refine List.forall_mem_cons.mpr ⟨.inl hFirst, fun c hc => ?_⟩
  exact (Bool.or_eq_true_iff.mp (hMore c hc)).imp_right decide_eq_true_iff.mp

theorem MagnitudeText.chars {t : Text} (h : MagnitudeText t) :
    ∀ c ∈ t, isDecimal c = true ∨ c ∈ "_.eE+-".toList := by
  cases h with
  | whole hWhole hFraction hExponent =>
    refine List.forall_mem_append.mpr ⟨?_, List.forall_mem_append.mpr ⟨?_, ?_⟩⟩
    · intro c hc
      refine (hWhole.chars c hc).imp_right ?_
      rintro rfl
      decide
    · rcases hFraction with rfl | ⟨digits, rfl, hDigits⟩
      · simp
      · exact List.forall_mem_cons.mpr ⟨.inr (by decide), fun c hc => .inl (hDigits c hc)⟩
    · rcases hExponent with rfl | ⟨mark, sign, digits, rfl, hMark, hSign, hDigits⟩
      · simp
      · refine List.forall_mem_cons.mpr ⟨.inr ?_, List.forall_mem_append.mpr ⟨?_, ?_⟩⟩
        · rcases List.mem_pair.mp hMark with rfl | rfl <;> decide
        · rcases hSign with rfl | rfl | rfl
          · simp
          · exact fun c hc => .inr (by rw [List.mem_singleton.mp hc]; decide)
          · exact fun c hc => .inr (by rw [List.mem_singleton.mp hc]; decide)
        · exact fun c hc => .inl (hDigits.2 c hc)
  | point hDigits =>
    exact List.forall_mem_cons.mpr ⟨.inr (by decide), fun c hc => .inl (hDigits.2 c hc)⟩

theorem BigMagnitudeText.chars {t : Text} (h : BigMagnitudeText t) :
    ∀ c ∈ t, isAtomChar c = true := by
  cases h with
  | whole hWhole =>
    intro c hc
    rcases hWhole.chars c hc with hc | rfl
    · exact isAtomChar_of_isDecimal hc
    · decide
  | based hBase hNonempty hDigits =>
    refine List.forall_mem_cons.mpr ⟨by decide, List.forall_mem_cons.mpr ⟨?_, fun c hc => ?_⟩⟩
    · exact isAtomChar_of_mem (by decide) (decide_eq_true hBase)
    · exact (Bool.or_eq_true_iff.mp (hDigits c hc)).elim isAtomChar_of_isDecimal
        (isAtomChar_of_mem (by decide))

/-- What a number may begin with. -/
def isNumberStart (c : Char) : Bool := isDecimal c || c ∈ ['-', '.']

theorem isNumberStart_of_isDecimal {c : Char} (h : isDecimal c = true) :
    isNumberStart c = true := by
  rw [isNumberStart, h, Bool.true_or]

theorem toNat_lt_of_isAsciiLetter {c : Char} (h : isAsciiLetter c = true) : c.toNat < 128 := by
  have hCases : c.isUpper = true ∨ c.isLower = true := Bool.or_eq_true_iff.mp h
  have hBound : c.val ≤ 'z'.val := by
    rcases hCases with hUpper | hLower
    · exact UInt32.le_trans (of_decide_eq_true hUpper).2 (by decide)
    · exact of_decide_eq_true (Bool.and_eq_true_iff.mp hLower).2
  exact Nat.lt_of_le_of_lt (UInt32.le_iff_toNat_le.mp hBound) (by decide)

theorem toNat_lt_of_isNameStart {c : Char} (h : isNameStart c = true) : c.toNat < 128 := by
  simp only [isNameStart, Bool.or_eq_true, decide_eq_true_eq] at h
  rcases h with (h | rfl) | rfl
  · exact toNat_lt_of_isAsciiLetter h
  · decide
  · decide

theorem isNumberStart_ascii :
    ∀ n < 128, isNameStart (Char.ofNat n) = true → isNumberStart (Char.ofNat n) = false := by
  decide +kernel

theorem isNameStart_of_isNumberStart {c : Char} (h : isNumberStart c = true) :
    isNameStart c = false := by
  refine Bool.eq_false_iff.mpr fun hName => ?_
  have hNot := isNumberStart_ascii c.toNat (toNat_lt_of_isNameStart hName)
  rw [Char.ofNat_toNat, h] at hNot
  exact Bool.noConfusion (hNot hName)

theorem MagnitudeText.head {t : Text} (h : MagnitudeText t) :
    ∃ c ∈ t.head?, isNumberStart c = true := by
  cases h with
  | whole hWhole hFraction hExponent =>
    obtain ⟨first, more, rfl, hFirst, -⟩ := hWhole
    exact ⟨first, rfl, isNumberStart_of_isDecimal hFirst⟩
  | point hDigits => exact ⟨'.', rfl, by decide⟩

theorem BigMagnitudeText.head {t : Text} (h : BigMagnitudeText t) :
    ∃ c ∈ t.head?, isNumberStart c = true := by
  cases h with
  | whole hWhole =>
    obtain ⟨first, more, rfl, hFirst, -⟩ := hWhole
    exact ⟨first, rfl, isNumberStart_of_isDecimal hFirst⟩
  | based hBase hNonempty hDigits => exact ⟨'0', rfl, by decide⟩

theorem SignText.head {sign magnitude : Text} (h : SignText sign)
    (hMagnitude : ∃ c ∈ magnitude.head?, isNumberStart c = true) (rest : Text) :
    ∃ c ∈ (sign ++ (magnitude ++ rest)).head?, isNumberStart c = true := by
  rcases h with rfl | rfl
  · obtain ⟨c, hc, hStart⟩ := hMagnitude
    refine ⟨c, ?_, hStart⟩
    rw [List.nil_append, List.head?_append, Option.mem_def.mp hc]
    rfl
  · exact ⟨'-', rfl, by decide⟩

theorem NumberText.head {t : Text} (h : NumberText t) : ∃ c ∈ t.head?, isNumberStart c = true := by
  obtain ⟨sign, magnitude, rfl, hSign, hMagnitude⟩ := h
  simpa using hSign.head hMagnitude.head []

theorem BigIntText.head {t : Text} (h : BigIntText t) : ∃ c ∈ t.head?, isNumberStart c = true := by
  obtain ⟨sign, magnitude, rfl, hSign, hMagnitude⟩ := h
  exact hSign.head hMagnitude.head ['n']

theorem SignText.chars {sign : Text} (h : SignText sign) : ∀ c ∈ sign, c = '-' := by
  rcases h with rfl | rfl
  · simp
  · simp

theorem NumberText.chars {t : Text} (h : NumberText t) :
    ∀ c ∈ t, isDecimal c = true ∨ c ∈ "_.eE+-".toList := by
  obtain ⟨sign, magnitude, rfl, hSign, hMagnitude⟩ := h
  refine List.forall_mem_append.mpr ⟨fun c hc => .inr ?_, hMagnitude.chars⟩
  rw [hSign.chars c hc]
  decide

/-! ## Literals -/

/-- The quotes of a string. -/
inductive Quote where
  | single
  | double
deriving DecidableEq, Repr

/-- The character of a quote. -/
def Quote.char : Quote → Char
  | single => '\''
  | double => '"'

/-- The characters between the quotes. -/
def isContentChar (c : Char) : Bool := isAlphanumeric c || c = '-' || c = '_'

/-- A literal type. -/
inductive Literal where
  | string (quote : Quote) (content : Text) (plain : ∀ c ∈ content, isContentChar c = true)
  | number (spelling : Text) (isNumber : NumberText spelling)
  | bigint (spelling : Text) (isBigInt : BigIntText spelling)
  | boolean (value : Bool)

namespace Literal

/-- The text of a literal. -/
def print : Literal → Text
  | string quote content _ => quote.char :: (content ++ [quote.char])
  | number spelling _ | bigint spelling _ => spelling
  | boolean value => truthName value

/-- The primitive type of a literal. -/
def kind : Literal → LiteralKind
  | string .. => .string
  | number .. => .number
  | bigint .. => .bigint
  | boolean _ => .boolean

/-- Literals of one value: the same literal, up to the quotes of a string. -/
inductive Same : Literal → Literal → Prop
  | string {quote quote' : Quote} {content : Text}
      {plain plain' : ∀ c ∈ content, isContentChar c = true} :
      Same (.string quote content plain) (.string quote' content plain')
  | refl (literal : Literal) : Same literal literal

theorem isAtomChar_of_isContentChar {c : Char} (h : isContentChar c = true) :
    isAtomChar c = true := by
  unfold isContentChar at h
  rw [Bool.or_eq_true, Bool.or_eq_true, decide_eq_true_iff, decide_eq_true_iff] at h
  rcases h with (h | rfl) | rfl
  · rw [isAtomChar, h, Bool.true_or, Bool.true_or]
  · decide
  · decide

theorem isStringLiteral_of_not_mem {quote : Quote} {content : Text} (h : quote.char ∉ content) :
    isStringLiteral (quote.char :: (content ++ [quote.char])) = true := by
  have hGuards : ∀ (previous : Option Char) (t : Text), quote.char ∉ t →
      guardsQuotes quote.char previous t = true := by
    intro previous t ht
    induction t generalizing previous with
    | nil => rfl
    | cons c t ih =>
      obtain ⟨hc, ht⟩ := List.ne_and_not_mem_of_not_mem_cons ht
      rw [guardsQuotes, decide_eq_true hc.symm, Bool.true_or, Bool.true_and, ih _ ht]
  have hLine : ¬ (content ++ [quote.char]).getLast? = some '\n' := by
    rw [List.getLast?_concat]
    cases quote <;> decide
  rw [isStringLiteral, if_neg hLine, List.getLast?_concat, List.dropLast_concat,
    hGuards none content h]
  cases quote <;> rfl

theorem isStringLiteral_string {quote : Quote} {content : Text}
    (plain : ∀ c ∈ content, isContentChar c = true) :
    isStringLiteral (quote.char :: (content ++ [quote.char])) = true := by
  refine isStringLiteral_of_not_mem fun hQuote => ?_
  exact ne_of_class (plain _ hQuote) (by cases quote <;> decide) rfl

theorem isStringLiteral_eq_false_of_head {t : Text} (h : ∃ c ∈ t.head?, isNumberStart c = true) :
    isStringLiteral t = false ∧ isTemplateLiteral t = false := by
  obtain ⟨c, hc, hStart⟩ := h
  cases t with
  | nil => cases hc
  | cons d t =>
    obtain rfl : d = c := Option.some.inj hc
    have hNe : ∀ e, isNumberStart e = false → ¬ d = e := fun e he => ne_of_class hStart he
    constructor
    · rw [isStringLiteral, decide_eq_false (hNe '"' (by decide)),
        decide_eq_false (hNe '\'' (by decide))]
      rfl
    · rw [isTemplateLiteral, List.head?_cons,
        decide_eq_false fun h => hNe '`' (by decide) (Option.some.inj h), Bool.false_and]

theorem literalKind?_print (literal : Literal) :
    literalKind? literal.print = some literal.kind := by
  cases literal with
  | string quote content plain => rw [print, literalKind?, isStringLiteral_string plain]; rfl
  | number spelling hNumber =>
    obtain ⟨hString, hTemplate⟩ := isStringLiteral_eq_false_of_head hNumber.head
    have hLast : ¬ spelling.getLast? = some 'n' := by
      intro hLast
      exact absurd (hNumber.chars 'n' (List.mem_of_getLast? hLast)) (by decide)
    rw [print, literalKind?, hString, hTemplate, hNumber.isNumberLiteral, if_neg hLast]
    rfl
  | bigint spelling hBigInt =>
    obtain ⟨hString, hTemplate⟩ := isStringLiteral_eq_false_of_head hBigInt.head
    have hLast : spelling.getLast? = some 'n' := by
      obtain ⟨sign, magnitude, rfl, -⟩ := hBigInt
      rw [← List.append_assoc, List.getLast?_concat]
    rw [print, literalKind?, hString, hTemplate, hBigInt.isNumberLiteral, if_pos hLast]
    rfl
  | boolean value => cases value <;> decide

theorem atomText_print (literal : Literal) : AtomText literal.print := by
  have hKind : ∀ word : Text, literalKind? word = none → literal.print ≠ word := by
    rintro word hWord hEq
    rw [← hEq, literalKind?_print] at hWord
    cases hWord
  refine ⟨hKind [] (by decide), ?_, hKind "new" (by decide), hKind "readonly" (by decide)⟩
  cases literal with
  | string quote content plain =>
    have hQuote : isAtomChar quote.char = true := by cases quote <;> decide
    refine List.forall_mem_cons.mpr ⟨hQuote, List.forall_mem_append.mpr ⟨?_, ?_⟩⟩
    · exact fun c hc => isAtomChar_of_isContentChar (plain c hc)
    · exact fun c hc => by rwa [List.mem_singleton.mp hc]
  | number spelling hNumber =>
    intro c hc
    rcases hNumber.chars c hc with hc | hc
    · exact isAtomChar_of_isDecimal hc
    · exact isAtomChar_of_mem (by decide) (decide_eq_true hc)
  | bigint spelling hBigInt =>
    obtain ⟨sign, magnitude, rfl, hSign, hMagnitude⟩ := hBigInt
    refine List.forall_mem_append.mpr ⟨fun c hc => ?_,
      List.forall_mem_append.mpr ⟨hMagnitude.chars, ?_⟩⟩
    · rw [hSign.chars c hc]
      decide
    · exact fun c hc => by rw [List.mem_singleton.mp hc]; decide
  | boolean value => cases value <;> decide

theorem resolve?_print {program : Program} (h : program.KeepsTruth) (literal : Literal)
    (file : Option Text) : resolve? program ⟨literal.print, file⟩ = none := by
  have hNumber : ∀ {t : Text}, (∃ c ∈ t.head?, isNumberStart c = true) →
      ∀ c ∈ t.head?, isNameStart c = false := by
    rintro t ⟨c, hc, hStart⟩ d hd
    rw [Option.mem_unique hd hc]
    exact isNameStart_of_isNumberStart hStart
  cases literal with
  | string quote content plain =>
    refine resolve?_eq_none_of_head ?_
    rintro c ⟨⟩
    cases quote <;> decide
  | number spelling hSpelling => exact resolve?_eq_none_of_head (hNumber hSpelling.head)
  | bigint spelling hSpelling => exact resolve?_eq_none_of_head (hNumber hSpelling.head)
  | boolean value => exact h.resolve?_eq_none value file

/-- Literals of one text are the same. -/
theorem same_of_print_eq {literal other : Literal} (h : literal.print = other.print) :
    literal.Same other := by
  have hKind : literal.kind = other.kind := by
    rw [← Option.some_inj, ← literalKind?_print, ← literalKind?_print, h]
  cases literal <;> cases other <;> cases hKind
  case string.string.refl =>
    obtain rfl := List.append_inj_left' (List.cons.inj h).2 rfl
    exact .string
  case number.number.refl =>
    obtain rfl := h
    exact .refl _
  case bigint.bigint.refl =>
    obtain rfl := h
    exact .refl _
  case boolean.boolean.refl value value' =>
    obtain rfl : value = value' := by
      revert h
      cases value <;> cases value' <;> decide
    exact .refl _

theorem isStringLiteral_print (literal : Literal) :
    isStringLiteral literal.print = decide (literal.kind = .string) := by
  cases literal with
  | string quote content plain => exact isStringLiteral_string plain
  | number spelling hNumber => exact (isStringLiteral_eq_false_of_head hNumber.head).1
  | bigint spelling hBigInt => exact (isStringLiteral_eq_false_of_head hBigInt.head).1
  | boolean value => cases value <;> decide

/-- Literals are compared by value. -/
theorem sameLiteral_print {literal other : Literal} :
    sameLiteral literal.print other.print = true ↔ literal.Same other := by
  unfold sameLiteral
  rw [isStringLiteral_print, isStringLiteral_print]
  split_ifs with hStrings
  · obtain ⟨hLiteral, hOther⟩ := Bool.and_eq_true_iff.mp hStrings
    cases literal <;> cases hLiteral
    cases other <;> cases hOther
    rw [print, print, Text.inner, Text.inner, List.tail_cons, List.tail_cons, List.dropLast_concat,
      List.dropLast_concat, decide_eq_true_iff]
    constructor
    · rintro rfl
      exact .string
    · intro hSame
      cases hSame with
      | string | refl => rfl
  · rw [decide_eq_true_iff]
    refine ⟨same_of_print_eq, fun hSame => ?_⟩
    cases hSame with
    | string => exact absurd rfl hStrings
    | refl => rfl

end Literal

end TypeText

end TemplateCheck
