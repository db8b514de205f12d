import TemplateCheck.Proofs.TypeText.Shape

/-!
# Spellings of array types

An array type is written around the text of its element type in one of four spellings
(`ArraySpelling.write`). In front of brackets the element type may need parentheses: a union and a
readonly array do, and an element type without them has to be `Bare`.

Whatever the spelling, an array type is read as one: it is an array (`isArray_write`) of its element
type (`elementType_write`), no literal, no function and no union, and it names no declaration
(`resolve?_write`). Since it can be written into an array type itself (`elementText_write`), all
this holds at any depth.
-/

namespace TemplateCheck

namespace TypeText

open Text

/-- The ways to write an array type. -/
inductive ArraySpelling where
  | brackets
  | generic
  | readonlyGeneric
  | readonlyBrackets
deriving DecidableEq, Repr

/-- The element type in front of brackets, in parentheses if it is grouped. -/
def itemText (grouped : Bool) (element : Text) : Text :=
  if grouped then '(' :: element ++ [')'] else element

/-- The text of the array type with an element type. -/
def ArraySpelling.write (grouped : Bool) (element : Text) (spelling : ArraySpelling) : Text :=
  match spelling with
  | brackets => itemText grouped element ++ "[]"
  | generic => "Array" ++ ('<' :: element ++ ['>'])
  | readonlyGeneric => "ReadonlyArray" ++ ('<' :: element ++ ['>'])
  | readonlyBrackets => "readonly" ++ ' ' :: (itemText grouped element ++ "[]")

section

variable (grouped : Bool) (element : Text)

theorem ArraySpelling.write_brackets :
    brackets.write grouped element = itemText grouped element ++ "[]".toList := rfl

theorem ArraySpelling.write_generic :
    generic.write grouped element = "Array".toList ++ ('<' :: element ++ ['>']) := rfl

theorem ArraySpelling.write_readonlyGeneric :
    readonlyGeneric.write grouped element =
      "ReadonlyArray".toList ++ ('<' :: element ++ ['>']) := rfl

theorem ArraySpelling.write_readonlyBrackets : readonlyBrackets.write grouped element =
    "readonly".toList ++ ' ' :: (itemText grouped element ++ "[]".toList) := rfl

end

/-- The last character of an array type. -/
def ArraySpelling.closing : ArraySpelling → Char
  | brackets | readonlyBrackets => ']'
  | generic | readonlyGeneric => '>'

/-- An element type that needs no parentheses in front of brackets. -/
structure Bare (element : Text) : Prop where
  not_union : '|' ∉ element
  not_readonly : startsWith "readonly " element = false

theorem AtomText.bare {t : Text} (h : AtomText t) : Bare t :=
  ⟨h.not_mem (by decide), h.not_readonly⟩

/-! ## Arrays are found again -/

theorem endsWith_append (t ending : Text) : endsWith ending (t ++ ending) = true := by
  rw [endsWith, dropEnd?_append]
  rfl

theorem afterReadonly?_eq_none {t : Text} (h : startsWith "readonly " t = false) :
    afterReadonly? t = none := by
  rw [← Option.isNone_iff_eq_none, ← Option.not_isSome, Bool.not_eq_true']
  exact h

theorem elementType_of_brackets {t item : Text}
    (h : ((afterReadonly? t).map trim).getD t = item ++ "[]".toList) :
    elementType t = stripParens (trim item) := by
  unfold elementType
  rw [h]
  dsimp only
  rw [dropEnd?_append]

section

variable {word element : Text} (hWord : word = "Array" ∨ word = "ReadonlyArray")

include hWord

theorem accepts_genericArray {inside : Char → Bool} (hInside : ∀ c ∈ element, inside c = true) :
    (genericArray inside).accepts (word ++ ('<' :: element ++ ['>'])) = true := by
  have hTail : ∀ cursor : Pattern.Cursor Unit,
      cursor.rest = "Array".toList ++ ([] ++ (['<'] ++ (element ++ (['>'] ++ [])))) →
        ∃ last, (Pattern.all [.lit "Array", .blanks, .lit ['<'], .capture () (.span inside),
          .lit ['>'], .atEnd] : Pattern Unit).Reads cursor last := fun cursor hRest =>
    ⟨_, .seq (.lit hRest) <| .seq (.span rfl (by simp)) <| .seq (.lit rfl) <|
      .seq (.capture () (.span rfl hInside)) <| .seq (.lit rfl) <| .seq (.look rfl) (.empty _)⟩
  rcases hWord with rfl | rfl
  · obtain ⟨last, hReads⟩ := hTail ⟨none, 0, "Array".toList ++ ('<' :: element ++ ['>']), []⟩ rfl
    exact Pattern.Reads.accepts (.seq (.right _ (.empty _)) hReads) rfl
  · obtain ⟨last, hReads⟩ := hTail (Pattern.Cursor.after
      ⟨none, 0, "ReadonlyArray".toList ++ ('<' :: element ++ ['>']), []⟩ "Readonly"
      ("Array".toList ++ ('<' :: element ++ ['>']))) rfl
    exact Pattern.Reads.accepts (.seq (.left _ (.lit rfl)) hReads) rfl

theorem text_genericArray {inside : Char → Bool} {found : Pattern.Match Unit}
    (h : (genericArray inside).readStart (word ++ ('<' :: element ++ ['>'])) = some found) :
    found.text () = element := by
  obtain ⟨word', blanks, rest, hEq, hWord', hBlanks, hRest⟩ := exists_of_genericArray h
  -- The two names differ in their first letter.
  have hSame : word = word' ∧ '<' :: element ++ ['>'] =
      blanks ++ '<' :: (found.text () ++ '>' :: rest) := by
    rcases hWord with rfl | rfl <;> rcases hWord' with rfl | rfl
    · exact ⟨rfl, List.append_cancel_left hEq⟩
    · cases hEq
    · cases hEq
    · exact ⟨rfl, List.append_cancel_left hEq⟩
  cases blanks with
  | cons c blanks =>
    obtain rfl : '<' = c := (List.cons.inj hSame.2).1
    exact absurd (hBlanks '<' List.mem_cons_self) (by decide)
  | nil =>
    have hTail : element ++ ['>'] = found.text () ++ '>' :: rest := (List.cons.inj hSame.2).2
    rcases hRest with rfl | rfl
    · exact (List.append_cancel_right hTail).symm
    · have hLast := congrArg List.getLast? hTail
      simp at hLast

theorem elementType_generic (hTrimmed : element.Trimmed)
    (hReadonly : afterReadonly? (word ++ ('<' :: element ++ ['>'])) = none) :
    elementType (word ++ ('<' :: element ++ ['>'])) = element := by
  have hAccepts :
      (genericArray Pattern.anyChar).accepts (word ++ ('<' :: element ++ ['>'])) = true :=
    accepts_genericArray hWord fun _ _ => rfl
  obtain ⟨found, hFound⟩ := Option.isSome_iff_exists.mp hAccepts
  have hNone : dropEnd? "[]" (word ++ ('<' :: element ++ ['>'])) = none := by
    refine Option.eq_none_iff_forall_ne_some.mpr fun before hBefore => ?_
    have hLast := congrArg List.getLast? (eq_append_of_dropEnd? hBefore)
    rw [List.getLast?_append, List.getLast?_concat, List.getLast?_append] at hLast
    cases hLast
  unfold elementType
  rw [hReadonly]
  dsimp only [Option.map_none, Option.getD_none]
  rw [hNone, hFound]
  dsimp only
  rw [text_genericArray hWord hFound, hTrimmed.trim_eq]

theorem resolve?_eq_none_of_generic {program : Program} {file : Option Text} :
    resolve? program ⟨word ++ ('<' :: element ++ ['>']), file⟩ = none := by
  refine Option.bind_eq_none_iff.mpr fun found hFound => ?_
  obtain ⟨blanks, arguments, rest, hEq, -, hName, hBlanks, hArguments, hRest⟩ :=
    exists_of_namedType hFound
  have hText : found.text () = word := by
    -- Both are what the text begins with up to the first character that stands in no dotted name.
    have hTake := congrArg (List.takeWhile fun c => isNameChar c || decide (c = '.')) hEq
    have hStop : (blanks ++ (arguments ++ rest)).takeWhile
        (fun c => isNameChar c || decide (c = '.')) = [] := by
      have hBlank : ∀ c, isBlank c = true → (isNameChar c || decide (c = '.')) = false := by
        intro c hc
        rw [isNameChar_of_isBlank hc, Bool.false_or]
        exact decide_eq_false (ne_of_class hc (by decide))
      cases blanks with
      | cons c blanks =>
        exact List.takeWhile_cons_of_neg (by rw [hBlank c (hBlanks c List.mem_cons_self)]; decide)
      | nil =>
        rcases hArguments with rfl | ⟨inside, rfl⟩
        · rcases hRest with rfl | rfl
          · rfl
          · decide
        · exact List.takeWhile_cons_of_neg (by decide)
    have hDotted : ∀ c ∈ found.text (), (isNameChar c || decide (c = '.')) = true := fun c hc =>
      Bool.or_eq_true_iff.mpr ((hName c hc).imp_right decide_eq_true)
    rw [List.takeWhile_append_of_pos hDotted, hStop, List.append_nil] at hTake
    rw [← hTake]
    rcases hWord with rfl | rfl <;> rfl
  dsimp only
  split_ifs with hPrimitive hArray
  · rfl
  · rfl
  · refine absurd ?_ hArray
    rw [hText]
    rcases hWord with rfl | rfl
    · exact .inl rfl
    · exact .inr rfl

end

/-! ## Items -/

/-- What stands in front of brackets. -/
structure Item (element item : Text) : Prop extends Piece item where
  head_not_mem : ∀ c ∈ item.head?, c ∉ ['<', '|']
  not_new : startsWith "new " item = false
  not_readonly : startsWith "readonly " item = false
  uncut : ∀ previous, previous ≠ some '=' → Uncut (· = '|') previous 0 item
  stripParens_eq : stripParens item = element

section

variable {grouped : Bool} {element : Text} (h : ElementText element)
  (hBare : grouped = false → Bare element)

include h hBare

theorem item_itemText : Item element (itemText grouped element) := by
  cases grouped with
  | false =>
    obtain ⟨hUnion, hReadonly⟩ := hBare rfl
    have hUncut : ∀ previous, previous ≠ some '=' → Uncut (· = '|') previous 0 element := by
      refine fun previous _ => uncut_of_forall (fun c hc => decide_eq_false ?_) previous 0
      rintro rfl
      exact hUnion hc
    exact ⟨h.toPiece, h.head_not_mem, h.not_new, hReadonly, hUncut, h.stripParens_eq⟩
  | true =>
    refine ⟨h.toPiece.group, ?_, rfl, rfl, ?_, stripParens_group h.trimmed h.last_ne h.closes⟩
    · rintro c ⟨⟩
      decide
    · exact fun previous => uncut_enclosed h.balanced rfl ⟨rfl, rfl⟩

namespace ArraySpelling

variable (spelling : ArraySpelling)

omit h hBare in
theorem getLast?_write : (spelling.write grouped element).getLast? = some spelling.closing := by
  cases spelling with
  | brackets =>
    rw [write_brackets, List.getLast?_append]
    rfl
  | generic =>
    rw [write_generic, List.getLast?_append, List.getLast?_concat]
    rfl
  | readonlyGeneric =>
    rw [write_readonlyGeneric, List.getLast?_append, List.getLast?_concat]
    rfl
  | readonlyBrackets =>
    rw [write_readonlyBrackets, List.getLast?_append, List.getLast?_cons, List.getLast?_append]
    rfl

omit h hBare in
theorem literalKind?_write : literalKind? (spelling.write grouped element) = none := by
  refine literalKind?_eq_none_of_last (spelling.getLast?_write) ?_
  cases spelling <;> decide

omit h hBare in
theorem bar_not_mem_write (hBar : '|' ∉ element) : '|' ∉ spelling.write grouped element := by
  have hItem : '|' ∉ itemText grouped element := by
    cases grouped with
    | false => exact hBar
    | true => simp [itemText, hBar]
  cases spelling with
  | brackets => simp [write_brackets, hItem]
  | generic => simp [write_generic, hBar]
  | readonlyGeneric => simp [write_readonlyGeneric, hBar]
  | readonlyBrackets => simp [write_readonlyBrackets, hItem]

omit h hBare in
theorem length_lt_write : element.length < (spelling.write grouped element).length := by
  have hItem : element.length ≤ (itemText grouped element).length := by
    cases grouped with
    | false => exact Nat.le_refl _
    | true => simp [itemText]; omega
  cases spelling with
  | brackets => simp [write_brackets]; omega
  | generic => simp [write_generic]; omega
  | readonlyGeneric => simp [write_readonlyGeneric]; omega
  | readonlyBrackets => simp [write_readonlyBrackets]; omega

theorem piece_write : Piece (spelling.write grouped element) := by
  have hItem := item_itemText h hBare
  have hWord : ∀ word : Text, word ≠ [] → word.all isAtomChar = true → Piece word :=
    fun word hNonempty hAll => .of_forall hNonempty (List.all_eq_true.mp hAll)
  cases spelling with
  | brackets => exact hItem.toPiece.append .brackets
  | generic => exact (hWord "Array".toList (by decide) (by decide)).append h.toPiece.angled
  | readonlyGeneric =>
    exact (hWord "ReadonlyArray".toList (by decide) (by decide)).append h.toPiece.angled
  | readonlyBrackets =>
    exact (hWord "readonly".toList (by decide) (by decide)).spaced (hItem.toPiece.append .brackets)

theorem elementText_write : ElementText (spelling.write grouped element) := by
  have hItem := item_itemText h hBare
  have hPiece := piece_write h hBare spelling
  have hLast : (spelling.write grouped element).getLast? ≠ some ')' := by
    rw [getLast?_write]
    cases spelling <;> decide
  refine ⟨hPiece, ?_, hLast, ?_⟩
  · cases spelling with
    | brackets =>
      rw [write_brackets, List.head?_append_of_ne_nil _ hItem.ne_nil]
      exact hItem.head_not_mem
    | generic | readonlyGeneric | readonlyBrackets =>
      rintro c ⟨⟩
      decide
  · cases spelling with
    | brackets =>
      rw [write_brackets, startsWith_append_of_not_mem (by decide)]
      exact hItem.not_new
    | generic | readonlyGeneric | readonlyBrackets => rfl

theorem unionParts_write : unionParts (spelling.write grouped element) =
      [spelling.write grouped element] := by
  have hItem := item_itemText h hBare
  have hPiece := piece_write h hBare spelling
  refine topLevelParts_of_uncut ?_ hPiece.trimmed hPiece.ne_nil
  have hPlain : ∀ (word : Text) (previous : Option Char) (depth : Int), '|' ∉ word →
      Uncut (· = '|') previous depth word := by
    refine fun word previous depth hWord => uncut_of_forall (fun c hc => decide_eq_false ?_) _ _
    rintro rfl
    exact hWord hc
  cases spelling with
  | brackets =>
    exact uncut_append.mpr ⟨hItem.uncut _ (Option.some_ne_none _).symm, hPlain _ _ _ (by decide)⟩
  | generic | readonlyGeneric =>
    exact uncut_append.mpr ⟨hPlain _ _ _ (by decide),
      uncut_enclosed h.balanced rfl ⟨rfl, rfl⟩ (by decide)⟩
  | readonlyBrackets =>
    rw [write_readonlyBrackets, List.append_cons]
    refine uncut_append.mpr ⟨hPlain _ _ _ (by decide),
      uncut_append.mpr ⟨?_, hPlain _ _ _ (by decide)⟩⟩
    exact hItem.uncut _ (by decide)

theorem elementType_write : elementType (spelling.write grouped element) = element := by
  have hItem := item_itemText h hBare
  have hBrackets : stripParens (trim (itemText grouped element)) = element := by
    rw [hItem.trimmed.trim_eq, hItem.stripParens_eq]
  cases spelling with
  | brackets =>
    have hNone : startsWith "readonly " (itemText grouped element ++ "[]".toList) = false := by
      rw [startsWith_append_of_not_mem (by decide)]
      exact hItem.not_readonly
    refine (elementType_of_brackets ?_).trans hBrackets
    rw [write_brackets, afterReadonly?_eq_none hNone]
    rfl
  | generic => exact elementType_generic (.inl rfl) h.trimmed rfl
  | readonlyGeneric => exact elementType_generic (.inr rfl) h.trimmed rfl
  | readonlyBrackets =>
    have hSome : afterReadonly? (readonlyBrackets.write grouped element) =
        some (itemText grouped element ++ "[]".toList) :=
      dropStart?_append "readonly ".toList _
    refine (elementType_of_brackets ?_).trans hBrackets
    rw [hSome, Option.map_some, (hItem.toPiece.append .brackets).trimmed.trim_eq]
    rfl

/-- An array type without the word `readonly` in front needs no parentheses, if it holds no bar. -/
theorem bare_write (hSpelling : spelling ≠ readonlyBrackets) (hBar : '|' ∉ element) :
    Bare (spelling.write grouped element) where
  not_union := spelling.bar_not_mem_write hBar
  not_readonly := by
    cases spelling with
    | brackets =>
      rw [write_brackets, startsWith_append_of_not_mem (by decide)]
      exact (item_itemText h hBare).not_readonly
    | generic | readonlyGeneric => rfl
    | readonlyBrackets => exact absurd rfl hSpelling

omit hBare in
theorem isArray_write : isArray (spelling.write grouped element) = true := by
  have hLine : ∀ c ∈ element, Pattern.inLine c = true := fun c hc =>
    decide_eq_true fun hFeed => absurd (h.chars c hc) (hFeed ▸ by decide)
  unfold isArray
  rw [Bool.or_eq_true, Bool.or_eq_true]
  cases spelling with
  | brackets => exact .inl (.inl (endsWith_append _ _))
  | generic => exact .inl (.inr (accepts_genericArray (.inl rfl) hLine))
  | readonlyGeneric => exact .inl (.inr (accepts_genericArray (.inr rfl) hLine))
  | readonlyBrackets => exact .inr rfl

omit h hBare in
theorem resolve?_write (program : Program) (file : Option Text) :
    resolve? program ⟨spelling.write grouped element, file⟩ = none := by
  cases spelling with
  | brackets => exact resolve?_eq_none_of_last (getLast?_write _)
  | generic => exact resolve?_eq_none_of_generic (.inl rfl)
  | readonlyGeneric => exact resolve?_eq_none_of_generic (.inr rfl)
  | readonlyBrackets => exact resolve?_eq_none_of_last (getLast?_write _)

end ArraySpelling

end

end TypeText

end TemplateCheck
