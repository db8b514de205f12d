import TemplateCheck.Proofs.TypeText.Intersection
import TemplateCheck.Proofs.TypeText.Members

/-!
# Object types as they are printed

The properties of an object type are printed in a row: the word `readonly` or nothing, a key, a
question mark or nothing, a colon and a type, with a separator and a space between neighbours
(`PropertyText.print`, `IsRow`). Listing the members of the type undoes this (`members_row`).

Here a type is a normal text. It may end in an equals sign, which a layout does not allow. In a row
this is harmless: the separator or the space after the type keeps it from what follows
(`Balanced.concat`). A row is tight, so collapsing leaves it as it is (`IsRow.tight`), and it holds
no comment (`IsRow.contains_eq_false`). What is left is to tell the properties apart
(`IsRow.entries_eq`) and to read each of them up to its type (`KeyText.run_label`,
`PropertyText.run_memberHead`).
-/

namespace TemplateCheck

namespace TypeText

open Text

/-! ## Properties -/

/-- The characters of a key in quotes. -/
def isKeyChar (c : Char) : Bool := isWordChar c || c = '-'

/-- The name of a property as it is written: an identifier, or a key in quotes of either kind. -/
inductive KeyText where
  | bare (name : Text) (isIdentifier : name.isIdentifier = true)
  | quoted (quote : Char) (name : Text) (isQuote : quote ∈ ['"', '\'']) (ne_nil : name ≠ [])
    (isKey : ∀ c ∈ name, isKeyChar c = true)

namespace KeyText

/-- The name of the property. -/
def name : KeyText → Text
  | bare name _ => name
  | quoted _ name _ _ _ => name

/-- The text of the name. -/
def print : KeyText → Text
  | bare name _ => name
  | quoted quote name _ _ _ => quote :: (name ++ [quote])

end KeyText

/-- The text of a type that can be that of a property: it is normal, its brackets are balanced, it
holds no comment and no separator outside brackets, and it does not end in the middle of a type. -/
structure PropertyType (t : Text) : Prop where
  ne_nil : t ≠ []
  normal : normalize t = t
  depth_eq : depthFrom none 0 t = 0
  above : Above (-1) none 0 t
  uncut : Uncut isMemberSeparator none 0 t
  no_line_comment : contains "//" t = false
  no_block_comment : contains "/*" t = false
  last_not_mem : ∀ c ∈ t.getLast?, c ∉ ['|', '&', ':']
  no_arrow : endsWith "=>" t = false

instance (t : Text) : Decidable (PropertyType t) :=
  decidable_of_iff (t ≠ [] ∧ normalize t = t ∧ depthFrom none 0 t = 0 ∧ Above (-1) none 0 t ∧
      Uncut isMemberSeparator none 0 t ∧ contains "//" t = false ∧ contains "/*" t = false ∧
      (∀ c ∈ t.getLast?, c ∉ ['|', '&', ':']) ∧ endsWith "=>" t = false)
    ⟨fun ⟨hNonempty, hNormal, hDepth, hAbove, hUncut, hLine, hBlock, hLast, hArrow⟩ =>
      ⟨hNonempty, hNormal, hDepth, hAbove, hUncut, hLine, hBlock, hLast, hArrow⟩,
    fun h => ⟨h.ne_nil, h.normal, h.depth_eq, h.above, h.uncut, h.no_line_comment,
      h.no_block_comment, h.last_not_mem, h.no_arrow⟩⟩

/-- A property as it is written. -/
structure PropertyText where
  isReadonly : Bool
  key : KeyText
  /-- Whether a question mark follows the key. -/
  marked : Bool
  type : Text
  isType : PropertyType type

namespace PropertyText

/-- What stands before the key. -/
def readonlyText (isReadonly : Bool) : Text := if isReadonly then "readonly " else []

/-- The text of a property before its colon. -/
def label (property : PropertyText) : Text :=
  readonlyText property.isReadonly ++ (property.key.print ++ markText property.marked)

/-- The text of a property. -/
def print (property : PropertyText) : Text := property.label ++ ':' :: ' ' :: property.type

/-- The member that a property declares in a file. -/
def member (file : Option Text) (property : PropertyText) : Member where
  name := property.key.name
  type := ⟨property.type, file⟩
  optional := property.marked || "undefined".toList ∈ unionParts property.type

end PropertyText

/-- A text in which properties stand in a row, each but the last with a separator and a space after
it, and perhaps a separator after the last one. -/
inductive IsRow : List PropertyText → Text → Prop
  | nil : IsRow [] []
  | last (property : PropertyText) : IsRow [property] property.print
  | trailing (property : PropertyText) {separator : Char}
      (isSeparator : isMemberSeparator separator = true) :
      IsRow [property] (property.print ++ [separator])
  | cons (property : PropertyText) {next : PropertyText} {properties : List PropertyText}
      {rest : Text} {separator : Char} (isSeparator : isMemberSeparator separator = true)
      (later : IsRow (next :: properties) rest) :
      IsRow (property :: next :: properties) (property.print ++ separator :: ' ' :: rest)

/-! ## Keys -/

theorem isBlank_of_isKeyChar {c : Char} (h : isKeyChar c = true) : isBlank c = false := by
  rcases Bool.or_eq_true_iff.mp h with h | h
  · exact isBlank_of_isNameChar (isNameChar_of_isWordChar h)
  · rw [of_decide_eq_true h]
    decide

theorem inLine_of_isKeyChar {c : Char} (h : isKeyChar c = true) : Pattern.inLine c = true := by
  refine decide_eq_true ?_
  rintro rfl
  cases isBlank_of_isKeyChar h

theorem run_quoted {quote : Char} (hQuote : isKeyChar quote = false) {name : Text}
    (hNonempty : name ≠ []) (hName : ∀ c ∈ name, isKeyChar c = true) (rest : Text)
    (previous : Option Char) (offset : Nat) {next : Pattern.Next MemberPart}
    {last : Pattern.Cursor MemberPart}
    (hNext : next ⟨some quote, offset + 1 + name.length + 1, rest,
      [⟨.name, offset + 1, name ++ quote :: rest, name.length⟩]⟩ = some last) :
    (quotedName quote).run ⟨previous, offset, quote :: (name ++ quote :: rest), []⟩ next =
      some last := by
  rw [quotedName, Pattern.run_all_cons]
  refine Pattern.run_lit [quote] ?_
  rw [Pattern.run_all_cons]
  refine Pattern.run_spanLazy1 hNonempty (fun c hc => inLine_of_isKeyChar (hName c hc)) ?_ _ ?_
  · intro before c after hEq previous offset captures
    have hc : quote ≠ c := by
      rintro rfl
      rw [hName quote (hEq ▸ List.mem_append_right _ List.mem_cons_self)] at hQuote
      cases hQuote
    rw [Pattern.run_all_cons, Pattern.run_lit_eq_none hc]
  · rw [Pattern.run_all_cons]
    exact Pattern.run_lit [quote] hNext

theorem isKeyChar_quote {quote : Char} (h : quote ∈ ['"', '\'']) : isKeyChar quote = false := by
  revert quote
  decide

namespace KeyText

variable (key : KeyText) (marked : Bool) (rest : Text)

theorem run_label (previous : Option Char) (offset : Nat) :
    ∃ last, memberLabel.run ⟨previous, offset, (key.print ++ markText marked) ++ ':' :: rest, []⟩
      some = some last ∧
      last.offset = offset + (key.print ++ markText marked).length ∧
      ReadsLabel key.name marked last := by
  cases key with
  | bare name hName => exact run_nameLabel hName marked List.mem_cons_self rest previous offset
  | quoted quote name hQuote hNonempty hKey =>
    let after := markText marked ++ ':' :: rest
    let record : Pattern.Capture MemberPart :=
      ⟨.name, offset + 1, name ++ quote :: after, name.length⟩
    have hText :
        (print (.quoted quote name hQuote hNonempty hKey) ++ markText marked) ++ ':' :: rest =
        quote :: (name ++ quote :: after) := by
      simp [print, after]
    have hTake : record.text = name := List.take_left
    obtain ⟨last, hMark, hOffset, hReads⟩ :=
      run_mark marked (List.mem_cons_self : ':' ∈ [':', '(']) rest
      (some quote) (offset + 1 + name.length + 1) (rfl : record.name = .name)
    rw [hTake] at hReads
    let next (cursor : Pattern.Cursor MemberPart) : Option (Pattern.Cursor MemberPart) :=
      Pattern.run (.all [.blanks, .opt (.capture MemberPart.optional (.lit ['?'])), .blanks])
        cursor some
    have hQuoted :
        (quotedName quote).run ⟨previous, offset, quote :: (name ++ quote :: after), []⟩ next =
        some last := run_quoted (isKeyChar_quote hQuote) hNonempty hKey after previous offset hMark
    refine ⟨last, ?_, ?_, hReads⟩
    · rw [hText]
      show Pattern.run (.either _ (.either _ _)) _ next = _
      rcases List.mem_pair.mp hQuote with rfl | rfl
      · rw [Pattern.run, hQuoted]
      · rw [Pattern.run_either (run_quotedName_eq_none (by decide) _ _ _ _), Pattern.run, hQuoted]
    · rw [hOffset]
      simp [print]
      omega

theorem isBlank_print : ∀ c ∈ key.print, isBlank c = false := by
  cases key with
  | bare name hName =>
    exact fun c hc => isBlank_of_isNameChar (isNameChar_of_isIdentifier hName c hc)
  | quoted quote name hQuote _ hKey =>
    have hVisible : isBlank quote = false := by
      revert quote
      decide
    refine List.forall_mem_cons.mpr ⟨hVisible, List.forall_mem_append.mpr ⟨?_, ?_⟩⟩
    · exact fun c hc => isBlank_of_isKeyChar (hKey c hc)
    · exact List.forall_mem_singleton.mpr hVisible

theorem print_ne_nil : key.print ≠ [] := by
  cases key with
  | bare name hName => exact ne_nil_of_isIdentifier hName
  | quoted => exact List.cons_ne_nil _ _

theorem run_readonly (again : Pattern.Next MemberPart) :
    (Pattern.seq (.lit "readonly") Pattern.blanks1).run
      ⟨none, 0, (key.print ++ markText marked) ++ ':' :: rest, []⟩ again = none := by
  cases key with
  | bare name hName => exact TypeText.run_readonly hName marked List.mem_cons_self rest again
  | quoted quote name hQuote _ _ =>
    have hLetter : 'r' ≠ quote := by
      rintro rfl
      exact absurd hQuote (by decide)
    rw [Pattern.run]
    exact Pattern.run_lit_eq_none hLetter _

end KeyText

theorem run_readonly_word {rest : Text} (hRest : ∀ c ∈ rest.head?, isBlank c = false)
    {again : Pattern.Next MemberPart} {last : Pattern.Cursor MemberPart}
    (hAgain : again ⟨some ' ', 9, rest, []⟩ = some last) :
    (Pattern.opt (.seq (.lit "readonly") Pattern.blanks1)).run
      ⟨none, 0, "readonly ".toList ++ rest, []⟩ again =
      some last := by
  have hGap : Pattern.IsGap [' '] := ⟨by decide, by decide⟩
  refine Pattern.run_opt_eq_some ?_
  rw [Pattern.run]
  exact Pattern.run_lit "readonly" (Pattern.run_blanks1 hGap hRest hAgain)

namespace PropertyText

variable (property : PropertyText)

/-- A property is read up to its colon. -/
theorem run_memberHead (rest : Text) :
    ∃ last, memberHead.run ⟨none, 0, property.label ++ ':' :: rest, []⟩ some = some last ∧
      last.offset = property.label.length ∧ ReadsLabel property.key.name property.marked last := by
  unfold label
  cases property.isReadonly with
  | false =>
    obtain ⟨last, hRun, hOffset, hReads⟩ := property.key.run_label property.marked rest none 0
    refine ⟨last, ?_, hOffset.trans (Nat.zero_add _), hReads⟩
    show Pattern.run (.seq (.opt _) memberLabel) _ _ = _
    rw [Pattern.run]
    exact (Pattern.run_opt (property.key.run_readonly property.marked rest _)).trans hRun
  | true =>
    obtain ⟨last, hRun, hOffset, hReads⟩ := property.key.run_label property.marked rest (some ' ') 9
    have hHead : ∀ c ∈ ((property.key.print ++ markText property.marked) ++ ':' :: rest).head?,
        isBlank c = false := by
      rw [List.append_assoc, List.head?_append_of_ne_nil _ property.key.print_ne_nil]
      exact fun c hc => property.key.isBlank_print c (List.mem_of_mem_head? hc)
    refine ⟨last, run_readonly_word hHead hRun, ?_, hReads⟩
    rw [hOffset, readonlyText, if_pos rfl, List.length_append, List.length_append,
      List.length_append]
    rfl

/-- The text of a property declares its member. -/
theorem memberOf?_print (file : Option Text) :
    memberOf? file property.print = some (property.member file) := by
  obtain ⟨last, hRun, hOffset, hReads⟩ := property.run_memberHead (' ' :: property.type)
  obtain ⟨-, hTrimmed, -⟩ := of_normalize_eq_self property.isType.normal
  have hRest : Trimmed (':' :: ' ' :: property.type) := by
    refine ⟨?_, ?_⟩
    · rintro c ⟨⟩
      decide
    · rw [List.getLast?_cons_of_ne_nil (List.cons_ne_nil _ _),
        List.getLast?_cons_of_ne_nil property.isType.ne_nil]
      exact hTrimmed.last
  have hType : memberType? (':' :: ' ' :: property.type) = some property.type := by
    have hSpace : trim (' ' :: property.type) = property.type := by
      rw [trim_cons (by decide), hTrimmed.trim_eq]
    show some (normalize (' ' :: property.type)) = _
    rw [← normalize_trim, hSpace, property.isType.normal]
  exact memberOf?_of_run hRun hOffset hReads hRest hType file

/-! ## Texts of properties -/

/-- The characters before the type of a property. -/
def isOpeningChar (c : Char) : Bool := isNameChar c || c ∈ ['-', '"', '\'', '?', ':', ' ']

/-- What stands before the type of a property. -/
def opening : Text := property.label ++ [':', ' ']

theorem print_eq : property.print = property.opening ++ property.type := by
  unfold print opening
  rw [List.append_assoc]
  rfl

theorem isOpeningChar_opening : ∀ c ∈ property.opening, isOpeningChar c = true := by
  have hName : ∀ {c}, isNameChar c = true → isOpeningChar c = true := fun hc => by
    rw [isOpeningChar, hc, Bool.true_or]
  have hKeyChar : ∀ {c}, isKeyChar c = true → isOpeningChar c = true := by
    intro c hc
    rcases Bool.or_eq_true_iff.mp hc with hc | hc
    · exact hName (isNameChar_of_isWordChar hc)
    · rw [of_decide_eq_true hc]
      decide
  have hKey : ∀ c ∈ property.key.print, isOpeningChar c = true := by
    cases property.key with
    | bare name hIdentifier => exact fun c hc => hName (isNameChar_of_isIdentifier hIdentifier c hc)
    | quoted quote name hQuote _ hChars =>
      have hMark : isOpeningChar quote = true := by
        revert quote
        decide
      refine List.forall_mem_cons.mpr ⟨hMark,
        List.forall_mem_append.mpr ⟨fun c hc => hKeyChar (hChars c hc), ?_⟩⟩
      exact List.forall_mem_singleton.mpr hMark
  refine List.forall_mem_append.mpr
    ⟨List.forall_mem_append.mpr ⟨?_, List.forall_mem_append.mpr ⟨hKey, ?_⟩⟩, ?_⟩
  · cases property.isReadonly <;> decide
  · cases property.marked <;> decide
  · decide

theorem balanced_opening : property.opening.Balanced := by
  refine .of_forall (fun c hc =>
    nesting_of_class (property.isOpeningChar_opening c hc) (by decide) none) ?_
  intro hMem
  exact absurd (property.isOpeningChar_opening _ hMem) (by decide)

theorem depthFrom_print : depthFrom none 0 property.print = 0 := by
  rw [print_eq, property.balanced_opening.depthFrom_append, property.isType.depth_eq]

theorem above_print : Above (-1) none 0 property.print := by
  rw [print_eq]
  exact property.balanced_opening.above_append property.isType.above

theorem uncut_print : Uncut isMemberSeparator none 0 property.print := by
  rw [print_eq]
  refine property.balanced_opening.uncut_append (uncut_of_forall (fun c hc => ?_) _ _)
    property.isType.uncut
  have hNone : ∀ d ∈ [';', ','], isOpeningChar d = false := by decide
  refine decide_eq_false fun hMem => ?_
  exact ne_of_class (property.isOpeningChar_opening c hc) (hNone c hMem) rfl

theorem contains_print {a : Char} {part : Text} (ha : isOpeningChar a = false) :
    contains (a :: part) property.print = contains (a :: part) property.type := by
  rw [print_eq, contains_append_of_not_mem]
  exact fun hMem => ne_of_class (property.isOpeningChar_opening a hMem) ha rfl

theorem tight_type : property.type.Tight := by
  obtain ⟨hCollapse, hTrimmed, -⟩ := of_normalize_eq_self property.isType.normal
  exact ⟨property.isType.ne_nil, hCollapse, hTrimmed⟩

theorem tight_print : property.print.Tight := by
  have hLabel : Tight (property.key.print ++ markText property.marked ++ [':']) := by
    refine .of_visible (by simp) (List.forall_mem_append.mpr ⟨List.forall_mem_append.mpr
      ⟨property.key.isBlank_print, ?_⟩, by decide⟩)
    cases property.marked <;> decide
  have hLater := hLabel.spaced property.tight_type
  cases hReadonly : property.isReadonly with
  | false =>
    have hText : property.print =
        (property.key.print ++ markText property.marked ++ [':']) ++ ' ' :: property.type := by
      simp [print, label, readonlyText, hReadonly]
    rwa [hText]
  | true =>
    have hText : property.print = "readonly".toList ++ ' ' ::
        ((property.key.print ++ markText property.marked ++ [':']) ++ ' ' :: property.type) := by
      simp [print, label, readonlyText, hReadonly]
    have hWord : Tight "readonly" := .of_visible (by decide) (by decide)
    rw [hText]
    exact hWord.spaced hLater

/-- A property begins with a character of a label, so it continues no type. -/
theorem head_print : ∀ c ∈ property.print.head?, c ∉ ['|', '&'] := by
  have hNonempty : property.opening ≠ [] := by simp [opening]
  rw [print_eq, List.head?_append_of_ne_nil _ hNonempty]
  intro c hc hMem
  have hNone : ∀ d ∈ ['|', '&'], isOpeningChar d = false := by decide
  exact ne_of_class (property.isOpeningChar_opening c (List.mem_of_mem_head? hc)) (hNone c hMem) rfl

theorem goesOn_print : goesOn property.print [] = false := by
  have hLast : property.opening.getLast? ≠ some '=' := by
    simp [opening]
  have hEnd : property.type.getLast?.any (· ∈ ['|', '&', ':']) = false := by
    cases hType : property.type.getLast? with
    | none => rfl
    | some c => exact decide_eq_false (property.isType.last_not_mem c hType)
  rw [print_eq, goesOn_append property.isType.ne_nil hLast, goesOn, hEnd, property.isType.no_arrow]
  rfl

theorem uncut_piece : Uncut isEntrySeparator none 0 (' ' :: property.print) := by
  have hSpace : Balanced [' '] := .of_forall (by decide) (by decide)
  refine hSpace.uncut_append (s := [' ']) (uncut_of_forall (by decide) _ _)
    (property.uncut_print.mono ?_)
  intro c hc hSeparator
  have hMem : c ∈ [';', ','] ++ ['\n'] := decide_eq_true_iff.mp hSeparator
  rcases List.mem_append.mp hMem with hMem | hMem
  · exact decide_eq_true hMem
  · exact absurd (List.mem_singleton.mp hMem ▸ hc) property.tight_print.line_feed_not_mem

end PropertyText

/-! ## Rows -/

theorem tight_separator {separator : Char} (h : isMemberSeparator separator = true) :
    Tight [separator] := by
  refine .of_visible (List.cons_ne_nil _ _)
    (List.forall_mem_singleton.mpr (Bool.eq_false_iff.mpr fun hBlank => ?_))
  rw [isMemberSeparator_of_isBlank hBlank] at h
  cases h

namespace IsRow

variable {properties : List PropertyText} {row : Text}

theorem tight (h : IsRow properties row) (hNonempty : properties ≠ []) : row.Tight := by
  induction h with
  | nil => exact absurd rfl hNonempty
  | last property => exact property.tight_print
  | trailing property hSeparator => exact property.tight_print.append (tight_separator hSeparator)
  | @cons property next properties rest separator hSeparator _ ih =>
    have hLater := (tight_separator hSeparator).spaced (ih (List.cons_ne_nil _ _))
    exact property.tight_print.append hLater

/-- A row with the space after it closes no bracket that it does not open. -/
theorem rises (h : IsRow properties row) : Rises (row ++ [' ']) := by
  have hSpace : Balanced [' '] := .of_forall (by decide) (by decide)
  have hClosed : ∀ (property : PropertyText) {c : Char},
      (∀ previous, nesting previous c = 0) → c ≠ '=' →
      Balanced (property.print ++ [c]) := fun property _ =>
    Balanced.concat property.depthFrom_print property.above_print
  have hPiece : ∀ (property : PropertyText) {separator : Char}, isMemberSeparator separator = true →
      Balanced (property.print ++ [separator]) := fun property _ hSeparator =>
    hClosed property (nesting_of_class hSeparator (by decide)) (ne_of_class hSeparator (by decide))
  induction h with
  | nil => exact hSpace.rises
  | last property => exact (hClosed property (nesting_of_isBlank (by decide)) (by decide)).rises
  | trailing property hSeparator => exact ((hPiece property hSeparator).append hSpace).rises
  | @cons property next properties rest separator hSeparator _ ih =>
    have hText : (property.print ++ separator :: ' ' :: rest) ++ [' '] =
        ((property.print ++ [separator]) ++ [' ']) ++ (rest ++ [' ']) := by simp
    rw [hText]
    exact ((hPiece property hSeparator).append hSpace).rises.append ih

theorem contains_eq_false (h : IsRow properties row) {b : Char} (hb : b ∈ ['/', '*']) :
    contains ['/', b] (row ++ [' ']) = false := by
  have hVisible : ∀ c ∈ [';', ',', ' '], c ≠ b ∧ c ≠ '/' := by
    rcases List.mem_pair.mp hb with rfl | rfl <;> decide
  have hType : ∀ property : PropertyText, contains ['/', b] property.print = false := by
    intro property
    rw [property.contains_print (by decide)]
    rcases List.mem_pair.mp hb with rfl | rfl
    · exact property.isType.no_line_comment
    · exact property.isType.no_block_comment
  have hPass : ∀ c ∈ [';', ',', ' '], ∀ t, contains ['/', b] (c :: t) = contains ['/', b] t :=
    fun c hc t =>
      contains_append_of_not_mem (s := [c]) (List.mem_singleton.not.mpr (hVisible c hc).2.symm) t
  have hAfter : ∀ (property : PropertyText), ∀ c ∈ [';', ',', ' '], ∀ t,
      contains ['/', b] t = false →
      contains ['/', b] (property.print ++ c :: t) = false := by
    intro property c hc t ht
    refine contains_pair_append (hType property) ((hPass c hc t).trans ht) ?_
    rintro d ⟨⟩
    exact (hVisible c hc).1
  have hMark : ∀ {separator : Char}, isMemberSeparator separator = true →
      separator ∈ [';', ',', ' '] :=
    fun hSeparator => List.mem_append_left [' '] (of_decide_eq_true hSeparator)
  induction h with
  | nil => exact hPass ' ' (by decide) []
  | last property => exact hAfter property ' ' (by decide) [] rfl
  | @trailing property separator hSeparator =>
    rw [List.append_assoc]
    exact hAfter property separator (hMark hSeparator) [' '] (hPass ' ' (by decide) [])
  | @cons property next properties rest separator hSeparator _ ih =>
    rw [List.append_assoc]
    exact hAfter property separator (hMark hSeparator) _ ((hPass ' ' (by decide) _).trans ih)

theorem entries_eq (h : IsRow properties row) :
    ((entriesFrom 0 [] (' ' :: (row ++ [' ']))).map trim).filter (· ≠ []) =
      properties.map (·.print) := by
  have hTrim : ∀ property : PropertyText, trim (' ' :: property.print) = property.print :=
    fun property => by
    rw [trim_cons (by decide), property.tight_print.trimmed.trim_eq]
  have hBlank : ∀ spaces ∈ [[' '], [' ', ' ']],
      ((entriesFrom 0 [] spaces).map trim).filter (· ≠ []) = [] := by
    decide
  have hPiece : ∀ (property : PropertyText) {separator : Char},
      isMemberSeparator separator = true → ∀ rest,
      ((entriesFrom 0 [] (' ' :: property.print ++ separator :: rest)).map trim).filter (· ≠ []) =
        property.print :: ((entriesFrom 0 [] rest).map trim).filter (· ≠ []) := by
    intro property separator hSeparator rest
    have hSpace : Balanced [' '] := .of_forall (by decide) (by decide)
    have hDepth : depthFrom none 0 (' ' :: property.print) = 0 :=
      (hSpace.depthFrom_append property.print).trans property.depthFrom_print
    rw [entriesFrom_piece hDepth property.uncut_piece hSeparator, List.map_cons, hTrim,
      List.filter_cons, if_pos (decide_eq_true property.tight_print.ne_nil)]
  induction h with
  | nil => exact hBlank _ (by decide)
  | last property =>
    have hUncut : Uncut isEntrySeparator none 0 (' ' :: (property.print ++ [' '])) := by
      refine uncut_append.mpr ⟨property.uncut_piece, ?_⟩
      exact uncut_of_forall (by decide) _ _
    have hEnd : trim (' ' :: (property.print ++ [' '])) = property.print := by
      rw [trim_cons (by decide), trim_append_blanks (by decide),
        property.tight_print.trimmed.trim_eq]
    rw [entriesFrom_last hUncut, List.map_singleton, hEnd, List.filter_singleton,
      decide_eq_true property.tight_print.ne_nil]
    rfl
  | @trailing property separator hSeparator =>
    rw [List.append_assoc]
    exact (hPiece property hSeparator [' ']).trans (congrArg _ (hBlank _ (by decide)))
  | @cons property next properties rest separator hSeparator _ ih =>
    rw [List.append_assoc]
    exact (hPiece property hSeparator _).trans (congrArg _ ih)

theorem filterMap_memberEntries (h : IsRow properties row) (file : Option Text) :
    (memberEntries (' ' :: (row ++ [' ']))).filterMap (memberOf? file) =
      properties.map (·.member file) := by
  have hEach : memberOf? file ∘ PropertyText.print = fun property => some (property.member file) :=
    funext fun property => property.memberOf?_print file
  rw [memberEntries_of_entries h.entries_eq, filterMap_memberOf?, List.filterMap_map, hEach,
    List.filterMap_eq_map']
  · intro entry hEntry
    obtain ⟨property, -, rfl⟩ := List.mem_map.mp hEntry
    exact property.goesOn_print
  · intro entry hEntry
    obtain ⟨property, -, rfl⟩ := List.mem_map.mp hEntry
    exact property.head_print

theorem membersUpTo_eq (h : IsRow properties row) (program : Program) (depth : Nat)
    (file : Option Text) :
    membersUpTo program (depth + 1) ⟨normalize (objectText (' ' :: (row ++ [' ']))), file⟩ =
      Member.merge (properties.map (·.member file)) := by
  have hRises : Rises (' ' :: (row ++ [' '])) :=
    Rises.append (s := [' ']) (Balanced.of_forall (by decide) (by decide)).rises h.rises
  cases hProperties : properties with
  | nil =>
    subst hProperties
    cases h
    -- Between the braces stand two blanks, which collapse to one.
    have hSpace : Rises (Text.collapseFrom false [' ', ' ']) :=
      (Balanced.of_forall (t := [' ']) (by decide) (by decide)).rises
    have hNone : memberEntries (dropComments [' ']) = [] := by decide
    refine (membersUpTo_braces hSpace program depth file).trans ?_
    exact (objectMembers_objectText file [' ']).trans (by rw [hNone]; rfl)
  | cons property later =>
    have hTight := h.tight (hProperties ▸ List.cons_ne_nil property later)
    have hCollapse : Text.collapseFrom false (' ' :: (row ++ [' '])) = ' ' :: (row ++ [' ']) := by
      rw [Text.collapseFrom, if_pos (by decide), if_neg Bool.false_ne_true,
        hTight.collapseFrom_append]
      rfl
    have hComment : ∀ {b}, b ∈ ['/', '*'] →
        contains ['/', b] (' ' :: (row ++ [' '])) = false := fun hb =>
      (contains_append_of_not_mem (s := [' ']) (by decide) _).trans (h.contains_eq_false hb)
    rw [membersUpTo_braces (hCollapse.symm ▸ hRises), hCollapse, objectMembers_objectText,
      dropComments_eq_self (hComment (by decide)) (hComment (by decide)),
      h.filterMap_memberEntries, hProperties]

end IsRow

/-- For every row of properties with distinct names in braces, in every program and file: the
members of the type are those that the properties declare, in their order. -/
theorem members_row {properties : List PropertyText} {row : Text} (h : IsRow properties row)
    (hDistinct : (properties.map (·.key.name)).Nodup) (program : Program) (file : Option Text) :
    TypeText.members program ⟨'{' :: ' ' :: (row ++ [' ', '}']), file⟩ =
      properties.map (·.member file) := by
  have hText : '{' :: ' ' :: (row ++ [' ', '}']) = objectText (' ' :: (row ++ [' '])) := by
    simp [objectText]
  have hNames : ((properties.map (·.member file)).map (·.name)).Nodup := by
    rwa [List.map_map]
  rw [hText]
  exact (h.membersUpTo_eq program 8 file).trans (Member.merge_eq_self hNames)

theorem members_row_nested :
    let text : Text := r"{ readonly 'data-id': Map<string, { a: 1; b: 2 }>; " ++
      r#"on?: (e: E) => void, "x": A | undefined; }"#
    TypeText.members (.empty {}) ⟨text, none⟩ =
      [⟨"data-id", ⟨"Map<string, { a: 1; b: 2 }>", none⟩, false⟩,
        ⟨"on", ⟨"(e: E) => void", none⟩, true⟩, ⟨"x", ⟨"A | undefined", none⟩, true⟩] := by
  intro text
  let first : PropertyText :=
    ⟨true, .quoted '\'' "data-id" (by decide) (by decide) (by decide), false,
      "Map<string, { a: 1; b: 2 }>", by decide +kernel⟩
  let second : PropertyText :=
    ⟨false, .bare "on" (by decide), true, "(e: E) => void", by decide +kernel⟩
  let third : PropertyText :=
    ⟨false, .quoted '"' "x" (by decide) (by decide) (by decide), false, "A | undefined",
      by decide +kernel⟩
  let row : Text :=
    first.print ++ ';' :: ' ' :: (second.print ++ ',' :: ' ' :: (third.print ++ [';']))
  have hRow : IsRow [first, second, third] row :=
    .cons first (by decide) (.cons second (by decide) (.trailing third (by decide)))
  have hText : text = '{' :: ' ' :: (row ++ [' ', '}']) := by decide +kernel
  rw [hText, members_row hRow (by decide) (.empty {}) none]
  decide +kernel

end TypeText

end TemplateCheck
