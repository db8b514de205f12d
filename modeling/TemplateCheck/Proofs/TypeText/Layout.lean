import TemplateCheck.Proofs.Pattern.Replace
import TemplateCheck.Proofs.Text.Collapse
import TemplateCheck.Proofs.TypeText.Shape

/-!
# Layouts of members

The members of an object type are written one after the other with a semicolon or a comma between
neighbours. Around each of them may stand blanks, line feeds among them, and block comments. What a
member is written as is its name, a question mark if it is optional, a colon and its type
(`MemberText`, `IsBody`). The layout itself asks less of what it lays out: texts that can stand
between separators (`EntryText`, `IsLayout`).

Two passes go over the body before its members are told apart. Collapsing keeps the layout, with
other fillers (`IsLayout.collapseFrom`). Dropping comments leaves a layout whose fillers are spaces
(`IsLayout.dropComments`).
-/

namespace TemplateCheck

namespace TypeText

open Text

/-! ## Members as they are written -/

/-- What may stand between members. -/
def isMemberSeparator (c : Char) : Bool := c ∈ [';', ',']

/-- The text of a type that can stand in a member: its brackets are balanced, it holds no comment
and no separator outside brackets, and it does not end in the middle of a type. -/
structure MemberType (t : Text) : Prop where
  balanced : t.Balanced
  uncut : Uncut isMemberSeparator none 0 t
  no_line_comment : contains "//" t = false
  no_block_comment : contains "/*" t = false
  ne_blank : trim (collapse t) ≠ []
  complete : goesOn (trim (collapse t)) [] = false

instance (t : Text) : Decidable (MemberType t) :=
  decidable_of_iff (t.Balanced ∧ Uncut isMemberSeparator none 0 t ∧ contains "//" t = false ∧
      contains "/*" t = false ∧ trim (collapse t) ≠ [] ∧ goesOn (trim (collapse t)) [] = false)
    ⟨fun ⟨hBalanced, hUncut, hLine, hBlock, hNonempty, hComplete⟩ =>
      ⟨hBalanced, hUncut, hLine, hBlock, hNonempty, hComplete⟩,
    fun h => ⟨h.balanced, h.uncut, h.no_line_comment, h.no_block_comment, h.ne_blank, h.complete⟩⟩

/-- A member as it is written. -/
structure MemberText where
  name : Text
  /-- Whether a question mark follows the name. -/
  marked : Bool
  type : Text
  isIdentifier : name.isIdentifier = true
  isType : MemberType type

namespace MemberText

/-- What stands between the name of a member and its colon. -/
def mark (member : MemberText) : Text := if member.marked then ['?'] else []

/-- The text of a member before its colon. -/
def head (member : MemberText) : Text := member.name ++ member.mark

/-- The text of a member. -/
def print (member : MemberText) : Text := member.head ++ ':' :: member.type

/-- The member that is declared in a file. -/
def member (file : Option Text) (member : MemberText) : Member where
  name := member.name
  type := ⟨normalize member.type, file⟩
  optional := member.marked || "undefined".toList ∈ unionParts (normalize member.type)

end MemberText

/-! ## Layouts -/

/-- Blanks of a class and block comments, of which none closes a bracket that it does not open. -/
inductive IsFiller (isGap : Char → Bool) : Text → Prop
  | nil : IsFiller isGap []
  | gap {c : Char} {rest : Text} (isGap_c : isGap c = true) (later : IsFiller isGap rest) :
      IsFiller isGap (c :: rest)
  | comment {body rest : Text} (unclosed : contains "*/" body = false)
      (above : Above (-1) none 0 body) (later : IsFiller isGap rest) :
      IsFiller isGap ('/' :: '*' :: (body ++ '*' :: '/' :: rest))

/-- A text that lays out members, each between fillers, with separators between neighbours and
perhaps after the last one. -/
inductive IsBody (Filler : Text → Prop) : List MemberText → Text → Prop
  | nil {filler : Text} (isFiller : Filler filler) : IsBody Filler [] filler
  | last (member : MemberText) {before after : Text} (isBefore : Filler before)
      (isAfter : Filler after) : IsBody Filler [member] (before ++ (member.print ++ after))
  | cons (member : MemberText) {members : List MemberText} {before after rest : Text}
      {separator : Char} (isBefore : Filler before) (isAfter : Filler after)
      (isSeparator : isMemberSeparator separator = true) (later : IsBody Filler members rest) :
      IsBody Filler (member :: members) (before ++ (member.print ++ (after ++ separator :: rest)))

/-- A text that can stand between separators: its brackets are balanced, it holds no comment and no
separator outside brackets, and it neither begins nor ends in the middle of a type. -/
structure EntryText (t : Text) : Prop where
  balanced : t.Balanced
  uncut : Uncut isMemberSeparator none 0 t
  no_line_comment : contains "//" t = false
  no_block_comment : contains "/*" t = false
  starts : ∃ c ∈ t.head?, isBlank c = false ∧ c ∉ ['|', '&']
  complete : goesOn (trim (collapse t)) [] = false

/-- A text that lays out entries as a body lays out members. -/
inductive IsLayout (Filler : Text → Prop) : List Text → Text → Prop
  | nil {filler : Text} (isFiller : Filler filler) : IsLayout Filler [] filler
  | last {entry before after : Text} (isEntry : EntryText entry) (isBefore : Filler before)
      (isAfter : Filler after) : IsLayout Filler [entry] (before ++ (entry ++ after))
  | cons {entry : Text} {entries : List Text} {before after rest : Text} {separator : Char}
      (isEntry : EntryText entry) (isBefore : Filler before) (isAfter : Filler after)
      (isSeparator : isMemberSeparator separator = true) (later : IsLayout Filler entries rest) :
      IsLayout Filler (entry :: entries) (before ++ (entry ++ (after ++ separator :: rest)))

/-- Spaces only. -/
def IsSpaces (t : Text) : Prop := ∀ c ∈ t, c = ' '

/-! ## Characters of members -/

theorem isMemberSeparator_of_isBlank {c : Char} (h : isBlank c = true) :
    isMemberSeparator c = false := by
  refine decide_eq_false fun hMem => ?_
  rcases List.mem_pair.mp hMem with rfl | rfl
  · cases h
  · cases h

namespace MemberText

variable (member : MemberText)

theorem name_chars : ∀ c ∈ member.name, isNameChar c = true :=
  isNameChar_of_isIdentifier member.isIdentifier

theorem isNameStart_head (rest : Text) : ∀ c ∈ (member.head ++ rest).head?,
      isNameStart c = true := by
  obtain ⟨c, later, hName, hc, -⟩ := exists_cons_of_isIdentifier member.isIdentifier
  rw [head, hName]
  rintro d ⟨⟩
  exact hc

theorem head_chars : ∀ c ∈ member.head, isNameChar c = true ∨ c = '?' := by
  refine List.forall_mem_append.mpr ⟨fun c hc => .inl (member.name_chars c hc), fun c hc => .inr ?_⟩
  unfold mark at hc
  split_ifs at hc
  · exact List.mem_singleton.mp hc
  · cases hc

theorem not_mem_head {c : Char} (hc : isNameChar c = false ∧ c ≠ '?') : c ∉ member.head := by
  intro hMem
  rcases member.head_chars c hMem with h | h
  · exact ne_of_class h hc.1 rfl
  · exact hc.2 h

theorem isBlank_head {c : Char} (hc : c ∈ member.head) : isBlank c = false := by
  rcases member.head_chars c hc with h | rfl
  · exact isBlank_of_isNameChar h
  · decide

end MemberText

/-! ## Collapsing a layout -/

theorem normalize_collapse (t : Text) : normalize (collapse t) = normalize t := by
  unfold normalize
  rw [collapse_collapse]

theorem normalize_trimEnd (t : Text) : normalize (trimEnd t) = normalize t := by
  unfold normalize
  rw [trim_collapse_trimEnd]

theorem normalize_trim (t : Text) : normalize (trim t) = normalize t := by
  unfold normalize
  rw [trim_collapse_trim]

theorem uncut_collapse {t : Text} (h : Uncut isMemberSeparator none 0 t) :
    Uncut isMemberSeparator none 0 (collapse t) :=
  h.collapseFrom (fun _ => rfl) (fun hPending => absurd hPending Bool.false_ne_true)
    fun _ hc => isMemberSeparator_of_isBlank hc

theorem MemberType.collapse {t : Text} (h : MemberType t) : MemberType (collapse t) where
  balanced := h.balanced.collapseFrom false
  uncut := uncut_collapse h.uncut
  no_line_comment := contains_collapseFrom (by decide) (by decide) h.no_line_comment false
  no_block_comment := contains_collapseFrom (by decide) (by decide) h.no_block_comment false
  ne_blank := by
    rw [collapse_collapse]
    exact h.ne_blank
  complete := by
    rw [collapse_collapse]
    exact h.complete

/-- The member with the blanks in its type collapsed. -/
def MemberText.collapse (member : MemberText) : MemberText :=
  { member with type := Text.collapse member.type, isType := member.isType.collapse }

theorem MemberText.member_collapse (file : Option Text) (member : MemberText) :
    member.collapse.member file = member.member file := by
  unfold MemberText.member
  rw [show normalize member.collapse.type = normalize member.type
    from normalize_collapse member.type]
  rfl

theorem MemberText.collapseFrom_print (member : MemberText) (pending : Bool) (rest : Text) :
    collapseFrom pending (member.print ++ rest) =
      member.collapse.print ++ collapseFrom (pendingAfter false member.type) rest := by
  have hHead := collapseFrom_eq_self (fun c hc => member.isBlank_head hc) pending
  rw [print, List.append_assoc, collapseFrom_append, hHead, List.cons_append, collapseFrom,
    if_neg (by decide), collapseFrom_append, print, List.append_assoc]
  rfl

namespace EntryText

variable {t : Text} (h : EntryText t)

include h

theorem exists_cons : ∃ c rest, t = c :: rest ∧ isBlank c = false ∧ c ∉ ['|', '&'] := by
  obtain ⟨c, hc, hVisible, hNot⟩ := h.starts
  obtain ⟨rest, rfl⟩ := List.head?_eq_some_iff.mp hc
  exact ⟨c, rest, rfl, hVisible, hNot⟩

theorem collapse : EntryText (collapse t) where
  balanced := h.balanced.collapseFrom false
  uncut := uncut_collapse h.uncut
  no_line_comment := contains_collapseFrom (by decide) (by decide) h.no_line_comment false
  no_block_comment := contains_collapseFrom (by decide) (by decide) h.no_block_comment false
  starts := by
    obtain ⟨c, rest, rfl, hVisible, hNot⟩ := h.exists_cons
    refine ⟨c, ?_, hVisible, hNot⟩
    rw [Text.collapse, Text.collapseFrom, hVisible]
    rfl
  complete := by
    rw [collapse_collapse]
    exact h.complete

/-- Since an entry begins with no blank, it is collapsed by itself. -/
theorem collapseFrom_append (pending : Bool) (rest : Text) : collapseFrom pending (t ++ rest) =
    Text.collapse t ++ collapseFrom (pendingAfter false t) rest := by
  obtain ⟨c, t, rfl, hVisible, -⟩ := h.exists_cons
  rw [Text.collapseFrom_append, Text.collapse, Text.collapseFrom, Text.collapseFrom, hVisible]
  rfl

end EntryText

theorem IsFiller.collapseFrom {filler : Text} (h : IsFiller isBlank filler) (pending : Bool) :
    IsFiller (· = ' ') (collapseFrom pending filler) := by
  induction h generalizing pending with
  | nil => exact .nil
  | gap hBlank _ ih =>
    rw [Text.collapseFrom, if_pos hBlank]
    cases pending with
    | true =>
      rw [if_pos rfl]
      exact ih true
    | false =>
      rw [if_neg Bool.false_ne_true]
      exact .gap (decide_eq_true rfl) (ih true)
  | @comment body rest hUnclosed hAbove _ ih =>
    rw [Text.collapseFrom, if_neg (by decide), Text.collapseFrom, if_neg (by decide),
      collapseFrom_append, Text.collapseFrom, if_neg (by decide), Text.collapseFrom,
      if_neg (by decide)]
    refine .comment (contains_collapseFrom (by decide) (by decide) hUnclosed false) ?_ (ih false)
    exact hAbove.collapseFrom (fun _ => rfl) fun _ => (Option.some_ne_none _).symm

theorem IsLayout.collapseFrom {entries : List Text} {body : Text}
    (h : IsLayout (IsFiller isBlank) entries body) (pending : Bool) :
    IsLayout (IsFiller (· = ' ')) (entries.map Text.collapse) (collapseFrom pending body) := by
  induction h generalizing pending with
  | nil hFiller => exact .nil (hFiller.collapseFrom pending)
  | last hEntry hBefore hAfter =>
    rw [collapseFrom_append, hEntry.collapseFrom_append]
    exact .last hEntry.collapse (hBefore.collapseFrom _) (hAfter.collapseFrom _)
  | @cons entry entries before after rest separator hEntry hBefore hAfter hSeparator _ ih =>
    have hVisible : ¬ isBlank separator = true := fun hBlank =>
      Bool.false_ne_true ((isMemberSeparator_of_isBlank hBlank).symm.trans hSeparator)
    rw [collapseFrom_append, hEntry.collapseFrom_append, collapseFrom_append, Text.collapseFrom,
      if_neg hVisible]
    exact .cons hEntry.collapse (hBefore.collapseFrom _)
      (hAfter.collapseFrom _) hSeparator (ih false)

/-! ## Block comments -/

theorem advances_blockComment : blockComment.Advances := by
  intro a b hReads
  obtain ⟨middle, hOpen, hMore⟩ := hReads.seq_inv
  obtain ⟨read, -, hOffset⟩ := hMore.exists_passed
  cases hOpen with
  | lit hRest =>
    rw [hOffset]
    show a.offset < a.offset + 2 + read.length
    omega

theorem readAt_blockComment_eq_none {t : Text} (h : startsWith "/*" t = false)
    (previous : Option Char) (offset : Nat) : blockComment.readAt previous offset t = none := by
  refine Option.eq_none_iff_forall_ne_some.mpr fun found hFound => ?_
  obtain ⟨last, hReads, -⟩ := Pattern.exists_reads_of_readAt hFound
  obtain ⟨a, hOpen, -⟩ := hReads.seq_inv
  rw [show t = _ from hOpen.lit_inv.1, startsWith, dropStart?_append] at h
  cases h

/-- A comment is read up to the first place where it is closed. -/
theorem readAt_blockComment {body : Text} (h : contains "*/" body = false) (rest : Text)
    (previous : Option Char) (offset : Nat) :
    ∃ found, blockComment.readAt previous offset ('/' :: '*' :: (body ++ '*' :: '/' :: rest)) =
      some found ∧
      found.stop = offset + (body.length + 4) := by
  have hRun :
      blockComment.run ⟨previous, offset, '/' :: '*' :: (body ++ '*' :: '/' :: rest), []⟩ some =
      some ⟨some '/', offset + 2 + body.length + 2, rest, []⟩ := by
    show Pattern.spanLeast Pattern.anyChar
      (fun later => (Pattern.seq (.lit "*/") .empty).run later some) [] (some '*') (offset + 2)
        (body ++ '*' :: '/' :: rest) = _
    refine Pattern.spanLeast_eq (fun _ _ => rfl) ?_ rfl
    intro before c after hEq previous offset
    have hNone : dropStart? "*/" (c :: (after ++ '*' :: '/' :: rest)) = none := by
      refine Option.not_isSome_iff_eq_none.mp (Bool.eq_false_iff.mp ?_)
      refine startsWith_pair_eq_false (hEq ▸ h) ?_
      rintro d ⟨⟩
      decide
    rw [Pattern.run, Pattern.run, hNone]
  refine ⟨_, congrArg (Option.map _) hRun, ?_⟩
  show offset + 2 + body.length + 2 = _
  omega

theorem replaceFrom_blockComment_append {s rest : Text} (h : contains "/*" s = false)
    (hRest : ∀ c ∈ rest.head?, c ≠ '*') (previous : Option Char) (offset : Nat) :
    blockComment.replaceFrom [' '] 0 previous offset (s ++ rest) =
      s ++ blockComment.replaceFrom [' '] 0 (s.getLast?.or previous) (offset + s.length) rest := by
  refine Pattern.replaceFrom_append fun before c after hEq previous offset => ?_
  exact readAt_blockComment_eq_none (startsWith_pair_eq_false (hEq ▸ h) hRest) previous offset

theorem replaceFrom_blockComment {body : Text} (h : contains "*/" body = false) (rest : Text)
    (previous : Option Char) (offset : Nat) :
    ∃ later later', blockComment.replaceFrom [' '] 0 previous offset
      ('/' :: '*' :: (body ++ '*' :: '/' :: rest)) =
        ' ' :: blockComment.replaceFrom [' '] 0 later later' rest := by
  obtain ⟨found, hFound, hStop⟩ := readAt_blockComment h rest previous offset
  have hText : '/' :: '*' :: (body ++ '*' :: '/' :: rest) =
      '/' :: (('*' :: (body ++ ['*', '/'])) ++ rest) := by simp
  have hLength : found.stop - offset - 1 = ('*' :: (body ++ ['*', '/'])).length := by
    rw [hStop, List.length_cons, List.length_append, List.length_cons, List.length_singleton]
    omega
  rw [hText] at hFound ⊢
  rw [Pattern.replaceFrom, hFound]
  dsimp only
  rw [hLength, Pattern.replaceFrom_skip]
  exact ⟨_, _, rfl⟩

/-! ## Dropping comments -/

/-- Block comments in a filler become spaces. -/
theorem IsFiller.replaceFrom {filler : Text} (h : IsFiller (· = ' ') filler) (rest : Text)
    (previous : Option Char) (offset : Nat) :
    ∃ spaces later later', IsSpaces spaces ∧
      blockComment.replaceFrom [' '] 0 previous offset (filler ++ rest) =
        spaces ++ blockComment.replaceFrom [' '] 0 later later' rest := by
  induction h generalizing previous offset with
  | nil => exact ⟨[], previous, offset, nofun, rfl⟩
  | @gap c filler hc _ ih =>
    obtain rfl : c = ' ' := decide_eq_true_iff.mp hc
    obtain ⟨spaces, later, later', hSpaces, hEq⟩ := ih (some ' ') (offset + 1)
    refine ⟨' ' :: spaces, later, later', List.forall_mem_cons.mpr ⟨rfl, hSpaces⟩, ?_⟩
    rw [List.cons_append, Pattern.replaceFrom, readAt_blockComment_eq_none rfl, hEq]
    rfl
  | @comment body filler hUnclosed _ _ ih =>
    obtain ⟨after, after', hComment⟩ :=
      replaceFrom_blockComment hUnclosed (filler ++ rest) previous offset
    obtain ⟨spaces, later, later', hSpaces, hEq⟩ := ih after after'
    refine ⟨' ' :: spaces, later, later', List.forall_mem_cons.mpr ⟨rfl, hSpaces⟩, ?_⟩
    have hText : '/' :: '*' :: (body ++ '*' :: '/' :: filler) ++ rest =
        '/' :: '*' :: (body ++ '*' :: '/' :: (filler ++ rest)) := by simp
    rw [hText, hComment, hEq]
    rfl

theorem IsFiller.head_ne {filler rest : Text} (h : IsFiller (· = ' ') filler)
    (hRest : ∀ c ∈ rest.head?, c ≠ '*') : ∀ c ∈ (filler ++ rest).head?, c ≠ '*' := by
  cases h with
  | nil => exact hRest
  | gap hc _ =>
    rintro d ⟨⟩
    rw [decide_eq_true_iff.mp hc]
    decide
  | comment _ _ _ =>
    rintro d ⟨⟩
    decide

theorem EntryText.replaceFrom {entry : Text} (h : EntryText entry) {before after rest : Text}
    (hBefore : IsFiller (· = ' ') before) (hAfter : IsFiller (· = ' ') after)
    (hRest : ∀ c ∈ rest.head?, c ≠ '*') (previous : Option Char) (offset : Nat) :
    ∃ spaces spaces' later later', IsSpaces spaces ∧ IsSpaces spaces' ∧
      blockComment.replaceFrom [' '] 0 previous offset (before ++ (entry ++ (after ++ rest))) =
        spaces ++ (entry ++ (spaces' ++ blockComment.replaceFrom [' '] 0 later later' rest)) := by
  obtain ⟨spaces, middle, middle', hSpaces, hEq⟩ :=
    hBefore.replaceFrom (entry ++ (after ++ rest)) previous offset
  obtain ⟨spaces', later, later', hSpaces', hEq'⟩ :=
    hAfter.replaceFrom rest (entry.getLast?.or middle) (middle' + entry.length)
  refine ⟨spaces, spaces', later, later', hSpaces, hSpaces', ?_⟩
  rw [hEq, replaceFrom_blockComment_append h.no_block_comment (hAfter.head_ne hRest), hEq']

/-- What block comments leave of a layout is a layout with spaces. -/
theorem IsLayout.replaceFrom {entries : List Text} {body : Text}
    (h : IsLayout (IsFiller (· = ' ')) entries body) (previous : Option Char) (offset : Nat) :
    IsLayout IsSpaces entries (blockComment.replaceFrom [' '] 0 previous offset body) := by
  induction h generalizing previous offset with
  | nil hFiller =>
    obtain ⟨spaces, later, later', hSpaces, hEq⟩ := hFiller.replaceFrom [] previous offset
    rw [List.append_nil] at hEq
    rw [hEq, Pattern.replaceFrom, List.append_nil]
    exact .nil hSpaces
  | last hEntry hBefore hAfter =>
    have hEmpty : ∀ c ∈ ([] : Text).head?, c ≠ '*' := by
      rintro c ⟨⟩
    obtain ⟨spaces, spaces', later, later', hSpaces, hSpaces', hEq⟩ :=
      hEntry.replaceFrom hBefore hAfter hEmpty previous offset
    rw [List.append_nil] at hEq
    rw [hEq, Pattern.replaceFrom, List.append_nil]
    exact .last hEntry hSpaces hSpaces'
  | @cons entry entries before after rest separator hEntry hBefore hAfter hSeparator _ ih =>
    have hOpens : startsWith "/*" (separator :: rest) = false :=
      startsWith_cons_of_ne (ne_of_class hSeparator (by decide)).symm
    have hHead : ∀ c ∈ (separator :: rest).head?, c ≠ '*' := by
      rintro c ⟨⟩
      exact ne_of_class hSeparator (by decide)
    obtain ⟨spaces, spaces', later, later', hSpaces, hSpaces', hEq⟩ :=
      hEntry.replaceFrom hBefore hAfter hHead previous offset
    rw [hEq, Pattern.replaceFrom, readAt_blockComment_eq_none hOpens]
    exact .cons hEntry hSpaces hSpaces' hSeparator (ih _ _)

/-! ## Line comments -/

theorem replaceAll_lineComment {t : Text} (h : contains "//" t = false) :
    lineComment.replaceAll [' '] t = t := by
  refine Pattern.replaceAll_eq_self (List.eq_nil_iff_forall_not_mem.mpr fun found hFound => ?_)
  obtain ⟨before, last, hReads, -⟩ := Pattern.exists_reads_of_mem_readAll hFound
  obtain ⟨a, hStart, hReads⟩ := hReads.seq_inv
  obtain ⟨b, hSlashes, -⟩ := hReads.seq_inv
  obtain ⟨read, hRead, -⟩ := hStart.exists_passed
  have hHere : contains "//" a.rest = true := by
    rw [hSlashes.lit_inv.1]
    exact contains_of_startsWith (by rw [startsWith, dropStart?_append]; rfl)
  have hText : contains "//" (t.take found.start ++ (read ++ a.rest)) = true :=
    contains_append_left _ (contains_append_left read hHere)
  rw [← hRead, List.take_append_drop, h] at hText
  cases hText

theorem IsSpaces.not_mem {spaces : Text} (h : IsSpaces spaces) {c : Char} (hc : c ≠ ' ') :
    c ∉ spaces :=
  fun hMem => hc (h c hMem)

theorem IsLayout.contains_eq_false {entries : List Text} {body : Text}
    (h : IsLayout IsSpaces entries body) : contains "//" body = false := by
  have hSpaces : ∀ {spaces : Text}, IsSpaces spaces →
      ∀ t, contains "//" (spaces ++ t) = contains "//" t :=
    fun h t => contains_append_of_not_mem (h.not_mem (by decide)) t
  induction h with
  | @nil filler hFiller =>
    rw [← List.append_nil filler, hSpaces hFiller]
    rfl
  | @last entry before after hEntry hBefore hAfter =>
    have hLater : contains "//" after = false := by
      rw [← List.append_nil after, hSpaces hAfter]
      rfl
    rw [hSpaces hBefore]
    refine contains_pair_append hEntry.no_line_comment hLater fun c hc => ?_
    rw [hAfter c (List.mem_of_mem_head? hc)]
    decide
  | @cons entry entries before after rest separator hEntry hBefore hAfter hSeparator _ ih =>
    have hMark : separator ≠ '/' := ne_of_class hSeparator (by decide)
    have hLater : contains "//" (after ++ separator :: rest) = false := by
      rw [hSpaces hAfter, ← List.singleton_append]
      exact (contains_append_of_not_mem (List.mem_singleton.not.mpr hMark.symm) rest).trans ih
    rw [hSpaces hBefore]
    refine contains_pair_append hEntry.no_line_comment hLater fun c hc => ?_
    rw [List.head?_append, Option.mem_def, Option.or_eq_some_iff] at hc
    rcases hc with hc | ⟨-, hc⟩
    · rw [hAfter c (List.mem_of_mem_head? hc)]
      decide
    · rwa [← Option.some.inj hc]

theorem dropComments_eq_self {t : Text} (hLine : contains "//" t = false)
    (hBlock : contains "/*" t = false) :
    dropComments t = t := by
  have hNoRest : ∀ c ∈ ([] : Text).head?, c ≠ '*' := nofun
  have hCopy := replaceFrom_blockComment_append hBlock hNoRest none 0
  rw [List.append_nil, Pattern.replaceFrom, List.append_nil] at hCopy
  unfold dropComments
  rw [Pattern.replaceAll_eq advances_blockComment, hCopy, replaceAll_lineComment hLine]

theorem IsLayout.dropComments {entries : List Text} {body : Text}
    (h : IsLayout (IsFiller (· = ' ')) entries body) :
    IsLayout IsSpaces entries (dropComments body) := by
  have hLayout := h.replaceFrom none 0
  unfold TypeText.dropComments
  rw [Pattern.replaceAll_eq advances_blockComment, replaceAll_lineComment hLayout.contains_eq_false]
  exact hLayout

end TypeText

end TemplateCheck
