import TemplateCheck.Proofs.TypeText.Layout

/-!
# Entries of a layout

The body of an object type is cut into entries, and each entry declares a member. When blanks are
collapsed and comments dropped, the entries of a layout are the texts that it lays out, trimmed
(`IsLayout.memberEntries_eq`): each ends at the separator after it and takes nothing of the next.

A body is a layout of the texts of its members (`IsBody.isLayout`), and the entry of a member
declares that member (`memberOf?_entry`): its name and its question mark are read up to the colon
(`run_memberHead`).
-/

namespace TemplateCheck

namespace TypeText

open Text

/-! ## Entries -/

namespace IsSpaces

variable {spaces : Text}

theorem isBlank (h : IsSpaces spaces) : ∀ c ∈ spaces, isBlank c = true := by
  intro c hc
  rw [h c hc]
  decide

theorem balanced (h : IsSpaces spaces) : spaces.Balanced := balanced_of_blanks h.isBlank

end IsSpaces

theorem balanced_separator {separator : Char} (h : isMemberSeparator separator = true) :
    Balanced [separator] := by
  refine .of_forall ?_ ?_
  · rw [List.forall_mem_singleton]
    exact nesting_of_class h (by decide) none
  · rw [List.mem_singleton]
    exact (ne_of_class h (by decide)).symm

/-- What ends an entry outside brackets. -/
def isEntrySeparator (c : Char) : Bool := c ∈ [';', ',', '\n']

/-- A part without a separator outside brackets is passed as a whole. -/
theorem entriesFrom_append {s : Text} {depth : Int} (current : Text)
    (h : Uncut isEntrySeparator current.head? depth s) (t : Text) :
    entriesFrom depth current (s ++ t) =
      entriesFrom (depthFrom current.head? depth s) (s.reverse ++ current) t := by
  induction s generalizing depth current with
  | nil => rfl
  | cons c s ih =>
    obtain ⟨hFirst, hLater⟩ := h
    have hCut : ¬ (c ∈ [';', ',', '\n'] ∧ depth + nesting current.head? c = 0) := fun hCut =>
      hFirst ⟨decide_eq_true hCut.1, hCut.2⟩
    have hNext : Uncut isEntrySeparator (c :: current).head? (depth + nesting current.head? c) s :=
      hLater
    rw [List.cons_append, entriesFrom, if_neg hCut, ih (c :: current) hNext, List.reverse_cons,
      List.append_assoc]
    rfl

/-- A piece of a body up to a separator is one entry. -/
theorem entriesFrom_piece {s : Text} (hDepth : depthFrom none 0 s = 0)
    (hUncut : Uncut isEntrySeparator none 0 s) {separator : Char}
    (hSeparator : isMemberSeparator separator = true) (rest : Text) :
    entriesFrom 0 [] (s ++ separator :: rest) = s :: entriesFrom 0 [] rest := by
  have hPass : entriesFrom 0 [] (s ++ separator :: rest) =
      entriesFrom (depthFrom none 0 s) (s.reverse ++ []) (separator :: rest) :=
        entriesFrom_append [] hUncut _
  have hNesting : ∀ previous, nesting previous separator = 0 :=
    nesting_of_class hSeparator (by decide)
  have hCut : separator ∈ [';', ',', '\n'] :=
    List.mem_append_left ['\n'] (decide_eq_true_iff.mp hSeparator)
  rw [hPass, hDepth, List.append_nil, entriesFrom, hNesting, Int.add_zero, if_pos ⟨hCut, rfl⟩,
    List.reverse_reverse]

theorem entriesFrom_last {s : Text} (hUncut : Uncut isEntrySeparator none 0 s) :
    entriesFrom 0 [] s = [s] := by
  have hPass : entriesFrom 0 [] (s ++ []) = entriesFrom (depthFrom none 0 s) (s.reverse ++ []) [] :=
    entriesFrom_append [] hUncut []
  rwa [List.append_nil, List.append_nil, entriesFrom, List.reverse_reverse] at hPass

theorem IsSpaces.uncut {spaces : Text} (h : IsSpaces spaces) (previous : Option Char)
    (depth : Int) :
    Uncut isEntrySeparator previous depth spaces := by
  refine uncut_of_forall (fun c hc => ?_) previous depth
  rw [h c hc]
  decide

namespace EntryText

variable {entry : Text} (h : EntryText entry)

include h

theorem uncut_entry (hLine : '\n' ∉ entry) : Uncut isEntrySeparator none 0 entry := by
  refine h.uncut.mono fun c hc hSeparator => ?_
  have hMem : c ∈ [';', ','] ++ ['\n'] := decide_eq_true_iff.mp hSeparator
  rcases List.mem_append.mp hMem with hMem | hMem
  · exact decide_eq_true hMem
  · exact absurd (List.mem_singleton.mp hMem ▸ hc) hLine

theorem uncut_piece (hLine : '\n' ∉ entry) {before after : Text} (hBefore : IsSpaces before)
    (hAfter : IsSpaces after) :
    Balanced (before ++ (entry ++ after)) ∧
    Uncut isEntrySeparator none 0 (before ++ (entry ++ after)) := by
  refine ⟨hBefore.balanced.append (h.balanced.append hAfter.balanced), ?_⟩
  exact hBefore.balanced.uncut_append (hBefore.uncut _ _)
    (h.balanced.uncut_append (h.uncut_entry hLine) (hAfter.uncut _ _))

omit h in
theorem trim_piece (entry : Text) {before after : Text} (hBefore : IsSpaces before)
    (hAfter : IsSpaces after) :
    trim (before ++ (entry ++ after)) = trim entry := by
  rw [trim_blanks_append hBefore.isBlank, trim_append_blanks hAfter.isBlank]

theorem head?_trim : (trim entry).head? = entry.head? := by
  obtain ⟨c, rest, rfl, hVisible, -⟩ := h.exists_cons
  exact head?_trim_cons hVisible rest

theorem trim_ne_nil : trim entry ≠ [] := by
  intro hNil
  obtain ⟨c, hc, -⟩ := h.starts
  rw [← h.head?_trim, hNil] at hc
  cases hc

end EntryText

/-- The entries of a layout are the texts that it lays out. -/
theorem IsLayout.entries_eq {entries : List Text} {body : Text} (h : IsLayout IsSpaces entries body)
    (hLine : ∀ entry ∈ entries, '\n' ∉ entry) :
    ((entriesFrom 0 [] body).map trim).filter (· ≠ []) = entries.map trim := by
  induction h with
  | @nil filler hFiller =>
    rw [entriesFrom_last (hFiller.uncut none 0), List.map_singleton, trim_eq_nil hFiller.isBlank]
    rfl
  | @last entry before after hEntry hBefore hAfter =>
    have hUncut := (hEntry.uncut_piece (hLine entry List.mem_cons_self) hBefore hAfter).2
    rw [entriesFrom_last hUncut, List.map_singleton, EntryText.trim_piece entry hBefore hAfter,
      List.filter_singleton, decide_eq_true hEntry.trim_ne_nil]
    rfl
  | @cons entry entries before after rest separator hEntry hBefore hAfter hSeparator _ ih =>
    obtain ⟨hBalanced, hUncut⟩ := hEntry.uncut_piece (hLine entry List.mem_cons_self) hBefore hAfter
    have hText : before ++ (entry ++ (after ++ separator :: rest)) =
        (before ++ (entry ++ after)) ++ separator :: rest := by simp only [List.append_assoc]
    rw [hText, entriesFrom_piece hBalanced.depth_eq hUncut hSeparator, List.map_cons,
      EntryText.trim_piece entry hBefore hAfter, List.filter_cons,
      if_pos (decide_eq_true hEntry.trim_ne_nil), ih fun other hOther =>
        hLine other (List.mem_cons_of_mem _ hOther)]
    rfl

/-! ## Entries that go on -/

theorem joinEntries_eq_cons {entry : Text} {rest : List Text}
    (h : ∀ first ∈ entry :: rest, ∀ next ∈ rest, goesOn first next = false) :
    joinEntries entry rest = entry :: rest := by
  induction rest generalizing entry with
  | nil => rfl
  | cons next rest ih =>
    have hHere := h entry List.mem_cons_self next List.mem_cons_self
    rw [joinEntries, hHere, if_neg Bool.false_ne_true, ih fun first hFirst later hLater => ?_]
    exact h first (List.mem_cons_of_mem _ hFirst) later (List.mem_cons_of_mem _ hLater)

/-- Whether an entry goes on is seen at its end, unless the next one begins with an operator. -/
theorem goesOn_eq {entry next : Text} (hNext : ∀ c ∈ next.head?, c ∉ ['|', '&']) :
    goesOn entry next = goesOn entry [] := by
  have hHead : next.head?.any (· ∈ ['|', '&']) = false := by
    cases next with
    | nil => rfl
    | cons c next => exact decide_eq_false (hNext c rfl)
  unfold goesOn
  rw [hHead]
  rfl

theorem goesOn_append {s t : Text} (ht : t ≠ []) (hs : s.getLast? ≠ some '=') :
    goesOn (s ++ t) [] = goesOn t [] := by
  have hLast : (s ++ t).getLast? = t.getLast? := List.getLast?_append_of_ne_nil s ht
  have hArrow : ∀ t : Text, endsWith "=>" t = startsWith ['>', '='] t.reverse := fun t =>
    Option.isSome_map
  have hSame : endsWith "=>" (s ++ t) = endsWith "=>" t := by
    rw [hArrow, hArrow, List.reverse_append,
      startsWith_pair_append (List.reverse_ne_nil_iff.mpr ht)]
    rw [List.head?_reverse]
    rintro c hc rfl
    exact hs hc
  unfold goesOn
  rw [hLast, hSame]

theorem IsLayout.entryText {Filler : Text → Prop} {entries : List Text} {body : Text}
    (h : IsLayout Filler entries body) : ∀ entry ∈ entries, EntryText entry := by
  induction h with
  | nil => exact nofun
  | last hEntry => exact List.forall_mem_singleton.mpr hEntry
  | cons hEntry _ _ _ _ ih => exact List.forall_mem_cons.mpr ⟨hEntry, ih⟩

theorem memberEntries_of_entries {body : Text} {entries : List Text}
    (hEntries : ((entriesFrom 0 [] body).map trim).filter (· ≠ []) = entries)
    (hComplete : ∀ entry ∈ entries, goesOn entry [] = false)
    (hStarts : ∀ entry ∈ entries, ∀ c ∈ entry.head?, c ∉ ['|', '&']) :
    memberEntries body = entries.filter fun entry => entry.head? ≠ some '[' := by
  unfold memberEntries
  rw [hEntries]
  cases entries with
  | nil => rfl
  | cons entry entries =>
    have hJoin : joinEntries entry entries = entry :: entries :=
      joinEntries_eq_cons fun first hFirst next hNext => by
      rw [goesOn_eq (hStarts next (List.mem_cons_of_mem _ hNext)), hComplete first hFirst]
    dsimp only
    rw [hJoin]

theorem IsLayout.memberEntries_eq {entries : List Text} {body : Text}
    (h : IsLayout IsSpaces entries body) (hCollapsed : ∀ entry ∈ entries, collapse entry = entry) :
    memberEntries body = (entries.map trim).filter fun entry => entry.head? ≠ some '[' := by
  have hLine : ∀ entry ∈ entries, '\n' ∉ entry := by
    intro entry hEntry hMem
    rw [← hCollapsed entry hEntry] at hMem
    rcases mem_collapseFrom hMem with hEq | ⟨-, hBlank⟩
    · cases hEq
    · cases hBlank
  refine memberEntries_of_entries (h.entries_eq hLine) ?_ ?_
  · intro first hFirst
    obtain ⟨one, hOne, rfl⟩ := List.mem_map.mp hFirst
    have hComplete := (h.entryText one hOne).complete
    rwa [hCollapsed one hOne] at hComplete
  · intro next hNext
    obtain ⟨other, hOther, rfl⟩ := List.mem_map.mp hNext
    rw [(h.entryText other hOther).head?_trim]
    obtain ⟨c, rest, rfl, -, hNot⟩ := (h.entryText other hOther).exists_cons
    rintro d ⟨⟩
    exact hNot

/-! ## Texts of members -/

/-- The characters before the type of a member. -/
def isLabelChar (c : Char) : Bool := isNameChar c || c ∈ ['?', ':']

/-- The text of a member without blanks at its end. -/
def MemberText.entry (member : MemberText) : Text := member.head ++ ':' :: trimEnd member.type

namespace MemberText

variable (member : MemberText)

theorem isLabelChar_label : ∀ c ∈ member.head ++ [':'], isLabelChar c = true := by
  refine List.forall_mem_append.mpr ⟨fun c hc => ?_, by decide⟩
  rcases member.head_chars c hc with h | rfl
  · rw [isLabelChar, h, Bool.true_or]
  · decide

theorem print_eq : member.print = (member.head ++ [':']) ++ member.type := List.append_cons _ _ _

theorem balanced_label : Balanced (member.head ++ [':']) := by
  refine .of_forall
    (fun c hc => nesting_of_class (member.isLabelChar_label c hc) (by decide) none) ?_
  intro hMem
  exact absurd (member.isLabelChar_label _ hMem) (by decide)

theorem balanced_print : member.print.Balanced := by
  rw [print_eq]
  exact member.balanced_label.append member.isType.balanced

theorem uncut_print : Uncut isMemberSeparator none 0 member.print := by
  rw [print_eq]
  refine member.balanced_label.uncut_append
    (uncut_of_forall (fun c hc => decide_eq_false fun hMem => ?_) _ _)
    member.isType.uncut
  have hNone : ∀ d ∈ [';', ','], isLabelChar d = false := by decide
  exact ne_of_class (member.isLabelChar_label c hc) (hNone c hMem) rfl

theorem contains_print {a : Char} {part : Text} (ha : isNameChar a = false ∧ a ≠ '?' ∧ a ≠ ':') :
    contains (a :: part) member.print = contains (a :: part) member.type := by
  have hHead : a ∉ member.head ++ [':'] := by
    rw [List.mem_append, List.mem_singleton, not_or]
    exact ⟨member.not_mem_head ⟨ha.1, ha.2.1⟩, ha.2.2⟩
  rw [print_eq, contains_append_of_not_mem hHead]

theorem trim_print : trim member.print = member.entry := by
  have hStart : trimStart member.print = member.print := trimStart_eq_self fun c hc =>
    isBlank_of_isNameChar (isNameChar_of_isNameStart (member.isNameStart_head _ c hc))
  unfold trim
  rw [hStart, print, trimEnd_append_cons _ (by decide)]
  rfl

theorem collapse_print : Text.collapse member.print = member.collapse.print := by
  have hCollapse := member.collapseFrom_print false []
  rwa [List.append_nil, collapseFrom, List.append_nil] at hCollapse

/-- A member ends with its type. -/
theorem exists_entry_eq :
    ∃ before, before.getLast? ≠ some '=' ∧ member.entry = before ++ trim member.type := by
  obtain ⟨blanks, hBlanks, hTrim⟩ := exists_trimEnd_eq member.type
  refine ⟨(member.head ++ [':']) ++ blanks, fun hLast => ?_, ?_⟩
  · rcases List.mem_append.mp (List.mem_of_getLast? hLast) with hMem | hMem
    · exact absurd (member.isLabelChar_label _ hMem) (by decide)
    · exact absurd (hBlanks _ hMem) (by decide)
  · rw [entry, hTrim, List.append_assoc, List.append_assoc]
    rfl

theorem entryText : EntryText member.print where
  balanced := member.balanced_print
  uncut := member.uncut_print
  no_line_comment := (member.contains_print (by decide)).trans member.isType.no_line_comment
  no_block_comment := (member.contains_print (by decide)).trans member.isType.no_block_comment
  starts := by
    obtain ⟨c, later, hName, hc, -⟩ := exists_cons_of_isIdentifier member.isIdentifier
    refine ⟨c, ?_, isBlank_of_isNameChar (isNameChar_of_isNameStart hc), fun hMem => ?_⟩
    · rw [print, head, hName]
      rfl
    · rcases List.mem_pair.mp hMem with rfl | rfl
      · cases hc
      · cases hc
  complete := by
    obtain ⟨before, hBefore, hEntry⟩ := member.collapse.exists_entry_eq
    have hType : trim member.collapse.type ≠ [] := member.isType.ne_blank
    rw [member.collapse_print, member.collapse.trim_print, hEntry, goesOn_append hType hBefore]
    exact member.isType.complete

end MemberText

theorem IsBody.isLayout {Filler : Text → Prop} {members : List MemberText} {body : Text}
    (h : IsBody Filler members body) : IsLayout Filler (members.map MemberText.print) body := by
  induction h with
  | nil hFiller => exact .nil hFiller
  | last member hBefore hAfter => exact .last member.entryText hBefore hAfter
  | cons member hBefore hAfter hSeparator _ ih =>
    exact .cons member.entryText hBefore hAfter hSeparator ih

/-! ## Members of entries -/

/-- What stands behind the name of a member before its type. -/
def markText (marked : Bool) : Text := if marked then ['?'] else []

open Pattern in
/-- A member up to its type, behind the word `readonly`. -/
def memberLabel : Pattern MemberPart :=
  all [any [quotedName '"', quotedName '\'', capture .name identifier],
    blanks, opt (capture .optional (lit ['?'])), blanks]

/-- What a reading up to the type of a member recorded: the name, and a question mark if
there is one. -/
structure ReadsLabel (name : Text) (marked : Bool) (last : Pattern.Cursor MemberPart) : Prop where
  name_eq : (last.captures.find? (·.name = .name)).map (·.text) = some name
  optional_eq : (last.captures.find? (·.name = .optional)).isSome = marked

section

variable {name : Text} (hName : name.isIdentifier = true) (marked : Bool) {next : Char}
  (hNext : next ∈ [':', '(']) (rest : Text)

include hName in
theorem isBlank_label : ∀ c ∈ name ++ markText marked, isBlank c = false := by
  refine List.forall_mem_append.mpr ⟨fun c hc => ?_, ?_⟩
  · exact isBlank_of_isNameChar (isNameChar_of_isIdentifier hName c hc)
  · cases marked <;> decide

include hName hNext in
/-- No blank follows the word `readonly` before the type of a member. -/
theorem run_readonly (again : Pattern.Next MemberPart) :
    (Pattern.seq (.lit "readonly") Pattern.blanks1).run
      ⟨none, 0, (name ++ markText marked) ++ next :: rest, []⟩ again = none := by
  have hEnd : isBlank next = false ∧ next ∉ "readonly".toList := by
    revert next
    decide
  rw [Pattern.run, Pattern.run]
  cases hDrop : dropStart? "readonly" ((name ++ markText marked) ++ next :: rest) with
  | none => rfl
  | some after =>
    have hAfter : ∀ c ∈ after.head?, isBlank c = false := by
      obtain ⟨more, hHead, rfl⟩ :=
        exists_append_of_not_mem (eq_append_of_dropStart? hDrop).symm hEnd.2
      cases more with
      | nil =>
        rintro c ⟨⟩
        exact hEnd.1
      | cons c more =>
        rintro d ⟨⟩
        exact isBlank_label hName marked c (hHead ▸ List.mem_append_right _ List.mem_cons_self)
    dsimp only
    rw [Pattern.blanks1, Pattern.span1, Pattern.run, Pattern.run]
    dsimp only
    cases after with
    | nil => rfl
    | cons c after => exact if_neg (by rw [hAfter c rfl]; exact Bool.false_ne_true)

theorem run_quotedName_eq_none {quote c : Char} (h : quote ≠ c) (t : Text) (previous : Option Char)
    (offset : Nat) (again : Pattern.Next MemberPart) :
    (quotedName quote).run ⟨previous, offset, c :: t, []⟩ again = none := by
  rw [quotedName, Pattern.run_all_cons, Pattern.run_lit_eq_none h]

include hNext in
theorem run_mark (previous : Option Char) (offset : Nat) {record : Pattern.Capture MemberPart}
    (hRecord : record.name = .name) :
    ∃ last, Pattern.run (.all [.blanks, .opt (.capture .optional (.lit ['?'])), .blanks])
        ⟨previous, offset, markText marked ++ next :: rest, [record]⟩ some = some last ∧
      last.offset = offset + (markText marked).length ∧ ReadsLabel record.text marked last := by
  have hFound : [record].find? (·.name = .name) = some record ∧
      [record].find? (·.name = .optional) = none := by simp [hRecord]
  rcases List.mem_pair.mp hNext with rfl | rfl
  · cases marked with
    | false => exact ⟨_, rfl, rfl, by rw [hFound.1]; rfl, by rw [hFound.2]; rfl⟩
    | true => exact ⟨_, rfl, rfl, congrArg (Option.map _) hFound.1, rfl⟩
  · cases marked with
    | false => exact ⟨_, rfl, rfl, by rw [hFound.1]; rfl, by rw [hFound.2]; rfl⟩
    | true => exact ⟨_, rfl, rfl, congrArg (Option.map _) hFound.1, rfl⟩

include hName hNext in
theorem run_nameLabel (previous : Option Char) (offset : Nat) :
    ∃ last, memberLabel.run ⟨previous, offset, (name ++ markText marked) ++ next :: rest, []⟩ some =
      some last ∧
      last.offset = offset + (name ++ markText marked).length ∧ ReadsLabel name marked last := by
  let after := markText marked ++ next :: rest
  let record : Pattern.Capture MemberPart := ⟨.name, offset, name ++ after, name.length⟩
  have hTake : record.text = name := List.take_left
  have hStop : ∀ c ∈ after.head?, isNameChar c = false := by
    cases marked with
    | false =>
      rintro c ⟨⟩
      rcases List.mem_pair.mp hNext with rfl | rfl <;> decide
    | true =>
      rintro c ⟨⟩
      decide
  have hQuoted : ∀ {quote}, isNameStart quote = false → ∀ again,
      (quotedName quote).run ⟨previous, offset, name ++ after, []⟩ again = none := by
    intro quote hQuote again
    obtain ⟨c, later, rfl, hc, -⟩ := exists_cons_of_isIdentifier hName
    exact run_quotedName_eq_none (ne_of_class hc hQuote).symm _ _ _ _
  obtain ⟨last, hMark, hOffset, hReads⟩ :=
    run_mark marked hNext rest (name.getLast?.or previous) (offset + name.length)
      (rfl : record.name = .name)
  refine ⟨last, ?_, ?_, hTake ▸ hReads⟩
  · rw [List.append_assoc]
    show Pattern.run (.either _ (.either _ (.capture MemberPart.name .identifier))) _ _ = _
    rw [Pattern.run_either (hQuoted (by decide) _), Pattern.run_either (hQuoted (by decide) _)]
    exact Pattern.run_identifier hName hStop _ hMark
  · rw [hOffset, List.length_append, Nat.add_assoc]

include hName hNext in
theorem run_memberHead :
    ∃ last, memberHead.run ⟨none, 0, (name ++ markText marked) ++ next :: rest, []⟩ some =
      some last ∧
      last.offset = (name ++ markText marked).length ∧ ReadsLabel name marked last := by
  obtain ⟨last, hRun, hOffset, hReads⟩ := run_nameLabel hName marked hNext rest none 0
  refine ⟨last, ?_, hOffset.trans (Nat.zero_add _), hReads⟩
  show Pattern.run (.opt _) _ _ = _
  rw [Pattern.run_opt (run_readonly hName marked hNext rest _)]
  exact hRun

end

/-- What is read before the type of a member and what follows say which member it is. -/
theorem memberOf?_of_run {head rest name type : Text} {marked : Bool}
    {last : Pattern.Cursor MemberPart}
    (hRun : memberHead.run ⟨none, 0, head ++ rest, []⟩ some = some last)
    (hOffset : last.offset = head.length) (hReads : ReadsLabel name marked last)
    (hTrimmed : rest.Trimmed) (hType : memberType? rest = some type) (file : Option Text) :
    memberOf? file (head ++ rest) =
      some ⟨name, ⟨type, file⟩, marked || "undefined".toList ∈ unionParts type⟩ := by
  have hFound : memberHead.readStart (head ++ rest) = some ⟨0, last.offset, last.captures⟩ :=
    congrArg (Option.map _) hRun
  unfold memberOf?
  rw [hFound]
  dsimp only [Option.bind_eq_bind, Option.bind_some]
  rw [hOffset, List.drop_left, hTrimmed.trim_eq, hType]
  dsimp only [Option.bind_some]
  rw [Pattern.Match.text, Pattern.Match.text?, Pattern.Match.text?, Pattern.Match.capture?,
    Pattern.Match.capture?, hReads.name_eq, Option.isSome_map, hReads.optional_eq]
  rfl

section

variable {name : Text} (hName : name.isIdentifier = true) (marked : Bool) {next : Char}
  (hNext : next ∈ [':', '(']) (rest : Text)

include hName hNext in
theorem memberOf?_eq {type : Text} (hTrimmed : Trimmed (next :: rest))
    (hType : memberType? (next :: rest) = some type) (file : Option Text) :
    memberOf? file ((name ++ markText marked) ++ next :: rest) =
      some ⟨name, ⟨type, file⟩, marked || "undefined".toList ∈ unionParts type⟩ := by
  obtain ⟨last, hRun, hOffset, hReads⟩ := run_memberHead hName marked hNext rest
  exact memberOf?_of_run hRun hOffset hReads hTrimmed hType file

end

theorem memberOf?_entry (member : MemberText) (file : Option Text) :
    memberOf? file member.entry = some (member.member file) := by
  have hType : ':' :: trimEnd member.type = trimEnd (':' :: member.type) :=
    (trimEnd_append_cons [] (by decide) _).symm
  have hTrimmed : Trimmed (':' :: trimEnd member.type) := by
    refine ⟨fun c hc => ?_, ?_⟩
    · rw [← Option.some.inj hc]
      decide
    · rw [hType]
      exact isBlank_getLast?_trimEnd _
  have hMember : memberType? (':' :: trimEnd member.type) = some (normalize member.type) := by
    rw [← normalize_trimEnd]
    rfl
  exact memberOf?_eq member.isIdentifier member.marked List.mem_cons_self _ hTrimmed hMember file

end TypeText

end TemplateCheck
