import TemplateCheck.Proofs.Source.ImportScan
import TemplateCheck.Proofs.Text.Occurrence

/-!
# Where import statements stand

What a match of an import statement passes, from its first word to its end (`StandsIn`). In front of
the specifier only a list of names may hold a quote, and no braces but its own (`Front`). So a match
that begins before the end of one specifier does not go on behind it, if what follows there on its
line is no specifier, and the next brace opens one (`Front.length_le`). The matches of a text stand
one behind the other (`stop_le_start`).
-/

namespace TemplateCheck

namespace Import

open Pattern (Cursor Match)

/-! ## In front of a specifier -/

/-- Neither a quote nor a brace. -/
def isBare (c : Char) : Bool := Pattern.noneOf ['"', '\'', '{', '}'] c

/-- Whether the character is a quote. -/
def isQuote (c : Char) : Bool := c = '"' || c = '\''

/-- What a statement may have in front of its specifier. -/
inductive Front : Text → Prop
  | bare {s : Text} (chars : ∀ c ∈ s, isBare c = true) : Front s
  | list {s names t : Text} (before : ∀ c ∈ s, isBare c = true)
      (inside : ∀ c ∈ names, Pattern.noneOf ['{', '}'] c = true)
      (behind : ∀ c ∈ t, isBare c = true) : Front (s ++ '{' :: (names ++ '}' :: t))

theorem isBare_of_isBlank {c : Char} (h : isBlank c = true) : isBare c = true := by
  have hNot : ∀ d ∈ ['"', '\'', '{', '}'], isBlank d = false := by decide
  exact decide_eq_true fun hMem => ne_of_class h (hNot c hMem) rfl

theorem isBare_of_isNameChar {c : Char} (h : isNameChar c = true) : isBare c = true := by
  have hNot : ∀ d ∈ ['"', '\'', '{', '}'], isNameChar d = false := by decide
  exact decide_eq_true fun hMem => ne_of_class h (hNot c hMem) rfl

theorem eq_of_isQuote {c : Char} (h : isQuote c = true) : c = '"' ∨ c = '\'' :=
  (Bool.or_eq_true_iff.mp h).imp of_decide_eq_true of_decide_eq_true

theorem isBare_of_isQuote {c : Char} (h : isQuote c = true) : isBare c = false := by
  rcases eq_of_isQuote h with rfl | rfl <;> decide

theorem isQuote_of_isBare {c : Char} (h : isBare c = true) : isQuote c = false :=
  Bool.eq_false_iff.mpr fun hQuote => ne_of_class h (isBare_of_isQuote hQuote) rfl

/-- A quote in front of the specifier stands in a list of names that is closed behind it. -/
theorem Front.exists_list {before after : Text} {q : Char} (h : Front (before ++ q :: after))
    (hq : isQuote q = true) :
    ∃ names t, after = names ++ '}' :: t ∧ ∀ c ∈ names, Pattern.noneOf ['{', '}'] c = true := by
  have hNotBare (s : Text) (hs : ∀ c ∈ s, isBare c = true) : q ∉ s := fun hMem =>
    ne_of_class (hs q hMem) (isBare_of_isQuote hq) rfl
  have hNotBrace : q ≠ '{' ∧ q ≠ '}' := ⟨ne_of_class hq (by decide), ne_of_class hq (by decide)⟩
  generalize hText : before ++ q :: after = front at h
  cases h with
  | bare chars =>
    exact absurd (hText ▸ List.mem_append_right before List.mem_cons_self) (hNotBare _ chars)
  | @list s names t hs hNames ht =>
    obtain ⟨more, rfl, hMore⟩ := Text.exists_append_of_not_mem hText.symm (hNotBare s hs)
    cases more with
    | nil => exact absurd (List.cons.inj hMore).1.symm hNotBrace.1
    | cons d more =>
      obtain ⟨-, hMore⟩ := List.cons.inj hMore
      rcases List.append_eq_append_iff.mp hMore with ⟨rest, rfl, hRest⟩ | ⟨rest, rfl, hRest⟩
      · cases rest with
        | nil => exact absurd (List.cons.inj hRest).1.symm hNotBrace.2
        | cons d rest =>
          obtain ⟨-, hRest⟩ := List.cons.inj hRest
          exact absurd (hRest ▸ List.mem_append_right rest List.mem_cons_self) (hNotBare t ht)
      · cases rest with
        | nil => exact absurd (List.cons.inj hRest).1 hNotBrace.2
        | cons d rest =>
          obtain ⟨-, hBehind⟩ := List.cons.inj hRest
          exact ⟨rest, t, hBehind, fun c hc => hNames c (by simp [hc])⟩

/-- Text behind a specifier that no match can take in which begins in front of its closing quote:
the line holds no quote, and the next brace opens a list. -/
structure Bars (x : Text) : Prop where
  line : ∃ s t, x = s ++ '\n' :: t ∧ ∀ c ∈ s, isQuote c = false
  brace : ∃ s t, x = s ++ '{' :: t ∧ ∀ c ∈ s, isBare c = true

/-- A statement that begins in front of a quote ends there at the latest, if the text
behind bars it. -/
theorem Front.length_le {front source r before x : Text} {quote q : Char} (h : Front front)
    (hQuote : isQuote quote = true)
    (hSource : ∀ c ∈ source, Pattern.noneOf ['"', '\'', '\n'] c = true) (hq : isQuote q = true)
    (hBars : Bars x) (hText : front ++ quote :: (source ++ quote :: r) = before ++ q :: x) :
    front.length + source.length + 1 ≤ before.length := by
  have hNotIn (c : Char) (hc : c ∈ ['"', '\'', '\n']) : c ∉ source := fun hMem =>
    ne_of_class (hSource c hMem) (decide_eq_false (not_not.mpr hc)) rfl
  have hLine : source ++ quote :: r ≠ x := by
    obtain ⟨s, t, rfl, hs⟩ := hBars.line
    intro hSame
    obtain ⟨more, rfl, hMore⟩ := Text.exists_append_of_not_mem hSame (hNotIn '\n' (by simp))
    cases more with
    | nil => exact ne_of_class hQuote (by decide) (List.cons.inj hMore).1
    | cons d more =>
      obtain ⟨rfl, -⟩ := List.cons.inj hMore
      exact ne_of_class hQuote (hs quote (by simp)) rfl
  have hqSource : q ∉ source := by
    refine hNotIn q ?_
    rcases eq_of_isQuote hq with rfl | rfl <;> simp
  rcases List.append_eq_append_iff.mp hText with ⟨more, rfl, hMore⟩ | ⟨more, rfl, hMore⟩
  · cases more with
    | nil => exact absurd (List.cons.inj hMore).2 hLine
    | cons d more =>
      obtain ⟨-, hMore⟩ := List.cons.inj hMore
      obtain ⟨more, rfl, -⟩ := Text.exists_append_of_not_mem hMore hqSource
      simp only [List.length_append, List.length_cons]
      omega
  · cases more with
    | nil => exact absurd (List.cons.inj hMore).2.symm hLine
    | cons d more =>
      obtain ⟨rfl, hBehind⟩ := List.cons.inj hMore
      -- The quote would stand in a list of names, which is not closed before a brace opens another.
      obtain ⟨names, t, rfl, hNames⟩ := h.exists_list hq
      obtain ⟨s, u, hBrace, hs⟩ := hBars.brace
      have hNoBrace : ∀ c ∈ s, Pattern.noneOf ['{', '}'] c = true := fun c hc => by
        have hBare := hs c hc
        simp only [isBare, Pattern.noneOf, decide_eq_true_eq, List.mem_cons, not_or] at hBare ⊢
        exact hBare.2.2
      rw [hBrace, List.append_eq, List.append_assoc, List.cons_append] at hBehind
      have hHead (d : Char) (hd : d ∈ ['{', '}']) (t : Text) :
          ∀ c ∈ (d :: t).head?, Pattern.noneOf ['{', '}'] c = false := by
        rintro c ⟨⟩
        exact decide_eq_false (not_not.mpr hd)
      obtain ⟨-, hSame⟩ :=
        append_inj_of_class hNoBrace hNames (hHead '{' (by simp) _) (hHead '}' (by simp) _)
        hBehind
      exact absurd (List.cons.inj hSame).1 (by decide)

/-! ## What a match passes -/

/-- In a text a match of a statement stands: what it has in front of its specifier, the specifier in
its quotes, and the blanks and the semicolon behind it. -/
structure StandsIn (text : Text) (found : Match Part) (front source ending : Text)
    (quote : Char) : Prop where
  front_fits : Front front
  front_eq : ∃ d later, isBlank d = true ∧ front = "import".toList ++ d :: later
  isQuote_quote : isQuote quote = true
  source_ne_nil : source ≠ []
  source_fits : ∀ c ∈ source, Pattern.noneOf ['"', '\'', '\n'] c = true
  source_eq : found.text .source = source
  ending_fits : ∀ c ∈ ending, isBlank c = true ∨ c = ';'
  drop_eq : text.drop found.start = front ++ quote ::
    (source ++ quote :: (ending ++ text.drop found.stop))
  closeOf_eq : closeOf found = found.start + (front.length + source.length + 2)
  stop_eq : found.stop = closeOf found + ending.length

theorem exists_source_of_reads {quote : Char} {a b : Cursor Part}
    (h : (specifier quote).Reads a b) :
    ∃ source, source ≠ [] ∧ (∀ c ∈ source, Pattern.noneOf ['"', '\'', '\n'] c = true) ∧
      a.rest = quote :: (source ++ quote :: b.rest) ∧
      ∀ start stop, (⟨start, stop, b.captures⟩ : Match Part).text .source = source := by
  obtain ⟨c, hOpen, h⟩ := h.seq_inv
  obtain ⟨d, hCapture, h⟩ := h.seq_inv
  obtain ⟨e, hClose, hEmpty⟩ := h.seq_inv
  cases hEmpty
  obtain ⟨inside, source, record, hBody, hRest, hSame, hCaptures, hName, hText⟩ :=
    hCapture.capture_inv
  obtain ⟨read, hNonempty, hRead, hFits, -⟩ := hBody.span1_inv
  obtain rfl : source = read :=
    List.append_cancel_right (hRest.symm.trans (hRead.trans (by rw [hSame])))
  obtain ⟨hOpenRest, -⟩ := hOpen.lit_inv
  obtain ⟨hCloseRest, hKept⟩ := hClose.lit_inv
  refine ⟨source, hNonempty, hFits, by rw [hOpenRest, hRest, hCloseRest]; simp,
    fun start stop => ?_⟩
  rw [Match.text, Match.text?, Match.capture?, hKept, hCaptures,
    List.find?_cons_of_pos (by simp [hName])]
  exact hText

theorem exists_group_of_reads {a b : Cursor Part} (h : (Pattern.opt groupPart).Reads a b) :
    ∃ group, Front group ∧ a.rest = group ++ b.rest := by
  have hBlank : ∀ c, isBlank c = true → isBare c = true := fun _ => isBare_of_isBlank
  have hName : ∀ c, isNameChar c = true → isBare c = true := fun _ => isBare_of_isNameChar
  rcases h.opt_inv with hGroup | hNone
  · cases hGroup with
    | left _ hList =>
      obtain ⟨c₁, hOpen, hList⟩ := hList.seq_inv
      obtain ⟨c₂, hNames, hList⟩ := hList.seq_inv
      obtain ⟨c₃, hClose, hList⟩ := hList.seq_inv
      obtain ⟨c₄, hGap, hEmpty⟩ := hList.seq_inv
      cases hEmpty
      obtain ⟨inside, names, -, hSpan, hNamesRest, hSame, -⟩ := hNames.capture_inv
      obtain ⟨read, hRead, hFits, -⟩ := hSpan.span_inv
      obtain rfl : names = read :=
        List.append_cancel_right (hNamesRest.symm.trans (hRead.trans (by rw [hSame])))
      obtain ⟨gap, hGapRest, hGapBlank, -⟩ := hGap.span_inv
      refine ⟨[] ++ '{' :: (names ++ '}' :: gap), .list (by simp) hFits fun c hc =>
        hBlank c (hGapBlank c hc), ?_⟩
      rw [hOpen.lit_inv.1, hNamesRest, hClose.lit_inv.1, hGapRest]
      simp
    | right _ hStar =>
      have hWithin :
          (Pattern.all [.lit ['*'], .blanks, .lit "as", .blanks1,
            .capture .starName .identifier, .blanks] :
          Pattern Part).Within (isBare · = true) :=
        ⟨show ∀ c ∈ ['*'], _ by decide, hBlank, show ∀ c ∈ "as".toList, _ by decide,
          ⟨hBlank, hBlank⟩, ⟨fun c hc => hName c (isNameChar_of_isNameStart hc), hName⟩,
          hBlank, trivial⟩
      obtain ⟨group, hGroupRest, -, hGroupBare⟩ := hStar.exists_passed_within hWithin
      exact ⟨group, .bare hGroupBare, hGroupRest⟩
  · exact ⟨[], .bare (by simp), by rw [hNone, List.nil_append]⟩

theorem Front.between {head group tail : Text} (h : Front group)
    (hHead : ∀ c ∈ head, isBare c = true) (hTail : ∀ c ∈ tail, isBare c = true) :
    Front (head ++ (group ++ tail)) := by
  cases h with
  | bare hGroup =>
    exact .bare (List.forall_mem_append.mpr ⟨hHead, List.forall_mem_append.mpr ⟨hGroup, hTail⟩⟩)
  | @list s names t hs hNames ht =>
    have hAll := Front.list (List.forall_mem_append.mpr ⟨hHead, hs⟩) hNames
      (List.forall_mem_append.mpr ⟨ht, hTail⟩)
    simpa only [List.append_assoc, List.cons_append] using hAll

theorem exists_front_of_reads {a core : Cursor Part} (h : corePart.Reads a core) :
    ∃ front b quote, Front front ∧
    (∃ d later, isBlank d = true ∧ front = "import".toList ++ d :: later) ∧ isQuote quote = true ∧
    a.rest = front ++ b.rest ∧ (specifier quote).Reads b core := by
  obtain ⟨b₁, hImport, h⟩ := h.seq_inv
  obtain ⟨b₂, hGap, h⟩ := h.seq_inv
  obtain ⟨b₃, hType, h⟩ := h.seq_inv
  obtain ⟨b₄, hDefault, h⟩ := h.seq_inv
  obtain ⟨b₅, hGroup, h⟩ := h.seq_inv
  obtain ⟨b₆, hFrom, h⟩ := h.seq_inv
  obtain ⟨b₇, hBlanks, h⟩ := h.seq_inv
  obtain ⟨b₈, hSpecifier, hEmpty⟩ := h.seq_inv
  cases hEmpty
  have hBlank : ∀ c, isBlank c = true → isBare c = true := fun _ => isBare_of_isBlank
  have hName : ∀ c, isNameChar c = true → isBare c = true := fun _ => isBare_of_isNameChar
  have hHeadWithin :
      (Pattern.seq (.opt typeWord) (.opt defaultPart) : Pattern Part).Within (isBare · = true) :=
    ⟨⟨⟨show ∀ c ∈ "type".toList, _ by decide, hBlank, hBlank⟩, trivial⟩,
      ⟨⟨fun c hc => hName c (isNameChar_of_isNameStart hc), hName⟩, hBlank,
        ⟨⟨show ∀ c ∈ [','], _ by decide, hBlank⟩, trivial⟩, trivial⟩, trivial⟩
  have hTailWithin : (Pattern.seq (.lit "from") .blanks : Pattern Part).Within (isBare · = true) :=
    ⟨show ∀ c ∈ "from".toList, _ by decide, hBlank⟩
  obtain ⟨hWord, -⟩ := hImport.lit_inv
  obtain ⟨gap, hGapNonempty, hGapRest, hGapBlank, -⟩ := hGap.span1_inv
  obtain ⟨d, gap, rfl⟩ := List.exists_cons_of_ne_nil hGapNonempty
  obtain ⟨head, hHead, -, hHeadBare⟩ :=
    (Pattern.Reads.seq hType hDefault).exists_passed_within hHeadWithin
  obtain ⟨group, hFront, hGroupRest⟩ := exists_group_of_reads hGroup
  obtain ⟨tail, hTail, -, hTailBare⟩ :=
    (Pattern.Reads.seq hFrom hBlanks).exists_passed_within hTailWithin
  obtain ⟨first, hFirst, hFirstEq⟩ : ∃ first : Text, (∀ c ∈ first, isBare c = true) ∧
      first = "import".toList ++ d :: (gap ++ head) :=
    ⟨_, List.forall_mem_append.mpr ⟨by decide,
      List.forall_mem_cons.mpr ⟨hBlank d (hGapBlank d List.mem_cons_self),
      List.forall_mem_append.mpr
        ⟨fun c hc => hBlank c (hGapBlank c (List.mem_cons_of_mem d hc)), hHeadBare⟩⟩⟩, rfl⟩
  have hRest : a.rest = (first ++ (group ++ tail)) ++ b₇.rest := by
    rw [hWord, hGapRest, hHead, hGroupRest, hTail, hFirstEq]
    simp only [List.append_assoc, List.cons_append]
  have hStarts : ∃ d later, isBlank d = true ∧
      first ++ (group ++ tail) = "import".toList ++ d :: later := by
    refine ⟨d, gap ++ (head ++ (group ++ tail)), hGapBlank d List.mem_cons_self, ?_⟩
    rw [hFirstEq]
    simp only [List.append_assoc, List.cons_append]
  cases hSpecifier with
  | left _ hLeft => exact ⟨_, b₇, _, hFront.between hFirst hTailBare, hStarts, rfl, hRest, hLeft⟩
  | right _ hRight => exact ⟨_, b₇, _, hFront.between hFirst hTailBare, hStarts, rfl, hRest, hRight⟩

theorem exists_core_of_reads {a last : Cursor Part} (h : statement.Reads a last) :
    ∃ core, corePart.Reads a core ∧ endPart.Reads core last := by
  obtain ⟨b, hEdge, h⟩ := h.seq_inv
  cases hEdge
  exact Pattern.Reads.all_append_inv h

/-- Every match of a text stands in it. -/
theorem exists_standsIn {text : Text} {found : Match Part} (h : found ∈ statement.readAll text) :
    ∃ front source ending quote, StandsIn text found front source ending quote := by
  obtain ⟨before, last, hReads, hStop, hCaptures⟩ := Pattern.exists_reads_of_mem_readAll h
  obtain ⟨core, hCore, hEnd⟩ := exists_core_of_reads hReads
  obtain ⟨front, b, quote, hFront, hStarts, hQuote, hRest, hSpecifier⟩ :=
    exists_front_of_reads hCore
  obtain ⟨source, hNonempty, hFits, hSourceRest, hSource⟩ := exists_source_of_reads hSpecifier
  obtain ⟨hKept, ending, hEndRest, hEndOffset, hEndFits⟩ := exists_passed_of_endPart hEnd
  obtain ⟨read, hRead, hOffset⟩ := hCore.exists_passed
  have hText : text.drop found.start = front ++ quote :: (source ++ quote :: core.rest) := by
    rw [show text.drop found.start = _ from hRest, hSourceRest]
  have hLength : read.length = front.length + source.length + 2 := by
    have hSame := congrArg List.length (show read ++ core.rest = _ from hRead.symm.trans hText)
    simp only [List.length_append, List.length_cons] at hSame
    omega
  have hClose : closeOf found = core.offset := by
    rw [← closeOf_of_reads hCore found.start found.stop, ← hKept, ← hCaptures]
  have hStopRest : text.drop found.stop = last.rest := by
    have hWhole := Text.drop_add_length (show text.drop found.start =
      read ++ (ending ++ last.rest) by
      rw [← hEndRest]
      exact hRead)
    have hPlace : found.stop = found.start + read.length + ending.length := by
      rw [hStop, hEndOffset]
      exact congrArg (· + ending.length) hOffset
    rw [hPlace]
    exact Text.drop_add_length hWhole
  refine ⟨front, source, ending, quote, hFront, hStarts, hQuote, hNonempty, hFits, ?_,
    hEndFits, ?_, ?_, ?_⟩
  · have hFound := hSource found.start found.stop
    rwa [← hKept, ← hCaptures] at hFound
  · rw [hText, hEndRest, hStopRest]
  · rw [hClose, hOffset, hLength]
  · rw [hClose, hStop, hEndOffset]

/-! ## The matches of a text -/

theorem advances_statement : statement.Advances := by
  intro a b h
  obtain ⟨core, hCore, hEnd⟩ := exists_core_of_reads h
  obtain ⟨c, hWord, hMore⟩ := hCore.seq_inv
  obtain ⟨_, -, hCoreOffset⟩ := hMore.exists_passed
  obtain ⟨-, _, -, hEndOffset, -⟩ := exists_passed_of_endPart hEnd
  have hWordOffset := hWord.offset_lit
  have hLength : ("import".toList : Text).length = 6 := rfl
  omega

theorem exists_of_mem_readAll {filePath text mask : Text} {binding : Import}
    (h : binding ∈ Import.readAll filePath text mask) : ∃ found ∈ statement.readAll text,
      mask[found.start]? = some 'i' ∧ binding ∈
        ofStatement filePath (Text.lineStarts text) found := by
  obtain ⟨found, hFound, hBinding⟩ := List.mem_flatMap.mp h
  split_ifs at hBinding with hCode
  · exact ⟨found, hFound, hCode, hBinding⟩
  · cases hBinding

theorem place_of_mem_ofStatement {filePath : Text} {lineStarts : List Nat} {found : Match Part}
    {binding : Import} (h : binding ∈ ofStatement filePath lineStarts found) :
    binding.start = found.start ∧ binding.stop = found.stop ∧
    binding.source = found.text .source := by
  rw [ofStatement] at h
  simp only [List.mem_append, List.mem_map] at h
  rcases h with (⟨_, -, rfl⟩ | ⟨_, -, rfl⟩) | ⟨_, -, rfl⟩ <;> exact ⟨rfl, rfl, rfl⟩

/-- Two matches of a text are the same, or one stands behind the other. -/
theorem eq_or_stop_le_start {text : Text} {found found' : Match Part}
    (h : found ∈ statement.readAll text) (h' : found' ∈ statement.readAll text) :
    found = found' ∨ found.stop ≤ found'.start ∨ found'.stop ≤ found.start := by
  have hPairwise := advances_statement.pairwise_readAllFrom 0 none 0 text
  refine List.Pairwise.forall_of_forall_of_flip
    (R := fun a b : Match Part => a = b ∨ a.stop ≤ b.start ∨ b.stop ≤ a.start) (fun _ _ => .inl rfl)
    (hPairwise.imp fun hab => .inr (.inl hab)) (hPairwise.imp fun hab => .inr (.inr hab)) h h'

theorem StandsIn.start_lt_closeOf {text front source ending : Text} {quote : Char}
    {found : Match Part} (h : StandsIn text found front source ending quote) :
    found.start < closeOf found ∧ closeOf found ≤ found.stop := by
  have hClose := h.closeOf_eq
  have hStop := h.stop_eq
  omega

theorem noneCrosses_closeOf {text : Text} {found : Match Part}
    (h : found ∈ statement.readAll text) :
    NoneCrosses (closeOf found) (statement.readAll text) := by
  intro other hOther
  obtain ⟨_, _, _, _, hStands⟩ := exists_standsIn h
  obtain ⟨_, _, _, _, hOtherStands⟩ := exists_standsIn hOther
  have hExtent := hStands.start_lt_closeOf
  have hOtherExtent := hOtherStands.start_lt_closeOf
  rcases eq_or_stop_le_start h hOther with rfl | hBehind | hBefore
  · exact .inl (Nat.le_refl _)
  · exact .inr (by omega)
  · exact .inl (by omega)

theorem noneCrosses_of_bars {before x : Text} {q : Char} (hq : isQuote q = true) (hBars : Bars x) :
    NoneCrosses (before ++ [q]).length (statement.readAll ((before ++ [q]) ++ x)) := by
  intro found hFound
  obtain ⟨front, source, ending, quote, hStands⟩ := exists_standsIn hFound
  rw [List.length_append, List.length_singleton]
  rcases Nat.lt_or_ge before.length found.start with hBehind | hBefore
  · exact .inr hBehind
  · have hText := hStands.drop_eq
    rw [List.append_assoc, List.singleton_append, List.drop_append_of_le_length hBefore] at hText
    have hLength := hStands.front_fits.length_le hStands.isQuote_quote hStands.source_fits hq
      hBars hText.symm
    have hClose := hStands.closeOf_eq
    rw [List.length_drop] at hLength
    exact .inl (by omega)

end Import

end TemplateCheck
