import TemplateCheck.Proofs.Source.CommentedImports
import TemplateCheck.Proofs.Source.ImportShown
import TemplateCheck.Service.Fix

/-!
# Writing an import line

The line that imports a component is written behind the last import of a file, on a line of its own,
or at the start of a file that imports nothing. There it is read as an import of the component
(`exists_readAllFrom_line`), and what the file imported before stays
(`SourceFile.imports_withLine`), if its statements have nothing but names, commas, braces, stars and
blanks between their words (`Import.IsPlain`).
-/

namespace TemplateCheck

namespace Import

open Pattern (Cursor Match)

/-! ## The line -/

/-- The names of a line that imports one name. -/
def lineNames (name : BoundName) : Text := ListedText.printAll [⟨false, none, name⟩]

theorem importLine_eq (name : BoundName) (specifier t : Text) :
    importLine name.text specifier ++ t =
    "import".toList ++ ' ' :: ((ClauseText.group (.list [⟨false, none, name⟩])).print ++
      ' ' :: ("from".toList ++
      ' ' :: ('\'' :: (specifier ++ '\'' :: ';' :: t)))) := by
  have hNames : ListedText.printAll [⟨false, none, name⟩] = ' ' :: (name.text ++ [' ']) := rfl
  rw [ClauseText.print, GroupText.print, hNames]
  show ((r"import { ".toList ++ name.text ++ r" } from '".toList) ++ specifier ++ "';".toList) ++
      t = _
  simp

theorem prefers_corePart_line (name : BoundName) {specifier : Text} (hNonempty : specifier ≠ [])
    (hFits : ∀ c ∈ specifier, Pattern.noneOf ['"', '\'', '\n'] c = true) (t : Text) :
    corePart.Prefers (importLine name.text specifier ++ t) (';' :: t)
      [(.source, specifier), (.nameList, lineNames name)] := by
  have hOrigin :
      (Pattern.all [.lit "from", .blanks, .either (Import.specifier '"') (Import.specifier '\'')] :
      Pattern Part).Prefers ("from".toList ++
        ' ' :: ('\'' :: (specifier ++ '\'' :: ';' :: t))) (';' :: t)
        [(.source, specifier)] :=
    (Pattern.Prefers.lit "from" _).seq ((prefers_blanks (by rintro c ⟨⟩; decide)).seq
      ((prefers_quoted (.inr rfl) hNonempty hFits (';' :: t)).seq (.empty _)))
  have hClause := prefers_clause (.group (.list [⟨false, none, name⟩])) rfl hOrigin
  rw [importLine_eq]
  generalize "from".toList ++ ' ' :: ('\'' :: (specifier ++ '\'' :: ';' :: t)) = origin at hClause ⊢
  exact (Pattern.Prefers.lit "import" _).seq ((prefers_blanks1 (isBlank_head?_clause _ _)).seq
    ((Pattern.Prefers.opt_of_rejects (rejects_typeWord _ _)).seq hClause))

theorem map_content_line (name : BoundName) {specifier : Text} {found : Match Part}
    (h : Pattern.recorded found.captures = [(.source, specifier), (.nameList, lineNames name)])
    (filePath : Text) (lineStarts : List Nat) :
    (ofStatement filePath lineStarts found).map content =
      [(name.text, none, .named, specifier)] := by
  have hText (part : Part) : found.text? part =
      (([(.source, specifier), (.nameList, lineNames name)] :
        List (Part × Text)).find? (·.1 = part)).map (·.2) := by
    rw [Match.text?_eq, h]
  have hNames : listedNames (lineNames name) = [⟨name.text, none, false⟩] := listedNames_printAll _
  rw [ofStatement, Match.text, Match.text, hText, hText, hText, hText, hText]
  show (((listedNames (lineNames name)).map _).map content : List _) = _
  rw [hNames]
  rfl

/-- Where no word stands in front of it, the line is found. -/
theorem exists_readAllFrom_line (name : BoundName) {specifier : Text} (hNonempty : specifier ≠ [])
    (hFits : ∀ c ∈ specifier, Pattern.noneOf ['"', '\'', '\n'] c = true) {previous : Option Char}
    (hPrevious : Pattern.inWord previous = false) (offset : Nat) (t : Text) : ∃ found later,
      statement.readAllFrom 0 previous offset (importLine name.text specifier ++ t) =
        found :: later ∧
      found.start = offset ∧ ∀ filePath lineStarts,
        (ofStatement filePath lineStarts found).map content =
          [(name.text, none, .named, specifier)] := by
  obtain ⟨core, -, -, hRecorded, hRun⟩ :=
    prefers_corePart_line name hNonempty hFits t
      ⟨previous, offset, importLine name.text specifier ++ t, []⟩ rfl
  have hStart : startsWord previous (importLine name.text specifier ++ t) = true := by
    have hWord : Pattern.inWord (some 'i') = true := by decide
    rw [startsWord, hPrevious, importLine_eq]
    exact hWord
  obtain ⟨read, found, -, -, -, hFound, hCaptures, -, hRead⟩ :=
    readAllFrom_of_core hStart (hRun some core rfl)
  have hLine := (congrArg Pattern.recorded hCaptures).trans (hRecorded.trans (List.append_nil _))
  exact ⟨found, _, hRead, hFound, map_content_line name hLine⟩

/-! ## The last statement -/

/-- The statement of a binding has nothing but names, commas, braces, stars and blanks between its
words `import` and `from`, and only blanks from there to its specifier. -/
def IsPlain (text : Text) (binding : Import) : Prop :=
  ∃ (clause gap ending : Text) (quote : Char), isQuote quote = true ∧
    Text.slice text binding.start binding.stop = "import".toList ++ (clause ++ ("from".toList ++
      (gap ++ quote :: (binding.source ++ quote :: ending)))) ∧
    (∀ c ∈ clause, isClauseChar c = true) ∧ (∀ c ∈ gap, isBlank c = true) ∧ ∀ c ∈ ending,
      isBlank c = true ∨ c = ';'

/-- Where the statement of a binding ends, blanks at its end left out. -/
def lastOf (text : Text) (binding : Import) : Nat :=
  binding.start + (Text.trimEnd (Text.slice text binding.start binding.stop)).length

/-- In front of the same specifier stands the same text: from the end, the specifier is found behind
blanks and semicolons. -/
theorem front_eq_of_eq {front front' source ending ending' : Text} {quote quote' : Char}
    (hQuote : isQuote quote = true) (hQuote' : isQuote quote' = true)
    (hEnding : ∀ c ∈ ending, isBlank c = true ∨ c = ';')
    (hEnding' : ∀ c ∈ ending', isBlank c = true ∨ c = ';')
    (h : front ++ quote :: (source ++ quote :: ending) =
      front' ++ quote' :: (source ++ quote' :: ending')) : front = front' := by
  have hReverse := congrArg List.reverse h
  simp only [List.reverse_append, List.reverse_cons, List.append_assoc, List.cons_append,
    List.nil_append] at hReverse
  have hEnds {s : Text} (hs : ∀ c ∈ s, isBlank c = true ∨ c = ';') :
      ∀ c ∈ s.reverse, (isBlank c || c = ';') = true := by
    intro c hc
    simpa using hs c (List.mem_reverse.mp hc)
  have hHead {q : Char} (hq : isQuote q = true) (t : Text) :
      ∀ c ∈ (q :: t).head?, (isBlank c || c = ';') = false := by
    rintro c ⟨⟩
    rcases eq_of_isQuote hq with rfl | rfl <;> decide
  obtain ⟨-, hBehind⟩ :=
    append_inj_of_class (hEnds hEnding) (hEnds hEnding') (hHead hQuote _) (hHead hQuote' _) hReverse
  obtain ⟨rfl, hBehind⟩ := List.cons.inj hBehind
  exact List.reverse_injective (List.cons.inj (List.append_cancel_left hBehind)).2

namespace StandsIn

variable {text front source ending : Text} {quote : Char} {found : Match Part} {binding : Import}

theorem slice_eq (h : StandsIn text found front source ending quote) :
    Text.slice text found.start found.stop = front ++ quote :: (source ++ quote :: ending) := by
  have hText : text.drop found.start =
      (front ++ quote :: (source ++ quote :: ending)) ++ text.drop found.stop := by
    rw [h.drop_eq]
    simp only [List.append_assoc, List.cons_append]
  have hStop :
      found.stop = found.start + (front ++ quote :: (source ++ quote :: ending)).length := by
    rw [h.stop_eq, h.closeOf_eq]
    simp only [List.length_append, List.length_cons]
    omega
  rw [hStop] at hText ⊢
  exact Text.slice_of_drop hText

theorem lastOf_eq (h : StandsIn text found front source ending quote)
    (hStart : binding.start = found.start) (hStop : binding.stop = found.stop) :
    lastOf text binding = closeOf found + (Text.trimEnd ending).length := by
  have hVisible : isBlank quote = false := by
    rcases eq_of_isQuote h.isQuote_quote with rfl | rfl <;> decide
  rw [lastOf, hStart, hStop, h.slice_eq, Text.trimEnd_append_cons _ hVisible,
    Text.trimEnd_append_cons _ hVisible, h.closeOf_eq]
  simp only [List.length_append, List.length_cons]
  omega

theorem isClauseChar_front (h : StandsIn text found front source ending quote)
    (hStart : binding.start = found.start) (hStop : binding.stop = found.stop)
    (hSource : binding.source = found.text .source) (hPlain : binding.IsPlain text) :
    ∀ c ∈ front, isClauseChar c = true := by
  obtain ⟨clause, gap, ending', quote', hQuote', hSlice, hClause, hGap, hEnding'⟩ := hPlain
  rw [hStart, hStop, h.slice_eq, hSource, h.source_eq] at hSlice
  have hSame : front ++ quote :: (source ++ quote :: ending) =
      ("import".toList ++ (clause ++ ("from".toList ++ gap))) ++
        quote' :: (source ++ quote' :: ending') := by
    rw [hSlice]
    simp only [List.append_assoc]
  have hWord : ∀ word ∈ ["import".toList, "from".toList], ∀ c ∈ word,
      isClauseChar c = true := by decide
  have hBlank : ∀ c ∈ gap, isClauseChar c = true := fun c hc => by simp [isClauseChar, hGap c hc]
  rw [front_eq_of_eq h.isQuote_quote hQuote' h.ending_fits hEnding' hSame]
  simp only [List.forall_mem_append]
  exact ⟨hWord _ (by simp), hClause, hWord _ (by simp), hBlank⟩

theorem length_take (h : StandsIn text found front source ending quote) :
    (text.take found.start).length = found.start := by
  have hLength := congrArg List.length h.drop_eq
  simp only [List.length_drop, List.length_append, List.length_cons] at hLength
  exact List.length_take_of_le (by omega)

theorem take_closeOf (h : StandsIn text found front source ending quote) :
    text.take (closeOf found) = text.take found.start ++
      (front ++ quote :: (source ++ [quote])) := by
  have hLength : (front ++ quote :: (source ++ [quote])).length =
      front.length + source.length + 2 := by
    simp only [List.length_append, List.length_cons, List.length_nil]
    omega
  have hText : text.drop found.start =
      (front ++ quote :: (source ++ [quote])) ++ (ending ++ text.drop found.stop) := by
    rw [h.drop_eq]
    simp only [List.append_assoc, List.cons_append, List.nil_append]
  rw [h.closeOf_eq, List.take_add, hText, ← hLength, List.take_left]

theorem drop_closeOf (h : StandsIn text found front source ending quote) :
    text.drop (closeOf found) = ending ++ text.drop found.stop := by
  have hWhole := (List.take_append_drop (closeOf found) text).trans
    (List.take_append_drop found.start text).symm
  rw [h.take_closeOf, h.drop_eq, List.append_assoc] at hWhole
  have hBehind := List.append_cancel_left hWhole
  simp only [List.append_assoc, List.cons_append, List.nil_append] at hBehind
  simpa using hBehind

/-- Where the first word of a plain statement is code, a text on the next line keeps it so, and is
read as it would be everywhere. -/
theorem exists_mask_line (h : StandsIn text found front source ending quote)
    (hChars : ∀ c ∈ front, isClauseChar c = true)
    (hCode : (Code.ofText text).mask[found.start]? = some 'i') {trimmed t shown : Text}
    (hTrimmed : ∀ c ∈ trimmed, isBlank c = true ∨ c = ';')
    (hShown : ∀ braces, StartsAs braces t shown) :
    ∃ mask tail, mask.length = closeOf found + trimmed.length ∧
      (Code.ofText (text.take (closeOf found) ++ (trimmed ++ '\n' :: t))).mask =
        mask ++ '\n' :: (shown ++ tail) ∧
      ∀ i ≤ found.start, mask[i]? = (Code.ofText text).mask[i]? := by
  obtain ⟨d, later, -, hFront⟩ := h.front_eq
  have hLength := h.length_take
  have hText : text.take found.start ++
      (front ++ quote :: (source ++ quote :: (ending ++ text.drop found.stop))) = text := by
    rw [← h.drop_eq, List.take_append_drop]
  have hHere : (Code.ofText (text.take found.start ++ (front ++ quote :: (source ++ quote ::
      (ending ++ text.drop found.stop))))).mask[(text.take found.start).length]? = some 'i' := by
    rw [hText, hLength]
    exact hCode
  obtain ⟨mask, tail, hMaskLength, hMask, hAgree⟩ :=
    Import.exists_mask_line h.front_fits hChars ⟨_, hFront⟩
    h.isQuote_quote h.source_fits hTrimmed hHere hShown
  rw [hText, hLength] at hAgree
  refine ⟨mask, tail, ?_, ?_, hAgree⟩
  · rw [hMaskLength, hLength, h.closeOf_eq]
    omega
  · rw [← hMask, h.take_closeOf]
    simp only [List.append_assoc, List.cons_append, List.nil_append]

end StandsIn

/-! ## The search -/

/-- The line bars matches that begin in front of it. -/
theorem bars_line (name : BoundName) (specifier : Text) {trimmed : Text}
    (hTrimmed : ∀ c ∈ trimmed, isBlank c = true ∨ c = ';') (t : Text) :
    Bars (trimmed ++ '\n' :: (importLine name.text specifier ++ t)) := by
  have hBare : ∀ c ∈ trimmed, isBare c = true := fun c hc =>
    (hTrimmed c hc).elim isBare_of_isBlank fun h => h ▸ rfl
  obtain ⟨later, hLine⟩ : ∃ later, importLine name.text specifier ++ t =
      "import ".toList ++ '{' :: later :=
    ⟨_, (importLine_eq name specifier t).trans rfl⟩
  refine ⟨⟨trimmed, _, rfl, fun c hc => isQuote_of_isBare (hBare c hc)⟩,
    trimmed ++ "\nimport ".toList, later, ?_, List.forall_mem_append.mpr ⟨hBare, by decide⟩⟩
  rw [hLine, List.append_assoc]
  rfl

theorem readAllFrom_ending {ending : Text} (hEnding : ∀ c ∈ ending, isBlank c = true ∨ c = ';')
    (previous : Option Char) (offset : Nat) (t : Text) :
    statement.readAllFrom 0 previous offset (ending ++ '\n' :: t) =
      statement.readAllFrom 0 (some '\n') (offset + ending.length + 1) t := by
  have hGap : ∀ before c after, ending ++ ['\n'] = before ++ c :: after →
      statement.Rejects (c :: (after ++ t)) := by
    intro before c after hEq
    refine rejects_statement_of_ne ?_
    rintro d ⟨⟩
    have hMem : c ∈ ending ++ ['\n'] := hEq ▸ List.mem_append_right before List.mem_cons_self
    rcases List.mem_append.mp hMem with hEnd | hLine
    · rcases hEnding c hEnd with hBlank | rfl
      · exact ne_of_class hBlank (by decide)
      · decide
    · rw [List.mem_singleton.mp hLine]
      decide
  have hSkip := Pattern.readAllFrom_append hGap previous offset
  rwa [List.getLast?_concat, Option.some_or, List.append_assoc, List.singleton_append,
    List.length_append, List.length_singleton, ← Nat.add_assoc] at hSkip

/-- Up to the end of a specifier, a text with the line behind it has the same
statements, and then the line. -/
theorem StandsIn.exists_readAll_line {text front source ending : Text} {quote : Char}
    {found : Match Part} (h : StandsIn text found front source ending quote)
    (hFound : found ∈ statement.readAll text) (name : BoundName) {specifier : Text}
    (hNonempty : specifier ≠ [])
    (hFits : ∀ c ∈ specifier, Pattern.noneOf ['"', '\'', '\n'] c = true) {trimmed : Text}
    (hTrimmed : ∀ c ∈ trimmed, isBlank c = true ∨ c = ';') (t : Text) :
    ∃ founds founds' line behind later,
      statement.readAll text = founds ++ behind ∧ (∀ other ∈ behind, closeOf found ≤ other.start) ∧
      statement.readAll (text.take (closeOf found) ++
        (trimmed ++ '\n' :: (importLine name.text specifier ++ t))) =
        founds' ++ line :: later ∧
      List.Forall₂ SameStatement founds founds' ∧ line.start = closeOf found + trimmed.length + 1 ∧
      ∀ filePath lineStarts, (ofStatement filePath lineStarts line).map content =
        [(name.text, none, .named, specifier)] := by
  have hLength : (text.take (closeOf found)).length = closeOf found := by
    rw [h.take_closeOf, List.length_append, h.length_take, h.closeOf_eq]
    simp only [List.length_append, List.length_cons, List.length_nil]
    omega
  have hTake : text.take (closeOf found) =
      (text.take found.start ++ (front ++ quote :: source)) ++ [quote] := by
    rw [h.take_closeOf]
    simp only [List.append_assoc, List.cons_append]
  have hOld : NoneCrosses (0 + (text.take (closeOf found)).length)
      (statement.readAllFrom 0 none 0 (text.take (closeOf found) ++
        text.drop (closeOf found))) := by
    rw [Nat.zero_add, hLength, List.take_append_drop]
    exact noneCrosses_closeOf hFound
  have hNew : NoneCrosses (0 + (text.take (closeOf found)).length) (statement.readAllFrom 0 none 0
      (text.take (closeOf found) ++
        (trimmed ++ '\n' :: (importLine name.text specifier ++ t)))) := by
    rw [Nat.zero_add, hTake]
    exact noneCrosses_of_bars h.isQuote_quote (bars_line name specifier hTrimmed t)
  obtain ⟨founds, founds', hSame⟩ := exists_sameIn hOld hNew
  obtain ⟨line, later, hLine, hStart, hContent⟩ := exists_readAllFrom_line name hNonempty hFits
    (show Pattern.inWord (some '\n') = false by decide) (closeOf found + trimmed.length + 1) t
  have hSearch := hSame.search
  have hSearch' := hSame.search'
  rw [Nat.zero_add, hLength, List.take_append_drop] at hSearch
  rw [Nat.zero_add, hLength, readAllFrom_ending hTrimmed, hLine] at hSearch'
  refine ⟨founds, founds', line, _, later, hSearch, fun other hOther => ?_, hSearch', hSame.same,
    hStart, hContent⟩
  have hLe := Pattern.le_start_of_mem_readAllFrom hOther
  omega

theorem start_le_of_lastOf_le {filePath text : Text} {lineStarts : List Nat}
    {found other : Match Part} {last binding : Import} (hFound : found ∈ statement.readAll text)
    (hOther : other ∈ statement.readAll text) (hLast : last ∈ ofStatement filePath lineStarts found)
    (hBinding : binding ∈ ofStatement filePath lineStarts other)
    (h : lastOf text binding ≤ lastOf text last) : other.start ≤ found.start := by
  obtain ⟨front, source, ending, quote, hStands⟩ := exists_standsIn hFound
  obtain ⟨front', source', ending', quote', hStands'⟩ := exists_standsIn hOther
  obtain ⟨hStart, hStop, -⟩ := place_of_mem_ofStatement hLast
  obtain ⟨hStart', hStop', -⟩ := place_of_mem_ofStatement hBinding
  obtain ⟨blanks, -, hEnding⟩ := Text.exists_trimEnd_append ending
  have hEndingLength := congrArg List.length hEnding
  rw [List.length_append] at hEndingLength
  rw [hStands.lastOf_eq hStart hStop, hStands'.lastOf_eq hStart' hStop'] at h
  have hClose := hStands'.start_lt_closeOf
  have hStopEq := hStands.stop_eq
  rcases eq_or_stop_le_start hFound hOther with rfl | hBehind | hBefore
  · exact Nat.le_refl _
  · omega
  · omega

theorem startsAs_importLine (name : BoundName) (specifier : Text) (braces : Option Nat) (t : Text) :
    StartsAs braces (importLine name.text specifier ++ t) ['i'] := by
  rw [importLine_eq]
  exact .name (by decide) (.nil _ _)

/-- Behind the statement that ends last, the line is bound, and what was bound before stays. -/
theorem StandsIn.contents_line {filePath text front source ending : Text} {quote : Char}
    {found : Match Part} {last : Import} (h : StandsIn text found front source ending quote)
    (hFound : found ∈ statement.readAll text)
    (hCode : (Code.ofText text).mask[found.start]? = some 'i')
    (hChars : ∀ c ∈ front, isClauseChar c = true)
    (hLast : last ∈ ofStatement filePath (Text.lineStarts text) found)
    (hLatest : ∀ binding ∈ Import.readAll filePath text (Code.ofText text).mask,
      lastOf text binding ≤ lastOf text last)
    (name : BoundName) {specifier : Text} (hNonempty : specifier ≠ [])
    (hFits : ∀ c ∈ specifier, Pattern.noneOf ['"', '\'', '\n'] c = true) {text' t : Text}
    (hText : text' = text.take (closeOf found) ++
      (Text.trimEnd ending ++ '\n' :: (importLine name.text specifier ++ t))) :
    (name.text, none, .named, specifier) ∈
      (Import.readAll filePath text' (Code.ofText text').mask).map content ∧
      (Import.readAll filePath text (Code.ofText text).mask).map content ⊆
        (Import.readAll filePath text' (Code.ofText text').mask).map content := by
  have hTrimmed : ∀ c ∈ Text.trimEnd ending, isBlank c = true ∨ c = ';' := by
    obtain ⟨blanks, -, hEnding⟩ := Text.exists_trimEnd_append ending
    exact fun c hc => h.ending_fits c (hEnding ▸ List.mem_append_left blanks hc)
  obtain ⟨founds, founds', line, behind, later, hRead, hBehind, hRead', hSame, hLine, hContent⟩ :=
    h.exists_readAll_line hFound name hNonempty hFits hTrimmed t
  obtain ⟨mask, tail, hLength, hMask, hAgree⟩ :=
    h.exists_mask_line hChars hCode hTrimmed fun braces =>
      startsAs_importLine name specifier braces t
  rw [← hText] at hRead' hMask
  rw [map_content_readAll filePath text', hRead', List.flatMap_append, List.flatMap_cons,
    flatMap_contents_of_sameStatement _ hSame]
  constructor
  · have hShown : (Code.ofText text').mask[line.start]? = some 'i' := by
      rw [hMask]
      exact Text.getElem?_of_eq_append (s := mask ++ ['\n']) (u := tail) (by simp)
        (by simp [hLine, hLength])
    refine List.mem_append_right _ (List.mem_append_left _ ?_)
    rw [contents, if_pos hShown, hContent]
    exact List.mem_singleton_self _
  · intro bound hBound
    obtain ⟨binding, hBinding, rfl⟩ := List.mem_map.mp hBound
    obtain ⟨other, hOther, hOtherCode, hOf⟩ := exists_of_mem_readAll hBinding
    have hStart := start_le_of_lastOf_le hFound hOther hLast hOf (hLatest binding hBinding)
    have hExtent := h.start_lt_closeOf
    have hBefore : other ∈ founds := by
      rw [hRead] at hOther
      refine (List.mem_append.mp hOther).resolve_right fun hMem => ?_
      have hClose := hBehind other hMem
      omega
    have hShown : (Code.ofText text').mask[other.start]? = some 'i' := by
      rw [hMask, List.getElem?_append_left (by omega), hAgree _ hStart, hOtherCode]
    refine List.mem_append_left _ (List.mem_flatMap.mpr ⟨other, hBefore, ?_⟩)
    rw [contents, if_pos hShown, map_content_ofStatement rfl filePath [] (Text.lineStarts text) []]
    exact List.mem_map_of_mem hOf

end Import

namespace SourceFile

/-- The text of a file with a line written behind its last import, or else at its start. -/
def withLine (file : SourceFile) (line : Text) : Text :=
  file.text.take file.importInsertion ++
    ((if file.importInsertion = 0 then [] else ['\n']) ++
      (line ++ file.text.drop file.importInsertion))

/-- The line is written where the last statement ends. -/
theorem importInsertion_cases (file : SourceFile) : (file.imports = [] ∧ file.importInsertion = 0) ∨
    ∃ binding ∈ file.imports, file.importInsertion = Import.lastOf file.text binding ∧
      ∀ other ∈ file.imports, Import.lastOf file.text other ≤ Import.lastOf file.text binding := by
  have hFold : file.importInsertion = (file.imports.map (Import.lastOf file.text)).foldl max 0 := by
    rw [List.foldl_map]
    rfl
  have hMax : (0 :: file.imports.map (Import.lastOf file.text)).max? =
      some file.importInsertion := by
    rw [List.max?_cons', hFold]
  obtain ⟨hMem, hLe⟩ := List.max?_eq_some_iff.mp hMax
  have hLast : ∀ binding ∈ file.imports, Import.lastOf file.text binding ≤ file.importInsertion :=
    fun binding h =>
    hLe _ (List.mem_cons_of_mem 0 (List.mem_map_of_mem h))
  rcases List.mem_cons.mp hMem with hZero | hMem
  · cases hImports : file.imports with
    | nil => exact .inl ⟨rfl, hZero⟩
    | cons first others =>
      have hFirst := hLast first (by simp [hImports])
      refine .inr ⟨first, List.mem_cons_self, by omega, fun other hOther => ?_⟩
      have hOther := hLast other (hImports ▸ hOther)
      omega
  · obtain ⟨binding, hBinding, hHere⟩ := List.mem_map.mp hMem
    exact .inr ⟨binding, hBinding, hHere.symm, fun other hOther => hHere ▸ hLast other hOther⟩

/-- What a file that imports something ends its imports with: the statement of the
binding that ends last. -/
structure EndsWith (file : SourceFile) (found : Pattern.Match Import.Part) (last : Import)
    (front source ending : Text) (quote : Char) : Prop where
  found_mem : found ∈ Import.statement.readAll file.text
  last_mem : last ∈ file.imports
  code : file.mask[found.start]? = some 'i'
  last_mem_ofStatement : last ∈ Import.ofStatement file.path (Text.lineStarts file.text) found
  stands : Import.StandsIn file.text found front source ending quote
  importInsertion_eq : file.importInsertion = Import.closeOf found + (Text.trimEnd ending).length
  latest : ∀ binding ∈ file.imports, Import.lastOf file.text binding ≤ Import.lastOf file.text last

theorem exists_endsWith (marker : WideText) (path text : Text) :
    ((read marker path text).imports = [] ∧ (read marker path text).importInsertion = 0) ∨
      ∃ found last front source ending quote,
        (read marker path text).EndsWith found last front source ending quote := by
  rcases (read marker path text).importInsertion_cases with
    hNone | ⟨last, hLast, hInsertion, hLatest⟩
  · exact .inl hNone
  · obtain ⟨found, hFound, hCode, hOf⟩ := Import.exists_of_mem_readAll hLast
    obtain ⟨front, source, ending, quote, hStands⟩ := Import.exists_standsIn hFound
    obtain ⟨hStart, hStop, -⟩ := Import.place_of_mem_ofStatement hOf
    exact .inr ⟨found, last, front, source, ending, quote,
      { found_mem := hFound
        last_mem := hLast
        code := hCode
        last_mem_ofStatement := hOf
        stands := hStands
        importInsertion_eq := hInsertion.trans (hStands.lastOf_eq hStart hStop)
        latest := hLatest }⟩

namespace EndsWith

variable {file : SourceFile} {found : Pattern.Match Import.Part} {last : Import}
  {front source ending : Text} {quote : Char}

theorem importInsertion_ne_zero (h : file.EndsWith found last front source ending quote) :
    file.importInsertion ≠ 0 := by
  have hInsertion := h.importInsertion_eq
  have hBound := h.stands.start_lt_closeOf
  omega

theorem take_importInsertion (h : file.EndsWith found last front source ending quote) :
    file.text.take file.importInsertion =
      file.text.take (Import.closeOf found) ++ Text.trimEnd ending := by
  obtain ⟨blanks, -, hEnding⟩ := Text.exists_trimEnd_append ending
  have hDrop := h.stands.drop_closeOf
  rw [← hEnding, List.append_assoc] at hDrop
  rw [h.importInsertion_eq, List.take_add, hDrop, List.take_left]

theorem withLine_eq (h : file.EndsWith found last front source ending quote) (line : Text) :
    file.withLine line = file.text.take (Import.closeOf found) ++
      (Text.trimEnd ending ++ '\n' :: (line ++ file.text.drop file.importInsertion)) := by
  rw [withLine, if_neg h.importInsertion_ne_zero, h.take_importInsertion, List.append_assoc]
  rfl

theorem getElem?_ne (h : file.EndsWith found last front source ending quote) :
    file.text[file.importInsertion - 1]? ≠ some '\n' := by
  intro hBreak
  have hVisible : isBlank quote = false := by
    rcases Import.eq_of_isQuote h.stands.isQuote_quote with rfl | rfl <;> decide
  have hTake : file.text.take file.importInsertion = Text.trimEnd
      ((file.text.take found.start ++ (front ++ quote :: source)) ++ quote :: ending) := by
    rw [h.take_importInsertion, Text.trimEnd_append_cons _ hVisible, h.stands.take_closeOf]
    simp only [List.append_assoc, List.cons_append, List.nil_append]
  have hLast : (file.text.take file.importInsertion).getLast? = some '\n' := by
    rw [List.getLast?_take, if_neg h.importInsertion_ne_zero, hBreak, Option.some_or]
  rw [hTake] at hLast
  exact absurd (Text.isBlank_getLast?_trimEnd _ _ hLast) (by decide)

end EndsWith

/-- A file with an import line written into it imports the name of the line, and what it
imported before. -/
theorem imports_withLine {marker : WideText} {path text : Text} {file : SourceFile}
    (hFile : file = read marker path text) (name : BoundName) {specifier : Text}
    (hNonempty : specifier ≠ [])
    (hFits : ∀ c ∈ specifier, Pattern.noneOf ['"', '\'', '\n'] c = true)
    (hPlain : ∀ binding ∈ file.imports, binding.IsPlain file.text) :
    let file' := read marker path (file.withLine (importLine name.text specifier))
    (name.text, none, .named, specifier) ∈ file'.imports.map Import.content ∧
      file.imports.map Import.content ⊆ file'.imports.map Import.content := by
  subst hFile
  generalize hWritten : (read marker path text).withLine (importLine name.text specifier) = text'
  have hText := hWritten.symm
  rcases exists_endsWith marker path text with
    ⟨hNone, hZero⟩ | ⟨found, last, front, source, ending, quote, hEnds⟩
  · have hNew : text' = importLine name.text specifier ++ text := by
      rw [hText, withLine, hZero]
      rfl
    refine ⟨?_, hNone ▸ List.nil_subset _⟩
    obtain ⟨line, later, hRead, hStart, hContent⟩ :=
      Import.exists_readAllFrom_line name hNonempty hFits
        (show Pattern.inWord none = false from rfl) 0 text
    obtain ⟨tail, hShows⟩ := (Import.startsAs_importLine name specifier none text).shows .start
    show _ ∈ (Import.readAll path text' (Code.ofText text').mask).map Import.content
    rw [Import.map_content_readAll, hNew, hShows.ofText_mask, Pattern.readAll, hRead,
      List.flatMap_cons, Import.contents, hStart,
      if_pos (show (['i'] ++ tail)[0]? = some 'i' from rfl), hContent]
    exact List.mem_cons_self
  · obtain ⟨hStart, hStop, hSource⟩ := Import.place_of_mem_ofStatement hEnds.last_mem_ofStatement
    have hChars := hEnds.stands.isClauseChar_front hStart hStop hSource (hPlain last hEnds.last_mem)
    exact hEnds.stands.contents_line hEnds.found_mem hEnds.code hChars hEnds.last_mem_ofStatement
      hEnds.latest name hNonempty hFits (hText.trans (hEnds.withLine_eq _))

end SourceFile

end TemplateCheck
