import TemplateCheck.Proofs.Source.Comments
import TemplateCheck.Proofs.Source.ImportScan
import TemplateCheck.Source.File

/-!
# Imports next to comments

Statements are looked for in the source text, so a match may begin in a comment and go on behind it.
Then it takes a statement that follows the comment, and is dropped since it does not begin in code
(`SourceFile.imports_hideComment_swallowed`). Apart from that, a comment does not matter: if no
match of the text, with the comment or without it, crosses an end of the comment, then hiding the
comment keeps the imports (`SourceFile.imports_hideComment`).
-/

namespace TemplateCheck

namespace Import

open Pattern (Match)

/-- What an import binds: its local name, the exported name where it is renamed, its kind, and the
specifier of its module. -/
def content (binding : Import) : Text × Option Text × ImportKind × Text :=
  (binding.name, binding.renamedFrom, binding.kind, binding.source)

/-- What is bound where a match is found in a text with the mask. -/
def contents (mask : Text) (found : Match Part) : List (Text × Option Text × ImportKind × Text) :=
  if mask[found.start]? = some 'i' then (ofStatement [] [] found).map content else []

theorem map_content_ofStatement {found found' : Match Part}
    (h : Pattern.recorded found'.captures = Pattern.recorded found.captures)
    (filePath filePath' : Text) (lineStarts lineStarts' : List Nat) :
    (ofStatement filePath' lineStarts' found').map content =
      (ofStatement filePath lineStarts found).map content := by
  have hText? (part : Part) : found'.text? part = found.text? part := by
    rw [Match.text?_eq, Match.text?_eq, h]
  have hText (part : Part) : found'.text part = found.text part :=
    congrArg (·.getD []) (hText? part)
  unfold ofStatement
  simp only [List.map_append, List.map_map, hText?, hText]
  rfl

theorem map_content_readAll (filePath text mask : Text) :
    (readAll filePath text mask).map content =
      (statement.readAll text).flatMap (contents mask) := by
  rw [readAll, List.map_flatMap]
  refine List.flatMap_congr fun found _ => ?_
  rw [contents]
  split_ifs
  · exact map_content_ofStatement rfl _ _ _ _
  · rfl

theorem contents_of_sameStatement (mask : Text) {found found' : Match Part}
    (h : SameStatement found found') :
    contents mask found' = contents mask found := by
  rw [contents, contents, h.start_eq, map_content_ofStatement h.recorded_eq]

theorem flatMap_contents_of_sameStatement (mask : Text) {founds founds' : List (Match Part)}
    (h : List.Forall₂ SameStatement founds founds') :
    founds'.flatMap (contents mask) = founds.flatMap (contents mask) := by
  induction h with
  | nil => rfl
  | cons hSame _ ih =>
    rw [List.flatMap_cons, List.flatMap_cons, contents_of_sameStatement mask hSame, ih]

/-! ## Behind a comment -/

/-- The character before a text matters only as part of a word. -/
theorem readAllFrom_congr_previous {previous previous' : Option Char}
    (h : Pattern.inWord previous' = Pattern.inWord previous) (offset : Nat) (t : Text) :
    statement.readAllFrom 0 previous' offset t = statement.readAllFrom 0 previous offset t := by
  have hCore : corePart.run ⟨previous', offset, t, []⟩ some =
      corePart.run ⟨previous, offset, t, []⟩ some := rfl
  cases t with
  | nil => rfl
  | cons c t =>
    have hHere : statement.readAt previous' offset (c :: t) =
        statement.readAt previous offset (c :: t) := by
      rw [Pattern.readAt, Pattern.readAt, run_statement, run_statement, startsWord,
        startsWord, h, hCore]
    rw [Pattern.readAllFrom, Pattern.readAllFrom, hHere]

/-- Behind a comment the search goes on as it does behind blanks. -/
theorem readAllFrom_after_comment {text before comment after : Text}
    (h : CommentBetween text before comment after) (previous : Option Char) (offset : Nat) :
    statement.readAllFrom 0 ((comment.map Text.hide).getLast?.or previous) offset after =
      statement.readAllFrom 0 (comment.getLast?.or previous) offset after := by
  rcases h.ends with hSlash | hEnd | hLine
  · have hNoWord : Pattern.inWord (some ' ') = Pattern.inWord (some '/') := by decide
    rw [List.getLast?_map, hSlash]
    exact readAllFrom_congr_previous hNoWord offset after
  · rw [hEnd]
    rfl
  · rw [eq_cons_of_head? hLine]
    have hNone (previous : Option Char) :
        statement.readAllFrom 0 previous offset ('\n' :: after.tail) =
        statement.readAllFrom 0 (some '\n') (offset + 1) after.tail := by
      refine Pattern.readAllFrom_append (s := ['\n'])
        (fun before c rest hEq => rejects_statement ?_) previous offset
      rintro d ⟨⟩
      have hMem : c ∈ ['\n'] := by rw [hEq]; simp
      rw [List.mem_singleton.mp hMem]
      decide
    rw [hNone, hNone]

/-- Hidden text holds no statement. -/
theorem readAllFrom_hidden (s t : Text) (previous : Option Char) (offset : Nat) :
    statement.readAllFrom 0 previous offset (s.map Text.hide ++ t) =
      statement.readAllFrom 0 ((s.map Text.hide).getLast?.or previous) (offset + s.length) t := by
  rw [← List.length_map]
  refine Pattern.readAllFrom_append (fun before c after hEq => rejects_statement ?_) previous offset
  rintro d ⟨⟩
  exact isBlank_of_mem_map_hide (by rw [hEq]; simp)

/-! ## Hiding a comment -/

/-- No match of a statement in the text crosses an end of the range: each one lies before
it, in it or behind it. -/
def RangeUncrossed (text : Text) (start stop : Nat) : Prop :=
  ∀ found ∈ statement.readAll text,
    closeOf found ≤ start ∨ (start ≤ found.start ∧ closeOf found ≤ stop) ∨ stop ≤ found.start

instance (text : Text) (start stop : Nat) : Decidable (RangeUncrossed text start stop) :=
  inferInstanceAs (Decidable (∀ found ∈ statement.readAll text,
    closeOf found ≤ start ∨ (start ≤ found.start ∧ closeOf found ≤ stop) ∨ stop ≤ found.start))

theorem RangeUncrossed.noneCrosses_start {text : Text} {start stop : Nat}
    (h : RangeUncrossed text start stop) (hLe : start ≤ stop) :
    NoneCrosses start (statement.readAll text) := by
  intro found hMem
  rcases h found hMem with hBefore | ⟨hIn, -⟩ | hBehind
  · exact .inl hBefore
  · exact .inr hIn
  · exact .inr (Nat.le_trans hLe hBehind)

theorem RangeUncrossed.noneCrosses_stop {text : Text} {start stop : Nat}
    (h : RangeUncrossed text start stop) (hLe : start ≤ stop) :
    NoneCrosses stop (statement.readAll text) := by
  intro found hMem
  rcases h found hMem with hBefore | ⟨-, hIn⟩ | hBehind
  · exact .inl (Nat.le_trans hBefore hLe)
  · exact .inl hIn
  · exact .inr hBehind

/-- A hidden comment shows no letter in the mask. -/
theorem getElem?_mask_ne {before comment after : Text} {offset : Nat}
    (hStart : before.length ≤ offset) (hStop : offset < before.length + comment.length) :
    (Code.ofText (before ++ (comment.map Text.hide ++ after))).mask[offset]? ≠ some 'i' := by
  have hHere : (before ++ (comment.map Text.hide ++ after))[offset]? =
      (comment.map Text.hide)[offset - before.length]? := by
    rw [List.getElem?_append_right hStart, List.getElem?_append_left]
    rw [List.length_map]
    omega
  have hInside : offset - before.length < (comment.map Text.hide).length := by
    rw [List.length_map]
    omega
  have hBlank := isBlank_of_mem_map_hide (List.getElem_mem hInside)
  rw [List.getElem?_eq_getElem hInside] at hHere
  rcases Code.getElem?_mask _ hHere with hShown | ⟨hSpace, -⟩
  · rw [hShown]
    intro hLetter
    exact ne_of_class hBlank (by decide) (Option.some.inj hLetter)
  · rw [hSpace]
    decide

/-- Hiding a comment keeps what is bound, if no match crosses an end of it. -/
theorem flatMap_contents_hidden {text before comment after mask : Text}
    (hComment : CommentBetween text before comment after)
    (hMask : (Code.ofText (before ++ (comment.map Text.hide ++ after))).mask = mask)
    (h : RangeUncrossed text before.length (before.length + comment.length))
    (h' : RangeUncrossed (before ++ (comment.map Text.hide ++ after)) before.length
      (before.length + comment.length)) :
    (statement.readAll (before ++ (comment.map Text.hide ++ after))).flatMap (contents mask) =
      (statement.readAll text).flatMap (contents mask) := by
  rw [← Nat.zero_add before.length] at h h'
  have hLe : 0 + before.length ≤ 0 + before.length + comment.length := Nat.le_add_right _ _
  have hStart := h.noneCrosses_start hLe
  have hStop := h.noneCrosses_stop hLe
  have hStart' := h'.noneCrosses_start hLe
  rw [hComment.text_eq, Pattern.readAll] at hStart hStop
  rw [Pattern.readAll] at hStart'
  rw [hComment.text_eq, Pattern.readAll, Pattern.readAll]
  obtain ⟨founds, founds', hBefore⟩ := exists_sameIn hStart hStart'
  rw [hBefore.search] at hStop ⊢
  rw [hBefore.search', readAllFrom_hidden, readAllFrom_after_comment hComment]
  -- What is found in the comment lies in it, and so is not code.
  have hInside : NoneCrosses (0 + before.length + comment.length)
      (statement.readAllFrom 0 (before.getLast?.or none) (0 + before.length) (comment ++ after)) :=
    fun found hMem => hStop found (List.mem_append_right founds hMem)
  obtain ⟨inner, _, hInner⟩ := exists_sameIn hInside hInside
  have hNone : inner.flatMap (contents mask) = [] := by
    refine List.flatMap_eq_nil_iff.mpr fun found hMem => if_neg ?_
    obtain ⟨hFirst, hLast⟩ := hInner.starts found hMem
    rw [← hMask]
    exact getElem?_mask_ne (by omega) (by omega)
  rw [hInner.search, List.flatMap_append, List.flatMap_append, List.flatMap_append, hNone,
    List.nil_append, flatMap_contents_of_sameStatement mask hBefore.same]

end Import

/-- Replacing a comment by spaces, line breaks kept, leaves what is imported as it is, if no match
of the statement, in the text with the comment or without it, crosses an end of the comment. -/
theorem SourceFile.imports_hideComment (marker : WideText) (path text : Text) {start : Nat}
    {comment : Text} (hComment : (start, .comment comment) ∈ text.lexemes)
    (hText : Import.RangeUncrossed text start (start + comment.length))
    (hHidden : Import.RangeUncrossed (text.hideRange start (start + comment.length)) start
      (start + comment.length)) :
    (SourceFile.read marker path (text.hideRange start (start + comment.length))).imports.map
      Import.content =
      (SourceFile.read marker path text).imports.map Import.content := by
  obtain ⟨before, after, hBetween, rfl, hMask⟩ := exists_commentBetween hComment
  have hRange : text.hideRange before.length (before.length + comment.length) =
      before ++ (comment.map Text.hide ++ after) := by
    rw [hBetween.text_eq, Text.hideRange_append]
  rw [hRange] at hHidden ⊢
  show (Import.readAll path _ (Code.ofText _).mask).map Import.content =
    (Import.readAll path text (Code.ofText text).mask).map Import.content
  rw [Import.map_content_readAll, Import.map_content_readAll, hMask]
  exact Import.flatMap_contents_hidden hBetween hMask hText hHidden

/-- A statement in a comment binds nothing, whether the comment is hidden or not. -/
theorem SourceFile.imports_hideComment_statement :
    (SourceFile.read (.ofText "html") "src/app.ts"
        (Text.hideRange "// import a from 'x'\nimport b from 'y'" 0 (0 + 20))).imports.map
      Import.content =
      [("b".toList, none, .default, "y".toList)] := by
  have hComment : (0, Lexeme.comment "// import a from 'x'") ∈
      Text.lexemes "// import a from 'x'\nimport b from 'y'" := by
    decide
  have hText : Import.RangeUncrossed "// import a from 'x'\nimport b from 'y'" 0 (0 + 20) := by
    decide
  have hHidden :
      Import.RangeUncrossed (Text.hideRange "// import a from 'x'\nimport b from 'y'" 0 (0 + 20)) 0
      (0 + 20) := by
    decide
  have hSame := SourceFile.imports_hideComment (.ofText "html") "src/app.ts"
    _ hComment hText hHidden
  refine hSame.trans ?_
  decide

/-- The last word of a comment may take the statement behind the comment, and then
nothing is bound. -/
theorem SourceFile.imports_hideComment_swallowed :
    ¬ ∀ (text : Text) (start : Nat) (comment : Text), (start, .comment comment) ∈ text.lexemes →
      (∀ binding ∈ (SourceFile.read (.ofText "html") "src/app.ts" text).imports,
        binding.stop ≤ start ∨ start + comment.length ≤ binding.start) →
      (SourceFile.read (.ofText "html") "src/app.ts"
        (text.hideRange start (start + comment.length))).imports.map
          Import.content =
        (SourceFile.read (.ofText "html") "src/app.ts" text).imports.map Import.content := by
  intro h
  have hImport := h "// import\nimport { a } from 'x'" 0 "// import" (by decide) (by decide)
  revert hImport
  decide

end TemplateCheck
