import Mathlib.Data.Int.ConditionallyCompleteOrder
import Mathlib.Data.List.TakeWhile
import Mathlib.Data.Prod.Lex
import Mathlib.Order.ConditionallyCompleteLattice.Basic
import Mathlib.Tactic.Common
import TemplateCheck.Proofs.Text.Position
import TemplateCheck.Proofs.Text.Slice
import TemplateCheck.Source.File

/-!
# Positions in a source file

An offset of a text is found on a line in two ways: `Text.positionIn` looks it up among the line
starts, and `Text.position` counts the line feeds in front of it and goes back to the last of them.
Both give the line that starts last in front of the offset, and how far behind that start the offset
is (`Text.exists_lineStart`). So the position determines the offset, and later offsets have later
positions (`SourceFile.position_exact`).
-/

namespace TemplateCheck

/-- Positions are ordered by their lines, and on one line by their characters. -/
def Position.key (position : Position) : Lex (Int × Int) :=
  toLex (position.line, position.character)

namespace Text

/-! ## Where lines start -/

/-- The line with a number starts at an offset: at the start of the text or behind a line feed, and
as many line feeds stand in front of it as the number says. -/
structure LineStart (t : Text) (line start : Nat) : Prop where
  opens : start = 0 ∨ t[start - 1]? = some '\n'
  count_eq : (t.take start).count '\n' = line

theorem count_take_mono (t : Text) {offset later : Nat} (h : offset ≤ later) :
    (t.take offset).count '\n' ≤ (t.take later).count '\n' :=
  (List.take_prefix_take_left h).sublist.count_le _

theorem count_take_succ {t : Text} {offset : Nat} (h : t[offset]? = some '\n') :
    (t.take (offset + 1)).count '\n' = (t.take offset).count '\n' + 1 := by
  rw [List.take_add_one, h, List.count_append]
  rfl

/-- A line starts at one offset only. -/
theorem LineStart.unique {t : Text} {line start start' : Nat} (h : LineStart t line start)
    (h' : LineStart t line start') : start = start' := by
  -- Between two line starts stands the line feed in front of the later one.
  have hNotBefore {first later : Nat} (hFirst : LineStart t line first)
      (hLater : LineStart t line later) :
      ¬ first < later := by
    intro hLess
    rcases hLater.opens with rfl | hBreak
    · exact Nat.not_lt_zero first hLess
    · have hMono := count_take_mono t (show first ≤ later - 1 by omega)
      have hCount := count_take_succ hBreak
      rw [Nat.sub_add_cancel (by omega), hLater.count_eq] at hCount
      rw [hFirst.count_eq] at hMono
      omega
  have hBefore := hNotBefore h h'
  have hBehind := hNotBefore h' h
  omega

theorem getElem?_laterLineStarts {t : Text} {offset i start : Nat} :
    (laterLineStarts offset t)[i]? = some start ↔
      ∃ j, t[j]? = some '\n' ∧ (t.take j).count '\n' = i ∧ start = offset + j + 1 := by
  induction t generalizing offset i with
  | nil => simp [laterLineStarts]
  | cons c t ih =>
    rw [laterLineStarts]
    by_cases hc : c = '\n'
    · subst hc
      rw [if_pos rfl]
      cases i with
      | zero =>
        rw [List.getElem?_cons_zero, Option.some_inj]
        constructor
        · rintro rfl
          exact ⟨0, rfl, rfl, rfl⟩
        · rintro ⟨j, -, hCount, rfl⟩
          cases j with
          | zero => rfl
          | succ j => rw [List.take_succ_cons, List.count_cons_self] at hCount; cases hCount
      | succ i =>
        rw [List.getElem?_cons_succ, ih]
        constructor
        · rintro ⟨j, hj, hCount, rfl⟩
          exact ⟨j + 1, hj, by rw [List.take_succ_cons, List.count_cons_self, hCount], by omega⟩
        · rintro ⟨j, hj, hCount, rfl⟩
          cases j with
          | zero => cases hCount
          | succ j =>
            rw [List.take_succ_cons, List.count_cons_self] at hCount
            exact ⟨j, hj, Nat.succ.inj hCount, by omega⟩
    · rw [if_neg hc, ih]
      constructor
      · rintro ⟨j, hj, hCount, rfl⟩
        exact ⟨j + 1, hj, by rw [List.take_succ_cons, List.count_cons_of_ne hc, hCount], by omega⟩
      · rintro ⟨j, hj, hCount, rfl⟩
        cases j with
        | zero => exact absurd (Option.some.inj hj) hc
        | succ j =>
          rw [List.take_succ_cons, List.count_cons_of_ne hc] at hCount
          exact ⟨j, hj, hCount, by omega⟩

/-- The line starts of a text are the offsets at which its lines start, one after the other. -/
theorem getElem?_lineStarts {t : Text} {line start : Nat} :
    (lineStarts t)[line]? = some start ↔ LineStart t line start := by
  cases line with
  | zero =>
    have hFirst : LineStart t 0 0 := ⟨.inl rfl, rfl⟩
    rw [lineStarts, List.getElem?_cons_zero, Option.some_inj]
    exact ⟨fun h => h ▸ hFirst, fun h => hFirst.unique h⟩
  | succ line =>
    rw [lineStarts, List.getElem?_cons_succ, getElem?_laterLineStarts]
    constructor
    · rintro ⟨j, hj, hCount, rfl⟩
      rw [Nat.zero_add]
      exact ⟨.inr hj, by rw [count_take_succ hj, hCount]⟩
    · intro h
      rcases h.opens with rfl | hBreak
      · cases h.count_eq
      · have hPos : 0 < start := by
          rcases Nat.eq_zero_or_pos start with rfl | hPos
          · cases h.count_eq
          · exact hPos
        have hCount := count_take_succ hBreak
        rw [Nat.sub_add_cancel hPos, h.count_eq] at hCount
        exact ⟨start - 1, hBreak, (Nat.succ.inj hCount).symm, by omega⟩

/-! ## The line of an offset -/

/-- A text ends with a line of it, the part behind its last line feed. -/
theorem exists_lastLine (t : Text) : ∃ before line : Text, t = before ++ line ∧ '\n' ∉ line ∧
    (before = [] ∨ before.getLast? = some '\n') ∧
    (t.reverse.takeWhile (· ≠ '\n')).length = line.length := by
  refine ⟨(t.reverse.dropWhile (· ≠ '\n')).reverse,
    (t.reverse.takeWhile (· ≠ '\n')).reverse, ?_, ?_, ?_, ?_⟩
  · rw [← List.reverse_append, List.takeWhile_append_dropWhile, List.reverse_reverse]
  · intro hMem
    simpa using List.mem_takeWhile_imp (List.mem_reverse.mp hMem)
  · rw [List.getLast?_reverse, List.reverse_eq_nil_iff]
    cases hRest : t.reverse.dropWhile (· ≠ '\n') with
    | nil => exact .inl rfl
    | cons c rest =>
      have hc := List.head_dropWhile_not (· ≠ '\n') (by rw [hRest]; exact List.cons_ne_nil c rest)
      simp only [hRest, List.head_cons] at hc
      exact .inr (congrArg some (by simpa using hc))
  · rw [List.length_reverse]

/-- Both readings of an offset of the text give the line that starts last in front of it, and its
distance from there. -/
theorem exists_lineStart {t : Text} {offset : Nat} (h : offset ≤ t.length) :
    ∃ line start character : Nat,
    LineStart t line start ∧ offset = start + character ∧ (t.take offset).count '\n' = line ∧
      position t offset = ⟨line, character⟩ ∧
      positionIn (lineStarts t) offset = ⟨line, character⟩ := by
  obtain ⟨before, last, hSplit, hLast, hOpens, hCharacter⟩ := exists_lastLine (t.take offset)
  have hOffset : offset = before.length + last.length := by
    rw [← List.length_append, ← hSplit, List.length_take, Nat.min_eq_left h]
  have hBefore : t.take before.length = before := by
    have hPrefix : (t.take offset).take before.length = before := by rw [hSplit, List.take_left]
    rwa [List.take_take, Nat.min_eq_left (by omega)] at hPrefix
  have hCount : (t.take offset).count '\n' = before.count '\n' := by
    rw [hSplit, List.count_append, List.count_eq_zero_of_not_mem hLast, Nat.add_zero]
  have hStart : LineStart t (before.count '\n') before.length := by
    refine ⟨hOpens.imp (fun hNil => by rw [hNil]; rfl) fun hBreak => ?_, by rw [hBefore]⟩
    rw [List.getLast?_eq_getElem?, ← hBefore, List.getElem?_take] at hBreak
    split_ifs at hBreak with hInside
    rwa [hBefore] at hBreak
  refine ⟨before.count '\n', before.length, last.length, hStart, hOffset, hCount, ?_, ?_⟩
  · have hClamp : clamp t offset = offset := Nat.min_eq_left h
    rw [position, hClamp, hCharacter, hCount]
  · have hLine := line_positionIn t offset
    have hStarts : (lineStarts t).getD (before.count '\n') 0 = before.length := by
      rw [List.getD_eq_getElem?_getD, getElem?_lineStarts.mpr hStart, Option.getD_some]
    rw [hCount] at hLine
    rw [positionIn] at hLine ⊢
    split at hLine
    · cases hLine
    · rename_i found hFound
      obtain rfl : found = before.count '\n' := Int.ofNat.inj hLine
      rw [hStarts, hOffset]
      congr 1
      omega

/-- Later offsets have later positions. -/
theorem strictMonoOn_position (t : Text) :
    StrictMonoOn (fun offset : Nat => (position t offset).key) (Set.Iic t.length) := by
  intro offset hOffset later hLater hLess
  obtain ⟨line, start, character, hStart, hHere, hCount, hPosition, -⟩ := exists_lineStart hOffset
  obtain ⟨line', start', character', hStart', hThere, hCount', hPosition', -⟩ :=
    exists_lineStart hLater
  dsimp only
  rw [hPosition, hPosition', Position.key, Position.key, Prod.Lex.toLex_lt_toLex]
  dsimp only
  have hLine : line ≤ line' := by
    rw [← hCount, ← hCount']
    exact count_take_mono t (Nat.le_of_lt hLess)
  rcases Nat.lt_or_eq_of_le hLine with hEarlier | rfl
  · exact .inl (Int.ofNat_lt.mpr hEarlier)
  · obtain rfl := hStart.unique hStart'
    exact .inr ⟨rfl, by omega⟩

end Text

/-! ## Positions -/

/-- For every offset of a source file, looking it up among the line starts and counting the
line feeds give the same position. Its line starts at one offset, and the position is as far
behind it as its character says. Different offsets have different positions, and later
offsets have later ones. -/
theorem SourceFile.position_exact (file : SourceFile) :
    (∀ offset : Nat, offset ≤ file.text.length →
      file.position offset = Text.position file.text offset ∧
      ∃ line start character : Nat, file.position offset = ⟨line, character⟩ ∧
        (∀ other, Text.LineStart file.text line other ↔ other = start) ∧
        offset = start + character) ∧
    Set.InjOn (fun offset : Nat => file.position offset) (Set.Iic file.text.length) ∧
    StrictMonoOn (fun offset : Nat => (file.position offset).key) (Set.Iic file.text.length) := by
  have hSame : ∀ offset : Nat, offset ≤ file.text.length →
      file.position offset = Text.position file.text offset := by
    intro offset hOffset
    obtain ⟨line, start, character, -, -, -, hPosition, hPositionIn⟩ :=
      Text.exists_lineStart hOffset
    exact hPositionIn.trans hPosition.symm
  have hMono :
      StrictMonoOn (fun offset : Nat => (file.position offset).key) (Set.Iic file.text.length) := by
    intro offset hOffset later hLater hLess
    show (file.position offset).key < (file.position later).key
    rw [hSame offset hOffset, hSame later hLater]
    exact Text.strictMonoOn_position file.text hOffset hLater hLess
  refine ⟨fun offset hOffset => ⟨hSame offset hOffset, ?_⟩, ?_, hMono⟩
  · obtain ⟨line, start, character, hStart, hOffset', -, -, hPosition⟩ :=
      Text.exists_lineStart hOffset
    refine ⟨line, start, character, hPosition, fun other =>
      ⟨fun hOther => hOther.unique hStart, ?_⟩, hOffset'⟩
    rintro rfl
    exact hStart
  · exact fun offset hOffset later hLater hEq =>
      hMono.injOn hOffset hLater (congrArg Position.key hEq)

/-- The last offset of a text of two lines. -/
theorem SourceFile.position_exact_lastLine :
    let file := SourceFile.read (.ofText "html") "src/app.ts" "a\nbc"
    4 ≤ file.text.length ∧ file.position 4 = Text.position file.text 4 ∧
      ∃ line start character : Nat, file.position 4 = ⟨line, character⟩ ∧
        (∀ other, Text.LineStart file.text line other ↔ other = start) ∧ 4 = start + character :=
  have hOffset : 4 ≤ "a\nbc".toList.length := by decide
  ⟨hOffset, (SourceFile.position_exact
    (SourceFile.read (.ofText "html") "src/app.ts" "a\nbc")).1 4 hOffset⟩

end TemplateCheck
