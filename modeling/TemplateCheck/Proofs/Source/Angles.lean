import TemplateCheck.Proofs.Text.Cuts
import TemplateCheck.Source.Class

/-!
# Type arguments by ranges and by parts

The type arguments of a base class are found as ranges of the code, those of a type expression as
parts of its text. Both count the same brackets, the ranges from the bracket on and the parts from
behind it, so they find the same arguments (`angles_exact`).

1. A bracket is closed where the running depth, counted from it on, is back at zero for the first
   time (`ClosedAt`). Before that the depth stays above zero (`Closes`), or it does so to the end of
   the text (`exists_closes_or_above`).
2. Up to the closing bracket the ranges are cut where the parts are cut
   (`Closes.exists_anglesFrom`), and without one there are no ranges (`anglesFrom_of_above`).
-/

namespace TemplateCheck

namespace ClassDeclaration

open Text

/-- The bracket at `offset` is closed by the character before `stop`: behind it the running depth,
counted from the bracket on, is back at zero for the first time. -/
structure ClosedAt (code : Text) (offset stop : Nat) : Prop where
  lt_stop : offset < stop
  stop_le : stop ≤ code.length
  closed : depthAt (code.drop offset) (stop - offset) = 0
  first : ∀ place < stop, offset < place → depthAt (code.drop offset) (place - offset) ≠ 0

theorem ClosedAt.unique {code : Text} {offset stop stop' : Nat} (h : ClosedAt code offset stop)
    (h' : ClosedAt code offset stop') : stop = stop' := by
  rcases Nat.lt_trichotomy stop stop' with hLt | hEq | hGt
  · exact absurd h.closed (h'.first stop hLt h.lt_stop)
  · exact hEq
  · exact absurd h'.closed (h.first stop' hGt h'.lt_stop)

/-! ## Up to the closing bracket -/

/-- The depth stays above zero over a text, and the character behind it brings it back to zero. -/
structure Closes (previous : Option Char) (depth : Int) (inside : Text)
    (closing : Char) : Prop where
  above : Above 0 previous depth inside
  depth_eq : depthFrom previous depth inside = 1
  nesting_eq : nesting (inside.getLast?.or previous) closing = -1

variable {code t rest inside : Text} {previous : Option Char} {depth : Int} {offset start : Nat}
  {closing : Char}

theorem closes_cons {c : Char} : Closes previous depth (c :: inside) closing ↔
    0 < depth + nesting previous c ∧
    Closes (some c) (depth + nesting previous c) inside closing := by
  constructor
  · rintro ⟨⟨hHere, hAbove⟩, hDepth, hNesting⟩
    rw [getLast?_cons_or] at hNesting
    exact ⟨hHere, hAbove, hDepth, hNesting⟩
  · rintro ⟨hHere, hAbove, hDepth, hNesting⟩
    rw [← getLast?_cons_or c inside previous] at hNesting
    exact ⟨⟨hHere, hAbove⟩, hDepth, hNesting⟩

/-- An open bracket is closed, or the depth stays above zero to the end. -/
theorem exists_closes_or_above (previous : Option Char) (hDepth : 0 < depth) (t : Text) :
    (∃ inside closing rest, t = inside ++ closing :: rest ∧ Closes previous depth inside closing) ∨
      Above 0 previous depth t := by
  induction t generalizing previous depth with
  | nil => exact .inr trivial
  | cons c t ih =>
    have hStep := neg_one_le_nesting previous c
    by_cases hHere : 0 < depth + nesting previous c
    · rcases ih (some c) hHere with ⟨inside, closing, rest, rfl, hCloses⟩ | hAbove
      · exact .inl ⟨c :: inside, closing, rest, rfl, closes_cons.mpr ⟨hHere, hCloses⟩⟩
      · exact .inr ⟨hHere, hAbove⟩
    · refine .inl ⟨[], c, t, rfl, trivial, ?_, ?_⟩
      · show depth = 1
        omega
      · show nesting previous c = -1
        omega

/-- From an opening bracket on, the running depth is the one carried along behind it. -/
theorem depthAt_angle {n : Nat} (h : n ≤ t.length) :
    depthAt ('<' :: t) (n + 1) = depthFrom (some '<') 1 (t.take n) := by
  rw [← depthFrom_take (by simpa using h)]
  rfl

/-- Where a bracket is closed, in terms of what stands in it. -/
theorem Closes.closedAt (hCode : code.drop offset = '<' :: (inside ++ closing :: rest))
    (h : Closes (some '<') 1 inside closing) :
    ClosedAt code offset (offset + (inside.length + 2)) := by
  have hLength := congrArg List.length hCode
  simp only [List.length_drop, List.length_cons, List.length_append] at hLength
  refine ⟨by omega, by omega, ?_, fun place hBefore hAfter => ?_⟩
  · have hTake : (inside ++ closing :: rest).take (inside.length + 1) = inside ++ [closing] := by
      rw [List.take_append, List.take_of_length_le (by omega), Nat.add_sub_cancel_left]
      rfl
    rw [Nat.add_sub_cancel_left, hCode, depthAt_angle (by simp), hTake, depthFrom_append,
      h.depth_eq, depthFrom, h.nesting_eq]
    rfl
  · obtain ⟨n, rfl⟩ : ∃ n, place = offset + (n + 1) := ⟨place - offset - 1, by omega⟩
    have hTake : (inside ++ closing :: rest).take n = inside.take n :=
      List.take_append_of_le_length (by omega)
    rw [Nat.add_sub_cancel_left, hCode, depthAt_angle (by simp; omega), hTake]
    exact Int.ne_of_gt (pos_depthFrom_take h.above Int.one_pos n)

theorem not_closedAt_of_above (hCode : code.drop offset = '<' :: t) (h : Above 0 (some '<') 1 t)
    (stop : Nat) :
    ¬ ClosedAt code offset stop := by
  rintro ⟨hLt, hLe, hClosed, -⟩
  have hLength := congrArg List.length hCode
  simp only [List.length_drop, List.length_cons] at hLength
  obtain ⟨n, rfl⟩ : ∃ n, stop = offset + (n + 1) := ⟨stop - offset - 1, by omega⟩
  rw [Nat.add_sub_cancel_left, hCode, depthAt_angle (by omega)] at hClosed
  exact Int.ne_of_gt (pos_depthFrom_take h Int.one_pos n) hClosed

/-! ## Ranges -/

theorem anglesFrom_cons (previous : Option Char) (depth : Int) (offset start : Nat) (c : Char)
    (t : Text) (h : 0 < depth + nesting previous c) :
    anglesFrom previous depth offset start (c :: t) =
      if c = ',' ∧ depth = 1 then
        (anglesFrom (some c) (depth + nesting previous c) (offset + 1) (offset + 1) t).map
          fun found => (found.1, (start, offset) :: found.2)
      else anglesFrom (some c) (depth + nesting previous c) (offset + 1) start t := by
  rw [anglesFrom, if_neg (by omega)]
  split_ifs with hComma
  · obtain ⟨rfl, rfl⟩ := hComma
    rw [nesting_of_none rfl previous, Int.add_zero]
  · rfl

theorem anglesFrom_of_above (h : Above 0 previous depth t) (offset start : Nat) :
    anglesFrom previous depth offset start t = none := by
  induction t generalizing previous depth offset start with
  | nil => rfl
  | cons c t ih =>
    rw [anglesFrom_cons previous depth offset start c t h.1, ih h.2, ih h.2]
    split_ifs <;> rfl

theorem slice_of_read {current : Text} (hCode : code.drop start = current.reverse ++ rest)
    (hOffset : offset = start + current.length) : slice code start offset = current.reverse := by
  have hSlice := slice_of_drop hCode
  rwa [List.length_reverse, ← hOffset] at hSlice

/-- Up to the closing bracket, the ranges are cut where the parts are. -/
theorem Closes.exists_anglesFrom (h : Closes previous depth inside closing) (start offset : Nat)
    (current : Text) (hCode : code.drop start = current.reverse ++ (inside ++ closing :: rest))
    (hOffset : offset = start + current.length) :
    ∃ ranges, anglesFrom previous depth offset start (inside ++ closing :: rest) =
        some (offset + (inside.length + 1), ranges) ∧
      ranges.map (fun range => slice code range.1 range.2) =
        splitTopLevelFrom [','] previous (depth - 1) current 0 inside := by
  induction inside generalizing previous depth offset start current with
  | nil =>
    have hDepth : depth = 1 := h.depth_eq
    have hNesting : nesting previous closing = -1 := h.nesting_eq
    refine ⟨[(start, offset)], ?_, ?_⟩
    · rw [List.nil_append, anglesFrom, if_pos ⟨hNesting, hDepth⟩]
      rfl
    · exact congrArg (fun part => [part]) (slice_of_read hCode hOffset)
  | cons c inside ih =>
    obtain ⟨hHere, hLater⟩ := closes_cons.mp h
    have hCut : (',' = c ∧ depth - 1 + nesting previous c = 0) ↔ (c = ',' ∧ depth = 1) := by
      rw [eq_comm]
      refine and_congr_right ?_
      rintro rfl
      rw [nesting_of_none rfl previous]
      omega
    rw [List.cons_append, anglesFrom_cons _ _ _ _ _ _ hHere, splitTopLevelFrom_cons,
      List.length_cons]
    by_cases hComma : c = ',' ∧ depth = 1
    · have hRest := drop_add_length hCode
      rw [List.length_reverse, ← hOffset] at hRest
      obtain ⟨ranges, hFound, hParts⟩ :=
        ih hLater (offset + 1) (offset + 1) [] (drop_succ hRest) rfl
      refine ⟨(start, offset) :: ranges, ?_, ?_⟩
      · rw [if_pos hComma, hFound, Option.map_some, Nat.add_right_comm, Nat.add_assoc]
      · have hDepth : depth + nesting previous c - 1 = 0 := by
          obtain ⟨rfl, rfl⟩ := hComma
          rw [nesting_of_none rfl previous]
          rfl
        rw [if_pos (hCut.mpr hComma), List.map_cons, slice_of_read hCode hOffset, hParts, hDepth]
    · obtain ⟨ranges, hFound, hParts⟩ := ih hLater start (offset + 1) (c :: current)
        (by rw [hCode, List.reverse_cons, List.append_assoc]; rfl) (by rw [hOffset]; rfl)
      refine ⟨ranges, ?_, ?_⟩
      · rw [if_neg hComma, hFound, Nat.add_right_comm, Nat.add_assoc]
      · have hDepth : depth + nesting previous c - 1 = depth - 1 + nesting previous c := by omega
        rw [if_neg fun h => hComma (hCut.mp h), hParts, hDepth]

/-! ## Both ways -/

/-- Where the bracket at an offset is closed, the ranges spell the parts of what stands
in it that are not blank, in order. A bracket that is not closed reaches to the end of
the code and has no ranges. -/
theorem angles_exact (code : Text) (offset : Nat) (h : code[offset]? = some '<') :
    (∀ stop, ClosedAt code offset stop →
      (angles code offset).1 = stop ∧
        (angles code offset).2.map (fun range => slice code range.1 range.2) =
          (splitTopLevel [','] (slice code (offset + 1) (stop - 1))).filter fun part =>
            !allBlank part) ∧
      ((∀ stop, ¬ ClosedAt code offset stop) → angles code offset = (code.length, [])) := by
  obtain ⟨t, hCode⟩ : ∃ t, code.drop offset = '<' :: t := by
    rw [← List.head?_drop] at h
    exact List.head?_eq_some_iff.mp h
  have hOpen : anglesFrom none 0 offset (offset + 1) (code.drop offset) =
      anglesFrom (some '<') 1 (offset + 1) (offset + 1) t := by
    rw [hCode]
    exact anglesFrom_cons none 0 offset (offset + 1) '<' t (by decide)
  rcases exists_closes_or_above (some '<')
    Int.one_pos t with ⟨inside, closing, rest, rfl, hCloses⟩ | hAbove
  · have hClosed := hCloses.closedAt hCode
    refine ⟨fun stop hStop => ?_, fun hNone => absurd hClosed (hNone _)⟩
    obtain rfl := hStop.unique hClosed
    obtain ⟨ranges, hFound, hParts⟩ := hCloses.exists_anglesFrom (offset + 1) (offset + 1) []
      (drop_succ hCode) rfl
    have hAngles : angles code offset = (offset + (inside.length + 2),
        ranges.filter fun range => !allBlank (slice code range.1 range.2)) := by
      rw [angles, hOpen, hFound, Nat.add_right_comm]
      rfl
    have hInside : slice code (offset + 1) (offset + (inside.length + 2) - 1) = inside := by
      have hSlice := slice_of_drop (drop_succ hCode)
      rwa [show offset + (inside.length + 2) - 1 = offset + 1 + inside.length by omega]
    have hSame : splitTopLevelFrom [','] (some '<') (1 - 1) [] 0 inside =
        splitTopLevel [','] inside :=
      splitTopLevelFrom_congr (by decide) (by decide) 0 [] inside
    rw [hAngles, hInside, ← hSame, ← hParts, List.filter_map]
    exact ⟨rfl, rfl⟩
  · refine ⟨fun stop hStop => absurd hStop (not_closedAt_of_above hCode hAbove stop), fun _ => ?_⟩
    rw [angles, hOpen, anglesFrom_of_above hAbove]

/-- A bracket of one kind may be closed by another, the tip of an arrow closes nothing, and a blank
argument is left out. -/
theorem angles_exact_mixed :
    (angles "C<A<x, y], (a, b) => c, , d>;".toList 1).1 = 28 ∧
      (angles "C<A<x, y], (a, b) => c, , d>;".toList 1).2.map
          (fun range => slice "C<A<x, y], (a, b) => c, , d>;".toList range.1 range.2) =
        ["A<x, y]".toList, " (a, b) => c".toList, " d".toList] := by
  have hClosed : ClosedAt "C<A<x, y], (a, b) => c, , d>;".toList 1 28 :=
    ⟨by decide, by decide, by decide +kernel, by decide +kernel⟩
  obtain ⟨hStop, hParts⟩ := (angles_exact "C<A<x, y], (a, b) => c, , d>;".toList 1 rfl).1 28 hClosed
  exact ⟨hStop, hParts.trans (by decide +kernel)⟩

end ClassDeclaration

end TemplateCheck
