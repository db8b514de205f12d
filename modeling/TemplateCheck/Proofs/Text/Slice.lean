import Mathlib.Data.List.TakeWhile
import Mathlib.Tactic.Common
import TemplateCheck.Text.Blank

/-!
# Pieces at offsets

A piece stands at an offset of a text when the text from there on starts with it. Scanners hand on
the rest of a text, offsets count what was scanned: the lemmas here lead from the one to the other.
-/

namespace TemplateCheck

namespace Text

variable {text piece rest : Text} {offset stop : Nat}

/-! ## Slices -/

theorem drop_add_length (h : text.drop offset = piece ++ rest) :
    text.drop (offset + piece.length) = rest := by
  rw [← List.drop_drop, h, List.drop_left]

theorem drop_succ {c : Char} (h : text.drop offset = c :: rest) : text.drop (offset + 1) = rest :=
  drop_add_length (show text.drop offset = [c] ++ rest from h)

theorem slice_of_drop (h : text.drop offset = piece ++ rest) :
    slice text offset (offset + piece.length) = piece := by
  rw [slice, h, Nat.add_sub_cancel_left, List.take_left]

theorem slice_pair {c d : Char} (h : text.drop offset = c :: d :: rest) :
    slice text offset (offset + 2) = [c, d] :=
  slice_of_drop (show text.drop offset = [c, d] ++ rest from h)

theorem slice_eq_append (h : text.drop offset = piece ++ rest)
    (hStop : offset + piece.length ≤ stop) :
    slice text offset stop = piece ++ slice text (offset + piece.length) stop := by
  rw [slice, slice, drop_add_length h, h, List.take_append,
    List.take_of_length_le (by omega), Nat.sub_sub]

theorem getElem?_of_drop {c : Char} (h : text.drop offset = c :: rest) :
    text[offset]? = some c := by
  rw [← List.head?_drop, h, List.head?_cons]

theorem exists_drop_of_slice (h : slice text offset (offset + piece.length) = piece) :
    ∃ rest, text.drop offset = piece ++ rest := by
  unfold slice at h
  rw [Nat.add_sub_cancel_left] at h
  have hDrop := List.take_append_drop piece.length (text.drop offset)
  rw [h] at hDrop
  exact ⟨_, hDrop.symm⟩

theorem slice_right {left : Text}
    (h : slice text offset (offset + (left ++ piece).length) = left ++ piece) :
    slice text (offset + left.length) (offset + left.length + piece.length) = piece := by
  obtain ⟨rest, hDrop⟩ := exists_drop_of_slice h
  rw [List.append_assoc] at hDrop
  exact slice_of_drop (drop_add_length hDrop)

theorem slice_left {left : Text}
    (h : slice text offset (offset + (left ++ piece).length) = left ++ piece) :
    slice text offset (offset + left.length) = left := by
  obtain ⟨rest, hDrop⟩ := exists_drop_of_slice h
  rw [List.append_assoc] at hDrop
  exact slice_of_drop hDrop

/-- A whole piece in a slice is a piece of the text. -/
theorem slice_of_slice {start length : Nat}
    (h : slice (slice text start stop) offset (offset + length) = piece)
    (hLength : piece.length = length) :
    slice text (start + offset) (start + offset + length) = piece := by
  subst hLength
  unfold slice at h ⊢
  have hPrefix : piece <+: text.drop (start + offset) := by
    rw [← h, List.drop_take, List.drop_drop, List.take_take]
    exact List.take_prefix _ _
  rw [Nat.add_sub_cancel_left]
  exact (List.prefix_iff_eq_take.mp hPrefix).symm

theorem getElem?_slice {start : Nat} (h : offset < stop - start) :
    (slice text start stop)[offset]? = text[start + offset]? := by
  rw [slice, List.getElem?_take_of_lt h, List.getElem?_drop]

theorem getElem?_of_slice {start : Nat} {c : Char} (h : (slice text start stop)[offset]? = some c) :
    text[start + offset]? = some c := by
  unfold slice at h
  rw [List.getElem?_take] at h
  split_ifs at h
  rwa [List.getElem?_drop] at h

theorem slice_self (text : Text) (offset : Nat) : slice text offset offset = [] := by
  rw [slice, Nat.sub_self, List.take_zero]

theorem getLast?_cons_or (c : Char) (t : Text) (previous : Option Char) :
    (c :: t).getLast?.or previous = t.getLast?.or (some c) := by
  rw [List.getLast?_cons]
  cases t.getLast? <;> rfl

theorem eq_append_of_dropStart? {start t rest : Text} (h : dropStart? start t = some rest) :
    t = start ++ rest := by
  fun_induction dropStart? start t with
  | case1 t => exact Option.some.inj h
  | case2 => cases h
  | case3 start a t ih => rw [List.cons_append, ← ih h]
  | case4 => cases h

/-! ## Trimming -/

theorem drop_indent (t : Text) : t.drop (indent t) = trimStart t := by
  have h : t.drop 0 = t.takeWhile isBlank ++ trimStart t := List.takeWhile_append_dropWhile.symm
  simpa [indent] using drop_add_length h

theorem indent_le_length (t : Text) : indent t ≤ t.length :=
  (List.takeWhile_sublist _).length_le

theorem exists_trimEnd_append (t : Text) :
    ∃ after, (∀ c ∈ after, isBlank c = true) ∧ trimEnd t ++ after = t := by
  refine ⟨(t.reverse.takeWhile isBlank).reverse, fun c hc => ?_, ?_⟩
  · exact List.mem_takeWhile_imp (List.mem_reverse.mp hc)
  · rw [trimEnd, dropRightWhile, ← List.reverse_append, List.takeWhile_append_dropWhile,
      List.reverse_reverse]

theorem exists_trim_append (t : Text) : ∃ after, t.drop (indent t) = trim t ++ after := by
  obtain ⟨after, -, h⟩ := exists_trimEnd_append (trimStart t)
  exact ⟨after, by rw [drop_indent, trim, h]⟩

end Text

end TemplateCheck
