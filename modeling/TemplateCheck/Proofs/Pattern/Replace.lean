import TemplateCheck.Proofs.Pattern.Run

/-!
# Replacing readings

`Pattern.replaceAll` cuts a text at the readings that were found in all of it. Here it is put as one
pass from left to right (`Pattern.replaceFrom`), so that what it does with a text follows from what
it does with the parts of the text, one after the other.
-/

namespace TemplateCheck

namespace Pattern

variable {ι : Type} {p : Pattern ι} {replacement : Text}

/-- The text `t` at an offset with each reading replaced; the first `skip` characters belong to a
reading that has been replaced. -/
def replaceFrom (p : Pattern ι) (replacement : Text) :
    (skip : Nat) → Option Char → Nat → Text → Text
  | _, _, _, [] => []
  | skip + 1, _, offset, c :: t => replaceFrom p replacement skip (some c) (offset + 1) t
  | 0, previous, offset, c :: t =>
    match p.readAt previous offset (c :: t) with
    | some found =>
      replacement ++ replaceFrom p replacement (found.stop - offset - 1) (some c) (offset + 1) t
    | none => c :: replaceFrom p replacement 0 (some c) (offset + 1) t

/-- Every reading of the pattern passes some text. -/
def Advances (p : Pattern ι) : Prop := ∀ {a b : Cursor ι}, p.Reads a b → a.offset < b.offset

theorem Advances.start_lt_stop (h : p.Advances) {previous : Option Char} {offset : Nat} {t : Text}
    {found : Match ι} (hFound : p.readAt previous offset t = some found) :
    found.start = offset ∧ offset < found.stop := by
  obtain ⟨last, hReads, rfl⟩ := exists_reads_of_readAt hFound
  exact ⟨rfl, h hReads⟩

theorem le_start_of_mem_readAllFrom {skip : Nat} {previous : Option Char} {offset : Nat} {t : Text}
    {found : Match ι} (h : found ∈ p.readAllFrom skip previous offset t) :
    offset + skip ≤ found.start := by
  fun_induction readAllFrom p skip previous offset t with
  | case1 => cases h
  | case2 skip previous offset c t ih =>
    have := ih h
    omega
  | case3 previous offset c t first hFirst ih =>
    rcases List.mem_cons.mp h with rfl | h
    · obtain ⟨last, -, rfl⟩ := exists_reads_of_readAt hFirst
      exact Nat.le_refl _
    · have := ih h
      omega
  | case4 previous offset c t hNone ih =>
    have := ih h
    omega

/-- The matches stand one behind the other. -/
theorem Advances.pairwise_readAllFrom (h : p.Advances) (skip : Nat) (previous : Option Char)
    (offset : Nat) (t : Text) :
    (p.readAllFrom skip previous offset t).Pairwise fun a b => a.stop ≤ b.start := by
  fun_induction readAllFrom p skip previous offset t with
  | case1 => exact .nil
  | case2 skip previous offset c t ih => exact ih
  | case3 previous offset c t first hFirst ih =>
    obtain ⟨hStart, hStop⟩ := h.start_lt_stop hFirst
    refine List.pairwise_cons.mpr ⟨fun found hMem => ?_, ih⟩
    have := le_start_of_mem_readAllFrom hMem
    omega
  | case4 previous offset c t hNone ih => exact ih

/-- What is replaced from an offset on, where a part of the text before the offset may still have to
be copied. -/
theorem replaceAll_go_eq (h : p.Advances) {text : Text} {skip : Nat} {previous : Option Char}
    {offset : Nat} {t : Text} (hText : text.drop offset = t) {start : Nat}
    (hStart : skip = 0 ∧ start ≤ offset ∨ start = offset + skip) :
    replaceAll.go replacement text start (p.readAllFrom skip previous offset t) =
      Text.slice text start offset ++ p.replaceFrom replacement skip previous offset t := by
  -- A slice is empty where its end does not come after its start.
  have hEmpty : ∀ start stop : Nat, stop ≤ start → Text.slice text start stop = [] := by
    intro start stop hStop
    rw [Text.slice, Nat.sub_eq_zero_of_le hStop, List.take_zero]
  fun_induction readAllFrom p skip previous offset t generalizing start with
  | case1 skip previous offset =>
    have hLength := List.drop_eq_nil_iff.mp hText
    rw [replaceFrom, List.append_nil, replaceAll.go, Text.slice, List.take_of_length_le]
    rw [List.length_drop]
    omega
  | case2 skip previous offset c t ih =>
    rw [ih (Text.drop_succ hText) (.inr (by omega)), hEmpty start (offset + 1) (by omega),
      hEmpty start offset (by omega), replaceFrom]
  | case3 previous offset c t found hFound ih =>
    obtain ⟨hFrom, hStop⟩ := h.start_lt_stop hFound
    rw [replaceAll.go, ih (Text.drop_succ hText) (.inr (by omega)),
      hEmpty found.stop (offset + 1) (by omega), replaceFrom, hFound, hFrom, List.nil_append,
      List.append_assoc]
  | case4 previous offset c t hNone ih =>
    rw [ih (Text.drop_succ hText) (.inl ⟨rfl, by omega⟩), replaceFrom, hNone]
    have hSlice : Text.slice text start (offset + 1) = Text.slice text start offset ++ [c] := by
      have hHere : (text.drop start)[offset - start]? = some c := by
        rw [List.getElem?_drop, show start + (offset - start) = offset by omega]
        exact Text.getElem?_of_drop hText
      rw [Text.slice, show offset + 1 - start = offset - start + 1 by omega,
        List.take_add_one, hHere]
      rfl
    rw [hSlice, List.append_assoc, List.singleton_append]

theorem replaceAll_eq (h : p.Advances) (t : Text) :
    p.replaceAll replacement t = p.replaceFrom replacement 0 none 0 t := by
  have hText : t.drop 0 = t := List.drop_zero
  refine (replaceAll_go_eq h hText (.inl ⟨rfl, Nat.le_refl 0⟩)).trans ?_
  rw [Text.slice_self, List.nil_append]

/-! ## Parts -/

theorem replaceFrom_skip (s t : Text) (previous : Option Char) (offset : Nat) :
    p.replaceFrom replacement s.length previous offset (s ++ t) =
      p.replaceFrom replacement 0 (s.getLast?.or previous) (offset + s.length) t := by
  induction s generalizing previous offset with
  | nil => rfl
  | cons c s ih =>
    rw [List.cons_append, List.length_cons, replaceFrom, ih, Text.getLast?_cons_or,
      Nat.add_assoc, Nat.add_comm 1]

theorem replaceFrom_append {s t : Text} {previous : Option Char} {offset : Nat}
    (h : ∀ before c after, s = before ++ c :: after → ∀ previous offset,
      p.readAt previous offset (c :: (after ++ t)) = none) :
    p.replaceFrom replacement 0 previous offset (s ++ t) =
      s ++ p.replaceFrom replacement 0 (s.getLast?.or previous) (offset + s.length) t := by
  induction s generalizing previous offset with
  | nil => rfl
  | cons c s ih =>
    rw [List.cons_append, replaceFrom, h [] c s rfl, ih fun before d after hEq => ?_,
      Text.getLast?_cons_or, List.length_cons, Nat.add_assoc, Nat.add_comm 1, List.cons_append]
    exact h (c :: before) d after (by rw [hEq]; rfl)

theorem replaceAll_eq_self {t : Text} (h : p.readAll t = []) : p.replaceAll replacement t = t := by
  rw [replaceAll, h, replaceAll.go, List.drop_zero]

end Pattern

end TemplateCheck
