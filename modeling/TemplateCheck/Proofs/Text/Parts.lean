import TemplateCheck.Proofs.Text.Bracket

/-!
# Parts outside brackets

A text is cut at the separators that stand outside all brackets. A part without a cut is passed as a
whole (`splitTopLevelFrom_append`), and a separator at depth zero cuts the text in two, wherever the
two are cut themselves (`splitTopLevelFrom_cut`).

So a text has the parts of what stands before such a separator and of what stands behind it
(`topLevelParts_append`), and balanced parts that are joined by a separator are found again
(`topLevelParts_join`).
-/

namespace TemplateCheck

namespace Text

/-! ## Splitting -/

theorem splitTopLevelFrom_cons (separator : Char) (previous : Option Char) (depth : Int)
    (current : Text) (c : Char) (t : Text) :
    splitTopLevelFrom [separator] previous depth current 0 (c :: t) =
      if separator = c ∧ depth + nesting previous c = 0 then
        current.reverse :: splitTopLevelFrom [separator] (some c) 0 [] 0 t
      else splitTopLevelFrom [separator] (some c) (depth + nesting previous c)
        (c :: current) 0 t := by
  rw [splitTopLevelFrom, startsWith_singleton]
  simp only [decide_eq_true_eq]
  split_ifs with hCut
  · rw [hCut.2, List.length_singleton, Nat.sub_self]
  · rfl

theorem splitTopLevelFrom_append {separator : Char} {previous : Option Char} {depth : Int}
    {s : Text} (h : Uncut (· = separator) previous depth s) (current t : Text) :
    splitTopLevelFrom [separator] previous depth current 0 (s ++ t) =
      splitTopLevelFrom [separator] (s.getLast?.or previous) (depthFrom previous depth s)
        (s.reverse ++ current) 0 t := by
  induction s generalizing previous depth current with
  | nil => rfl
  | cons c s ih =>
    obtain ⟨hFirst, hLater⟩ := h
    have hCut : ¬ (separator = c ∧ depth + nesting previous c = 0) := by
      rintro ⟨rfl, hDepth⟩
      exact hFirst ⟨decide_eq_true rfl, hDepth⟩
    rw [List.cons_append, splitTopLevelFrom_cons, if_neg hCut, ih hLater, depthFrom,
      getLast?_cons_or, List.reverse_cons, List.append_assoc, List.singleton_append]

theorem splitTopLevelFrom_congr {separator : Char} {previous previous' : Option Char}
    (h : previous ≠ some '=') (h' : previous' ≠ some '=') (depth : Int) (current t : Text) :
    splitTopLevelFrom [separator] previous depth current 0 t =
      splitTopLevelFrom [separator] previous' depth current 0 t := by
  cases t with
  | nil => rfl
  | cons c t => rw [splitTopLevelFrom_cons, splitTopLevelFrom_cons, nesting_congr h h']

/-- What was read before a text stands in its first part. -/
theorem exists_splitTopLevelFrom_eq (separator : Char) (previous : Option Char) (depth : Int)
    (current t : Text) :
    ∃ first rest, splitTopLevelFrom [separator] previous depth current 0 t = first :: rest ∧
      ∀ earlier : Text, splitTopLevelFrom [separator] previous depth (current ++ earlier) 0 t =
        (earlier.reverse ++ first) :: rest := by
  induction t generalizing previous depth current with
  | nil =>
    refine ⟨current.reverse, [], rfl, fun earlier => ?_⟩
    rw [splitTopLevelFrom, List.reverse_append]
  | cons c t ih =>
    simp only [splitTopLevelFrom_cons]
    split_ifs with hCut
    · exact ⟨_, _, rfl, fun earlier => by rw [List.reverse_append]⟩
    · exact ih (some c) (depth + nesting previous c) (c :: current)

/-- A balanced text without a cut goes with the first part of what follows. -/
theorem exists_splitTopLevel_append {separator : Char} {s : Text} (hBalanced : s.Balanced)
    (h : Uncut (· = separator) none 0 s) (t : Text) :
    ∃ first, splitTopLevel [separator] (s ++ t) =
      (s ++ first) :: (splitTopLevel [separator] t).tail := by
  obtain ⟨first, rest, hSplit, hEarlier⟩ := exists_splitTopLevelFrom_eq separator none 0 [] t
  have hPrevious := hBalanced.previous_ne (Option.some_ne_none '=').symm
  refine ⟨first, ?_⟩
  unfold splitTopLevel
  rw [splitTopLevelFrom_append h, hBalanced.depth_eq, List.append_nil,
    splitTopLevelFrom_congr hPrevious (Option.some_ne_none _).symm,
    ← List.nil_append s.reverse, hEarlier, List.reverse_reverse, hSplit, List.tail_cons]

theorem topLevelParts_of_uncut {separator : Char} {t : Text} (h : Uncut (· = separator) none 0 t)
    (hTrimmed : t.Trimmed) (hNonempty : t ≠ []) : topLevelParts [separator] t = [t] := by
  have hSplit := splitTopLevelFrom_append h [] []
  rw [List.append_nil, List.append_nil, splitTopLevelFrom, List.reverse_reverse] at hSplit
  unfold topLevelParts splitTopLevel
  rw [hSplit, List.map_singleton, hTrimmed.trim_eq, List.filter_singleton, decide_eq_true hNonempty]
  rfl

/-! ## Joined parts -/

/-- A text that can stand between separators: it is balanced, trimmed and not empty, and the
separator does not occur in it. -/
structure IsPart (separator : Char) (t : Text) : Prop where
  balanced : t.Balanced
  trimmed : t.Trimmed
  ne_nil : t ≠ []
  not_mem : separator ∉ t

section Join

variable {separator : Char} {before after : Text} (hNesting : nesting none separator = 0)
  (hEquals : separator ≠ '=') (hVisible : isBlank separator = false)
  (hBefore : ∀ c ∈ before, isBlank c = true) (hAfter : ∀ c ∈ after, isBlank c = true)

include hVisible in
theorem uncut_of_blanks {t : Text} (h : ∀ c ∈ t, isBlank c = true) (previous : Option Char)
    (depth : Int) : Uncut (· = separator) previous depth t := by
  refine uncut_of_forall (fun c hc => decide_eq_false ?_) previous depth
  rintro rfl
  rw [h c hc] at hVisible
  cases hVisible

theorem IsPart.uncut {t : Text} (h : t.IsPart separator) (previous : Option Char) (depth : Int) :
    Uncut (· = separator) previous depth t :=
  uncut_of_forall (fun _ hc => decide_eq_false (by rintro rfl; exact h.not_mem hc)) previous depth

theorem splitTopLevelFrom_cut {previous : Option Char} {depth : Int} {s : Text}
    (h : depthFrom previous depth s + nesting (s.getLast?.or previous) separator = 0)
    (current t : Text) :
    splitTopLevelFrom [separator] previous depth current 0 (s ++ separator :: t) =
      splitTopLevelFrom [separator] previous depth current 0 s ++
        splitTopLevelFrom [separator] (some separator) 0 [] 0 t := by
  induction s generalizing previous depth current with
  | nil =>
    rw [List.nil_append, splitTopLevelFrom_cons, if_pos ⟨rfl, h⟩]
    rfl
  | cons c s ih =>
    rw [depthFrom, getLast?_cons_or] at h
    rw [List.cons_append, splitTopLevelFrom_cons, splitTopLevelFrom_cons]
    split_ifs with hCut
    · rw [hCut.2] at h
      rw [ih h, List.cons_append]
    · exact ih h _

theorem uncut_or_exists_cut (separator : Char) (previous : Option Char) (depth : Int) (t : Text) :
    Uncut (· = separator) previous depth t ∨ ∃ before after, t = before ++ separator :: after ∧
      depthFrom previous depth before + nesting (before.getLast?.or previous) separator = 0 := by
  induction t generalizing previous depth with
  | nil => exact .inl trivial
  | cons c t ih =>
    by_cases hCut : separator = c ∧ depth + nesting previous c = 0
    · obtain ⟨rfl, hDepth⟩ := hCut
      exact .inr ⟨[], t, rfl, hDepth⟩
    · rcases ih (some c) (depth + nesting previous c) with hRest | ⟨before, after, rfl, hDepth⟩
      · exact .inl ⟨fun h => hCut ⟨(of_decide_eq_true h.1).symm, h.2⟩, hRest⟩
      · refine .inr ⟨c :: before, after, rfl, ?_⟩
        rwa [depthFrom, getLast?_cons_or]

/-- What is no separator stands in a part. -/
theorem exists_mem_splitTopLevelFrom {c : Char} (hNot : c ≠ separator) (previous : Option Char)
    (depth : Int) {current t : Text} (hc : c ∈ current ∨ c ∈ t) :
    ∃ part ∈ splitTopLevelFrom [separator] previous depth current 0 t, c ∈ part := by
  induction t generalizing previous depth current with
  | nil =>
    exact ⟨_, List.mem_singleton_self _, List.mem_reverse.mpr (hc.resolve_right List.not_mem_nil)⟩
  | cons d t ih =>
    rw [splitTopLevelFrom_cons]
    rw [List.mem_cons] at hc
    split_ifs with hCut
    · rcases hc with hc | rfl | hc
      · exact ⟨_, List.mem_cons_self, List.mem_reverse.mpr hc⟩
      · exact absurd hCut.1.symm hNot
      · obtain ⟨part, hPart, hMem⟩ := ih (some d) 0 (.inr hc)
        exact ⟨part, List.mem_cons_of_mem _ hPart, hMem⟩
    · apply ih
      rcases hc with hc | rfl | hc
      · exact .inl (List.mem_cons_of_mem d hc)
      · exact .inl List.mem_cons_self
      · exact .inr hc

/-- A trimmed text without a separator at its ends is one part, or it has two or more of them. -/
theorem topLevelParts_eq_or {t : Text} (hTrimmed : t.Trimmed) (hNonempty : t ≠ [])
    (hHead : t.head? ≠ some separator) (hLast : t.getLast? ≠ some separator) :
    topLevelParts [separator] t = [t] ∨ 1 < (topLevelParts [separator] t).length := by
  have hPart : ∀ {c : Char} {previous : Option Char} {t : Text}, c ∈ t → c ≠ separator →
      isBlank c = false → 0 <
        (((splitTopLevelFrom [separator] previous 0 [] 0 t).map trim).filter (· ≠ [])).length := by
    intro c previous t hc hNot hVisible
    obtain ⟨part, hPart, hMem⟩ := exists_mem_splitTopLevelFrom hNot previous 0 (.inr hc)
    refine List.length_pos_of_mem (List.mem_filter.mpr ⟨List.mem_map_of_mem hPart,
      decide_eq_true ?_⟩)
    exact List.ne_nil_of_mem (mem_trim hMem hVisible)
  rcases uncut_or_exists_cut separator none 0 t with hUncut | ⟨before, after, rfl, hCut⟩
  · exact .inl (topLevelParts_of_uncut hUncut hTrimmed hNonempty)
  · right
    have hBefore : 0 < (((splitTopLevelFrom [separator] none 0 [] 0 before).map trim).filter
        (· ≠ [])).length := by
      cases before with
      | nil => exact absurd rfl hHead
      | cons c before =>
        refine hPart List.mem_cons_self ?_ (hTrimmed.head c rfl)
        rintro rfl
        exact hHead rfl
    have hAfter : 0 < (((splitTopLevelFrom [separator] (some separator) 0 [] 0 after).map
        trim).filter (· ≠ [])).length := by
      rw [List.getLast?_append, List.getLast?_cons] at hLast
      cases hEnd : after.getLast? with
      | none =>
        rw [hEnd] at hLast
        exact absurd rfl hLast
      | some c =>
        refine hPart (List.mem_of_getLast? hEnd) ?_ (hTrimmed.last c ?_)
        · rintro rfl
          rw [hEnd] at hLast
          exact hLast rfl
        · rw [List.getLast?_append, List.getLast?_cons, hEnd]
          rfl
    unfold topLevelParts splitTopLevel
    rw [splitTopLevelFrom_cut hCut, List.map_append, List.filter_append, List.length_append]
    exact Nat.add_le_add hBefore hAfter

/-- The parts of a text do not depend on blanks before it. -/
theorem map_trim_splitTopLevelFrom_before (hBefore : ∀ c ∈ before, isBlank c = true)
    {previous previous' : Option Char} (hSame : ∀ c, nesting previous c = nesting previous' c)
    (depth : Int) (current t : Text) :
    (splitTopLevelFrom [separator] previous depth (current ++ before) 0 t).map trim =
      (splitTopLevelFrom [separator] previous' depth current 0 t).map trim := by
  have hTrim : ∀ current : Text, trim (current ++ before).reverse = trim current.reverse := by
    intro current
    rw [List.reverse_append]
    exact trim_blanks_append (fun c hc => hBefore c (List.mem_reverse.mp hc)) _
  induction t generalizing previous previous' depth current with
  | nil => exact congrArg (fun part => [part]) (hTrim current)
  | cons c t ih =>
    rw [splitTopLevelFrom_cons, splitTopLevelFrom_cons, hSame]
    split_ifs
    · rw [List.map_cons, List.map_cons, hTrim]
    · rw [← List.cons_append]
      exact ih (fun _ => rfl) _ _

include hVisible in
theorem map_trim_splitTopLevelFrom_after (hAfter : ∀ c ∈ after, isBlank c = true)
    (previous : Option Char) (depth : Int) (current t : Text) :
    (splitTopLevelFrom [separator] previous depth current 0 (t ++ after)).map trim =
      (splitTopLevelFrom [separator] previous depth current 0 t).map trim := by
  induction t generalizing previous depth current with
  | nil =>
    have hPass := splitTopLevelFrom_append
      (uncut_of_blanks hVisible hAfter previous depth) current []
    rw [List.append_nil, splitTopLevelFrom, List.reverse_append, List.reverse_reverse] at hPass
    rw [List.nil_append, hPass, splitTopLevelFrom, List.map_singleton, List.map_singleton,
      trim_append_blanks hAfter]
  | cons c t ih =>
    rw [List.cons_append, splitTopLevelFrom_cons, splitTopLevelFrom_cons]
    split_ifs
    · rw [List.map_cons, List.map_cons, ih]
    · exact ih _ _ _

include hNesting hEquals hVisible hBefore hAfter

/-- Two texts with a separator between them have the parts of the two, if the first
closes its brackets. -/
theorem topLevelParts_append {s : Text} (hDepth : depthFrom none 0 s = 0) (t : Text) :
    topLevelParts [separator] (s ++ before ++ separator :: (after ++ t)) =
      topLevelParts [separator] s ++ topLevelParts [separator] t := by
  have hBlanks := balanced_of_blanks hAfter
  have hSeparator : (some separator) ≠ some '=' := fun h => hEquals (Option.some.inj h)
  have hCut :
      depthFrom none 0 (s ++ before) + nesting ((s ++ before).getLast?.or none) separator = 0 := by
    have hStay : depthFrom s.getLast? 0 before = 0 :=
      depthFrom_of_forall (fun c hc => nesting_of_isBlank (hBefore c hc)) _ _
    rw [depthFrom_append, hDepth, Option.or_none, hStay, nesting_of_none hNesting]
    rfl
  have hFirst := map_trim_splitTopLevelFrom_after hVisible hBefore none 0 [] s
  have hSecond : (splitTopLevelFrom [separator] (some separator) 0 [] 0 (after ++ t)).map trim =
      (splitTopLevelFrom [separator] none 0 [] 0 t).map trim := by
    rw [splitTopLevelFrom_append (uncut_of_blanks hVisible hAfter _ _),
      hBlanks.depthFrom_eq hSeparator, List.append_nil, ← List.nil_append after.reverse]
    exact map_trim_splitTopLevelFrom_before (fun c hc => hAfter c (List.mem_reverse.mp hc))
      (nesting_congr (hBlanks.previous_ne hSeparator) (Option.some_ne_none _).symm) 0 [] t
  unfold topLevelParts splitTopLevel
  rw [splitTopLevelFrom_cut hCut, List.map_append, hFirst, hSecond, List.filter_append]

/-- Parts that are joined by a separator with blanks around it are found again. -/
theorem topLevelParts_join {parts : List Text} (hNonempty : parts ≠ [])
    (hParts : ∀ t ∈ parts, t.IsPart separator) :
    topLevelParts [separator] (join (before ++ separator :: after) parts) = parts := by
  have hPart : ∀ t ∈ parts, topLevelParts [separator] t = [t] := fun t ht =>
    topLevelParts_of_uncut ((hParts t ht).uncut none 0) (hParts t ht).trimmed (hParts t ht).ne_nil
  induction parts with
  | nil => exact absurd rfl hNonempty
  | cons part parts ih =>
    cases parts with
    | nil => exact hPart part List.mem_cons_self
    | cons next parts =>
      obtain ⟨hFirst, hLater⟩ := List.forall_mem_cons.mp hPart
      have hJoin : join (before ++ separator :: after) (part :: next :: parts) = part ++ before ++
          separator :: (after ++ join (before ++ separator :: after) (next :: parts)) := by
        rw [join]
        · simp only [List.append_assoc, List.cons_append]
        · simp
      rw [hJoin, topLevelParts_append hNesting hEquals hVisible hBefore hAfter
          (hParts part List.mem_cons_self).balanced.depth_eq, hFirst,
        ih (List.cons_ne_nil _ _) (List.forall_mem_cons.mp hParts).2 hLater, List.singleton_append]

end Join

end Text

end TemplateCheck
