import Mathlib.Data.List.TakeWhile
import TemplateCheck.Proofs.Markup.Steps
import TemplateCheck.Proofs.Text.Slice

/-!
# Placeholders are opaque

The tokenizer never reads what stands in a placeholder. Two bodies that differ in their placeholders
only have the same tokens (`tokenize_eq_of_agree`).

1. A look sees the text ahead up to the next dollar sign (`Machine.look_ahead`), and it moves over
   nothing else (`Machine.Step.le`).
2. Placeholders are apart and open with a dollar sign, so the run of the machine stops at places
   that are clear of them (`Placed.clear_move`, `Placed.clear_stop`).
3. From a clear place on, the two bodies show the same text ahead (`Placed.ahead_eq`); hence the two
   runs are the same (`Placed.runFrom_eq`).
-/

namespace TemplateCheck

namespace Tokenizer

/-! ## Looking ahead -/

/-- What can be seen of the text ahead: all up to the next dollar sign. -/
def ahead (t : Text) : Text := t.takeWhile (· ≠ '$')

theorem ahead_cons {c : Char} (h : c ≠ '$') (t : Text) : ahead (c :: t) = c :: ahead t := by
  simp [ahead, h]

theorem ahead_dollar (t : Text) : ahead ('$' :: t) = [] := by
  simp [ahead]

theorem ne_dollar_of_getElem?_ahead {t : Text} {i : Nat} (h : i < (ahead t).length) :
    t[i]? ≠ some '$' := by
  intro hDollar
  have hGet : (ahead t)[i]? = some '$' := by
    obtain ⟨rest, hRest⟩ : ahead t <+: t := List.takeWhile_prefix _
    rwa [← hRest, List.getElem?_append_left h] at hDollar
  have hMem : '$' ∈ ahead t := List.mem_of_getElem? hGet
  simpa using List.mem_takeWhile_imp hMem

theorem startsWith_ahead {start : Text} (h : '$' ∉ start) (t : Text) :
    Text.startsWith start (ahead t) = Text.startsWith start t := by
  induction start generalizing t with
  | nil => rfl
  | cons a start ih =>
    obtain ⟨ha, hStart⟩ := List.ne_and_not_mem_of_not_mem_cons h
    cases t with
    | nil => rfl
    | cons c t =>
      by_cases hc : c = '$'
      · subst hc
        simp [ahead_dollar, Text.startsWith, Text.dropStart?, Ne.symm ha]
      · rw [ahead_cons hc]
        by_cases hac : a = c
        · simpa [Text.startsWith, Text.dropStart?, hac] using ih hStart t
        · simp [Text.startsWith, Text.dropStart?, hac]

theorem startsWith_cons_ahead {start : Text} (h : '$' ∉ start) (c : Char) (t : Text) :
    Text.startsWith start (c :: ahead t) = Text.startsWith start (c :: t) := by
  cases start with
  | nil => rfl
  | cons a start =>
    by_cases hac : a = c
    · simpa [Text.startsWith, Text.dropStart?, hac] using
        startsWith_ahead (List.not_mem_of_not_mem_cons h) t
    · simp [Text.startsWith, Text.dropStart?, hac]

theorem head?_ahead_eq_some {c : Char} (h : c ≠ '$') (t : Text) :
    (ahead t).head? = some c ↔ t.head? = some c := by
  cases t with
  | nil => rfl
  | cons d t =>
    by_cases hd : d = '$'
    · subst hd
      simp [ahead_dollar, Ne.symm h]
    · simp [ahead_cons hd]

namespace Machine

theorem endsAttribute_ahead (c : Char) (t : Text) :
    endsAttribute c (ahead t) = endsAttribute c t := by
  unfold endsAttribute
  simp only [head?_ahead_eq_some (show '>' ≠ '$' by decide)]

/-- A look sees no further than the next dollar sign. -/
theorem look_ahead (m : Machine) (offset : Nat) (c : Char) (t : Text) :
    m.look offset c (ahead t) = m.look offset c t := by
  unfold look
  cases m.state with
  | text =>
    have hComment := startsWith_cons_ahead (show '$' ∉ ("<!--" : Text) by decide) c t
    simp only [hComment]
    cases t with
    | nil => rfl
    | cons d t =>
      by_cases hd : d = '$'
      · subst hd
        simp [ahead_dollar, show isLetter '$' = false by decide]
      · simp [ahead_cons hd]
  | comment =>
    have hEnd := startsWith_cons_ahead (show '$' ∉ ("-->" : Text) by decide) c t
    simp only [hEnd]
  | attributeList => simp only [head?_ahead_eq_some (show '>' ≠ '$' by decide)]
  | attributeKey key => simp only [endsAttribute_ahead]
  | awaitingValue subject detached => simp only [endsAttribute_ahead]
  | unquotedValue value => simp only [endsAttribute_ahead]
  | closingTag => rfl
  | tagName start name => rfl
  | quotedValue quote value spaced => rfl

theorem react_ahead (m : Machine) (offset : Nat) (c : Char) (t : Text) :
    m.react offset c (ahead t) = m.react offset c t := by
  simp only [react_eq, look_ahead]

theorem length_le_of_startsWith {start : Text} (hStart : '$' ∉ start) {c : Char} {t : Text}
    (h : Text.startsWith start (c :: t) = true) : start.length ≤ 1 + (ahead t).length := by
  rw [← startsWith_cons_ahead hStart, Text.startsWith, Option.isSome_iff_exists] at h
  obtain ⟨rest, hRest⟩ := h
  have hLength := congrArg List.length (Text.eq_append_of_dropStart? hRest)
  rw [List.length_append, List.length_cons] at hLength
  omega

theorem length_ahead_pos {t : Text} {c : Char} (hc : c ≠ '$') (h : t.head? = some c) :
    1 ≤ (ahead t).length := by
  cases t with
  | nil => cases h
  | cons d t =>
    obtain rfl := Option.some.inj h
    rw [ahead_cons hc, List.length_cons]
    omega

theorem Step.le {m m' : Machine} {offset moved : Nat} {c : Char} {t : Text}
    (h : m.Step offset c t m' moved) : moved ≤ 1 + (ahead t).length := by
  cases h with
  | opensComment _ opening => exact length_le_of_startsWith (by decide) opening
  | closesComment _ closing => exact length_le_of_startsWith (by decide) closing
  | opensClosingTag _ _ slash => exact Nat.add_le_add_left (length_ahead_pos (by decide) slash) 1
  | closesItself _ _ closing => exact Nat.add_le_add_left (length_ahead_pos (by decide) closing) 1
  | _ => omega

theorem react_le (m : Machine) (offset : Nat) (c : Char) (t : Text) :
    (m.react offset c t).2 ≤ 1 + (ahead t).length :=
  react_keeps (P := fun _ moved => moved ≤ 1 + (ahead t).length) (fun m _ =>
    (m.step_look offset c t).le)
    (Nat.zero_le _)

end Machine

/-! ## Placed regions -/

/-- The regions stand in order and apart, none is empty, and each opens with a dollar sign. -/
structure Placed (body : Text) (placeholders : List (Int × Int)) : Prop where
  ordered : placeholders.Pairwise fun p q => p.2 ≤ q.1
  nonempty : ∀ p ∈ placeholders, p.1 < p.2
  opens : ∀ p ∈ placeholders, 0 ≤ p.1 ∧ body[p.1.toNat]? = some '$'

/-- The offset lies in none of the regions, or at the start of one. -/
def Clear (placeholders : List (Int × Int)) (offset : Nat) : Prop :=
  ∀ p ∈ placeholders, p.2 ≤ offset ∨ (offset : Int) ≤ p.1

theorem mem_regions_iff {placeholders : List (Int × Int)} {region : Region} :
    region ∈ regions placeholders ↔
      placeholders[region.index]? = some (region.start, region.stop) := by
  obtain ⟨index, start, stop⟩ := region
  simp [regions, List.mem_zipIdx_iff_getElem?]

theorem mem_of_mem_regions {placeholders : List (Int × Int)} {region : Region}
    (h : region ∈ regions placeholders) : (region.start, region.stop) ∈ placeholders :=
  List.mem_of_getElem? (mem_regions_iff.mp h)

theorem ne_of_find?_eq_none {placeholders : List (Int × Int)} {offset : Nat}
    (h : (regions placeholders).find? (·.start = (offset : Int)) = none) :
    ∀ p ∈ placeholders, p.1 ≠ offset := by
  intro p hp hStart
  obtain ⟨index, hIndex⟩ := List.mem_iff_getElem?.mp hp
  have hMem : (⟨index, p.1, p.2⟩ : Region) ∈ regions placeholders := mem_regions_iff.mpr hIndex
  exact absurd hStart (by simpa using List.find?_eq_none.mp h _ hMem)

/-- Characters that are to be skipped do not matter. -/
theorem runFrom_skip (regions : List Region) (m : Machine) (skip offset : Nat) (t : Text) :
    runFrom regions m skip offset t = runFrom regions m 0 (offset + skip) (t.drop skip) := by
  induction skip generalizing offset t with
  | zero => rfl
  | succ skip ih =>
    cases t with
    | nil => rw [List.drop_nil, runFrom, runFrom]
    | cons c t => rw [runFrom, ih, List.drop_succ_cons, Nat.add_right_comm, Nat.add_assoc]

namespace Placed

variable {body t : Text} {placeholders : List (Int × Int)} {offset : Nat} {c : Char}

theorem clear_zero (h : Placed body placeholders) : Clear placeholders 0 :=
  fun p hp => .inr (h.opens p hp).1

/-- Beyond a clear offset at which no placeholder starts, a placeholder lies behind or ahead. -/
theorem stop_le_or_lt (hClear : Clear placeholders offset)
    (hNone : ∀ p ∈ placeholders, p.1 ≠ offset) :
    ∀ p ∈ placeholders, p.2 ≤ offset ∨ (offset : Int) < p.1 := by
  intro p hp
  have := hNone p hp
  rcases hClear p hp with hStop | hStart
  · exact .inl hStop
  · exact .inr (by omega)

/-- What was seen ahead holds the start of no placeholder. -/
theorem clear_move (h : Placed body placeholders) (hClear : Clear placeholders offset)
    (hNone : ∀ p ∈ placeholders, p.1 ≠ offset) (hText : body.drop offset = c :: t) {moved : Nat}
    (hPos : 0 < moved) (hMoved : moved ≤ 1 + (ahead t).length) :
    Clear placeholders (offset + moved) := by
  intro p hp
  rcases stop_le_or_lt hClear hNone p hp with hStop | hStart
  · exact .inl (by omega)
  · right
    by_contra hInside
    obtain ⟨i, hi⟩ : ∃ i : Nat, p.1 = ((offset + 1 + i : Nat) : Int) :=
      ⟨(p.1 - offset - 1).toNat, by omega⟩
    have hDollar := (h.opens p hp).2
    rw [hi, Int.toNat_natCast, ← List.getElem?_drop, Text.drop_succ hText] at hDollar
    exact ne_dollar_of_getElem?_ahead (by omega) hDollar

/-- The end of a placeholder is clear. -/
theorem clear_stop (h : Placed body placeholders) {p : Int × Int} (hp : p ∈ placeholders)
    {stop : Nat} (hStop : (stop : Int) = p.2) : Clear placeholders stop := by
  intro q hq
  rw [hStop]
  refine List.Pairwise.forall_of_forall_of_flip
    (R := fun p q : Int × Int => q.2 ≤ p.2 ∨ p.2 ≤ q.1) (fun p _ => .inl (Int.le_refl _))
    (h.ordered.imp fun hpq => .inr hpq) ?_ hp hq
  refine h.ordered.imp_of_mem fun {p q} hp' hq' hpq => .inl ?_
  have := h.nonempty q hq'
  omega

end Placed

/-! ## Two bodies -/

/-- The bodies have one length and the same characters outside the regions. -/
structure AgreeOutside (placeholders : List (Int × Int)) (body body' : Text) : Prop where
  length_eq : body.length = body'.length
  getElem?_eq : ∀ i < body.length, (∀ p ∈ placeholders, ¬ (p.1 ≤ i ∧ (i : Int) < p.2)) →
    body[i]? = body'[i]?

theorem AgreeOutside.length_drop_eq {placeholders : List (Int × Int)} {body body' : Text}
    (h : AgreeOutside placeholders body body') {offset : Nat} {t t' : Text}
    (hText : body.drop offset = t) (hText' : body'.drop offset = t') : t.length = t'.length := by
  rw [← hText, ← hText', List.length_drop, List.length_drop, h.length_eq]

namespace Placed

variable {body body' : Text} {placeholders : List (Int × Int)}

/-- At a clear offset at which no placeholder starts, the bodies agree. -/
theorem head_eq (hAgree : AgreeOutside placeholders body body') {offset : Nat}
    (hClear : Clear placeholders offset) (hNone : ∀ p ∈ placeholders, p.1 ≠ offset)
    {c c' : Char} {t t' : Text} (hText : body.drop offset = c :: t)
    (hText' : body'.drop offset = c' :: t') : c = c' := by
  have hGet := Text.getElem?_of_drop hText
  have hEq := hAgree.getElem?_eq offset (List.getElem?_eq_some_iff.mp hGet).1 fun p hp => by
    have := stop_le_or_lt hClear hNone p hp
    omega
  rw [hGet, Text.getElem?_of_drop hText'] at hEq
  exact Option.some.inj hEq

/-- From a clear offset on, the bodies show the same text ahead. -/
theorem ahead_eq (h : Placed body placeholders) (h' : Placed body' placeholders)
    (hAgree : AgreeOutside placeholders body body') {offset : Nat}
    (hClear : Clear placeholders offset) {t t' : Text} (hText : body.drop offset = t)
    (hText' : body'.drop offset = t') : ahead t = ahead t' := by
  induction t generalizing offset t' with
  | nil => rw [List.eq_nil_of_length_eq_zero (hAgree.length_drop_eq hText hText').symm]
  | cons c t ih =>
    obtain ⟨c', t', rfl⟩ :=
      List.exists_cons_of_length_eq_add_one (hAgree.length_drop_eq hText hText').symm
    by_cases hStart : ∃ p ∈ placeholders, p.1 = offset
    · obtain ⟨p, hp, hOffset⟩ := hStart
      have hDollar := (h.opens p hp).2
      have hDollar' := (h'.opens p hp).2
      rw [hOffset, Int.toNat_natCast, Text.getElem?_of_drop hText] at hDollar
      rw [hOffset, Int.toNat_natCast, Text.getElem?_of_drop hText'] at hDollar'
      rw [Option.some.inj hDollar, Option.some.inj hDollar', ahead_dollar, ahead_dollar]
    · have hNone : ∀ p ∈ placeholders, p.1 ≠ offset := fun p hp hOffset =>
        hStart ⟨p, hp, hOffset⟩
      obtain rfl := head_eq hAgree hClear hNone hText hText'
      by_cases hc : c = '$'
      · rw [hc, ahead_dollar, ahead_dollar]
      · rw [ahead_cons hc, ahead_cons hc]
        have hNext := h.clear_move hClear hNone hText Nat.one_pos (by omega)
        rw [ih hNext (Text.drop_succ hText) (Text.drop_succ hText')]

/-- The run over the rest of one body is the run over the rest of the other. -/
theorem runFrom_eq (h : Placed body placeholders) (h' : Placed body' placeholders)
    (hAgree : AgreeOutside placeholders body body') (m : Machine) {skip offset : Nat}
    (hClear : Clear placeholders (offset + skip)) {t t' : Text} (hText : body.drop offset = t)
    (hText' : body'.drop offset = t') :
    runFrom (regions placeholders) m skip offset t =
      runFrom (regions placeholders) m skip offset t' := by
  induction t generalizing m skip offset t' with
  | nil => rw [List.eq_nil_of_length_eq_zero (hAgree.length_drop_eq hText hText').symm]
  | cons c t ih =>
    obtain ⟨c', t', rfl⟩ :=
      List.exists_cons_of_length_eq_add_one (hAgree.length_drop_eq hText hText').symm
    have hRest := Text.drop_succ hText
    have hRest' := Text.drop_succ hText'
    cases skip with
    | succ skip =>
      simp only [runFrom]
      exact ih m (by rwa [Nat.add_right_comm]) hRest hRest'
    | zero =>
      rw [Nat.add_zero] at hClear
      simp only [runFrom]
      split
      · rename_i region hRegion
        have hMem := mem_of_mem_regions (List.mem_of_find?_eq_some hRegion)
        have hStart : region.start = offset := by
          simpa using List.find?_some hRegion
        have hExtent := h.nonempty _ hMem
        refine ih _ (h.clear_stop hMem ?_) hRest hRest'
        simp only at hExtent ⊢
        omega
      · rename_i hRegion
        have hNone := ne_of_find?_eq_none hRegion
        obtain rfl := head_eq hAgree hClear hNone hText hText'
        have hNext := h.clear_move hClear hNone hText Nat.one_pos (by omega)
        have hReact : m.react offset c t = m.react offset c t' := by
          rw [← Machine.react_ahead, h.ahead_eq h' hAgree hNext hRest hRest',
            Machine.react_ahead]
        have hPos := m.react_pos offset c t
        have hMove := h.clear_move hClear hNone hText hPos (m.react_le offset c t)
        rw [← hReact]
        refine ih _ ?_ hRest hRest'
        rwa [show offset + 1 + ((m.react offset c t).2 - 1) = offset + (m.react offset c t).2 by
          omega]

end Placed

/-- Two bodies that agree outside their placeholders have the same tags, the same bound placeholders
and the same last state. -/
theorem tokenize_eq_of_agree {body body' : Text} {placeholders : List (Int × Int)}
    (h : Placed body placeholders) (h' : Placed body' placeholders)
    (hAgree : AgreeOutside placeholders body body') :
    tokenize body placeholders = tokenize body' placeholders := by
  have hRun := h.runFrom_eq h' hAgree .start (show Clear placeholders (0 + 0) from h.clear_zero)
    rfl rfl
  simp only [List.drop_zero] at hRun
  simp only [tokenize, hRun]

/-- What would close the value, the tag and open another one is not read in a placeholder. -/
theorem tokenize_eq_of_agree_hidden_tag :
    let body : Text := "<A :x=\"${abcdef}\"/>"
    let body' : Text := r#"<A :x="${"/><B }"/>"#
    Placed body [(7, 16)] ∧ Placed body' [(7, 16)] ∧ AgreeOutside [(7, 16)] body body' ∧
      tokenize body [(7, 16)] = tokenize body' [(7, 16)] := by
  intro body body'
  have h : Placed body [(7, 16)] := ⟨by decide, by decide, by decide⟩
  have h' : Placed body' [(7, 16)] := ⟨by decide, by decide, by decide⟩
  have hAgree : AgreeOutside [(7, 16)] body body' := ⟨by decide, by decide⟩
  exact ⟨h, h', hAgree, tokenize_eq_of_agree h h' hAgree⟩

end Tokenizer

end TemplateCheck
