import Mathlib.Tactic.Common
import TemplateCheck.Source.Template

/-!
# How marked templates lie in each other

The marked templates of a piece of code come in the order of their opening backticks, and any two
of them are disjoint or one lies in a hole of the other. `Arranged` collects these facts for the
templates of one stretch of code, with the parent that they have from outside it.

1. Two neighbouring stretches join (`Arranged.append`), and a marked literal closes over the
   templates in its holes (`Arranged.cons`).
2. Every template in a literal lies in one of its holes (`Literal.arranged_templatesFrom`).
3. Hence the templates of every tree of pieces are arranged (`Code.arranged_templatesFrom`).
-/

namespace TemplateCheck

/-! ## Enclosing -/

/-- The template lies in the hole. -/
def Span.Contains (span : Span) (template : TaggedTemplate) : Prop :=
  span.start ≤ template.start ∧ template.stop ≤ span.stop

namespace TaggedTemplate

/-- The inner template lies in one of the holes of the outer one. -/
def Encloses (outer inner : TaggedTemplate) : Prop :=
  ∃ span ∈ outer.spans, span.Contains inner

/-- One template ends before the other starts. -/
def Apart (a b : TaggedTemplate) : Prop := a.stop ≤ b.start ∨ b.stop ≤ a.start

/-- The template has an extent, and its holes lie after its backtick and not beyond its end. -/
structure Bounded (template : TaggedTemplate) : Prop where
  start_lt_stop : template.start < template.stop
  start_lt_span : ∀ span ∈ template.spans, template.start < span.start
  span_le_stop : ∀ span ∈ template.spans, span.stop ≤ template.stop

theorem Bounded.start_lt_of_encloses {outer inner : TaggedTemplate} (h : outer.Bounded)
    (hEncloses : outer.Encloses inner) : outer.start < inner.start := by
  obtain ⟨span, hSpan, hContains⟩ := hEncloses
  exact Nat.lt_of_lt_of_le (h.start_lt_span span hSpan) hContains.1

theorem Bounded.stop_le_of_encloses {outer inner : TaggedTemplate} (h : outer.Bounded)
    (hEncloses : outer.Encloses inner) : inner.stop ≤ outer.stop := by
  obtain ⟨span, hSpan, hContains⟩ := hEncloses
  exact Nat.le_trans hContains.2 (h.span_le_stop span hSpan)

theorem Bounded.not_encloses {a b : TaggedTemplate} (ha : a.Bounded) (hb : b.Bounded)
    (h : a.stop ≤ b.start) : ¬ a.Encloses b ∧ ¬ b.Encloses a := by
  constructor
  · intro hEncloses
    have h1 := ha.stop_le_of_encloses hEncloses
    have h2 := hb.start_lt_stop
    omega
  · intro hEncloses
    have h1 := hb.start_lt_of_encloses hEncloses
    have h2 := ha.start_lt_stop
    omega

end TaggedTemplate

/-! ## Arranged templates -/

/-- The templates of a stretch of code from `low` to `high`, numbered from `next` on; `parent` is
the innermost marked template around the stretch. -/
structure Arranged (parent : Option Nat) (next low high : Nat) (templates : List TaggedTemplate) :
    Prop where
  index_eq : templates.map (·.index) = List.range' next templates.length
  bounded : ∀ t ∈ templates, t.Bounded
  inside : ∀ t ∈ templates, low ≤ t.start ∧ t.stop ≤ high
  ordered : templates.Pairwise fun t u => t.start < u.start
  laminar : templates.Pairwise fun t u => t.stop ≤ u.start ∨ t.Encloses u
  parent_eq : ∀ t ∈ templates,
    (t.parent = parent ∧ ∀ u ∈ templates, ¬ u.Encloses t) ∨
    ∃ outer ∈ templates, t.parent = some outer.index ∧ outer.Encloses t ∧
      ∀ u ∈ templates, u.Encloses t → u = outer ∨ u.Encloses outer

namespace Arranged

variable {parent : Option Nat} {next low high : Nat} {ts us : List TaggedTemplate}

theorem nil (parent : Option Nat) (next low high : Nat) : Arranged parent next low high [] where
  index_eq := rfl
  bounded := by simp
  inside := by simp
  ordered := .nil
  laminar := .nil
  parent_eq := by simp

theorem mono (h : Arranged parent next low high ts) {low' high' : Nat} (hLow : low' ≤ low)
    (hHigh : high ≤ high') : Arranged parent next low' high' ts where
  index_eq := h.index_eq
  bounded := h.bounded
  inside t ht := ⟨Nat.le_trans hLow (h.inside t ht).1, Nat.le_trans (h.inside t ht).2 hHigh⟩
  ordered := h.ordered
  laminar := h.laminar
  parent_eq := h.parent_eq

/-- Templates of two neighbouring stretches stand apart, the earlier first. -/
theorem stop_le_start {middle next' : Nat} (h : Arranged parent next low middle ts)
    (h' : Arranged parent next' middle high us) {t u : TaggedTemplate} (ht : t ∈ ts)
    (hu : u ∈ us) : t.stop ≤ u.start :=
  Nat.le_trans (h.inside t ht).2 (h'.inside u hu).1

theorem append (middle : Nat) (h : Arranged parent next low middle ts)
    (h' : Arranged parent (next + ts.length) middle high us) (hLow : low ≤ middle)
    (hHigh : middle ≤ high) : Arranged parent next low high (ts ++ us) where
  index_eq := by
    rw [List.map_append, h.index_eq, h'.index_eq, List.length_append]
    exact List.range'_append_1
  bounded t ht := (List.mem_append.mp ht).elim (h.bounded t) (h'.bounded t)
  inside t ht := by
    rcases List.mem_append.mp ht with ht | ht
    · exact ⟨(h.inside t ht).1, Nat.le_trans (h.inside t ht).2 hHigh⟩
    · exact ⟨Nat.le_trans hLow (h'.inside t ht).1, (h'.inside t ht).2⟩
  ordered := by
    refine List.pairwise_append.mpr ⟨h.ordered, h'.ordered, fun t ht u hu => ?_⟩
    exact Nat.lt_of_lt_of_le (h.bounded t ht).start_lt_stop (h.stop_le_start h' ht hu)
  laminar := List.pairwise_append.mpr
    ⟨h.laminar, h'.laminar, fun t ht u hu => .inl (h.stop_le_start h' ht hu)⟩
  parent_eq t ht := by
    -- Nothing of one stretch encloses anything of the other, so each keeps its own parents.
    have hApart : ∀ a ∈ ts, ∀ b ∈ us, ¬ a.Encloses b ∧ ¬ b.Encloses a := fun a ha b hb =>
      (h.bounded a ha).not_encloses (h'.bounded b hb) (h.stop_le_start h' ha hb)
    rcases List.mem_append.mp ht with ht | ht
    · rcases h.parent_eq t ht with
        ⟨hParent, hNone⟩ | ⟨outer, hOuter, hParent, hEncloses, hInnermost⟩
      · refine .inl ⟨hParent, fun u hu => ?_⟩
        exact (List.mem_append.mp hu).elim (hNone u) fun hu => (hApart t ht u hu).2
      · refine .inr ⟨outer, List.mem_append_left _ hOuter, hParent, hEncloses, fun u hu hut => ?_⟩
        exact (List.mem_append.mp hu).elim (fun hu => hInnermost u hu hut)
          fun hu => absurd hut (hApart t ht u hu).2
    · rcases h'.parent_eq t ht with
        ⟨hParent, hNone⟩ | ⟨outer, hOuter, hParent, hEncloses, hInnermost⟩
      · refine .inl ⟨hParent, fun u hu => ?_⟩
        exact (List.mem_append.mp hu).elim (fun hu => (hApart u hu t ht).1) (hNone u)
      · refine .inr ⟨outer, List.mem_append_right _ hOuter, hParent, hEncloses, fun u hu hut => ?_⟩
        exact (List.mem_append.mp hu).elim (fun hu => absurd hut (hApart u hu t ht).1)
          fun hu => hInnermost u hu hut

/-- A marked literal becomes the parent of the templates in its holes that have none among
themselves. -/
theorem cons {outer : TaggedTemplate} (hIndex : outer.index = next)
    (hParent : outer.parent = parent) (hStart : outer.start = low) (hStop : outer.stop = high)
    (hBounded : outer.Bounded) (h : Arranged (some next) (next + 1) (low + 1) high ts)
    (hEncloses : ∀ t ∈ ts, outer.Encloses t) : Arranged parent next low high (outer :: ts) where
  index_eq := by simp [hIndex, h.index_eq, List.range'_succ]
  bounded := List.forall_mem_cons.mpr ⟨hBounded, h.bounded⟩
  inside := by
    refine List.forall_mem_cons.mpr ⟨⟨by omega, by omega⟩, fun t ht => ?_⟩
    exact ⟨Nat.le_of_succ_le (h.inside t ht).1, (h.inside t ht).2⟩
  ordered := List.pairwise_cons.mpr
    ⟨fun t ht => hBounded.start_lt_of_encloses (hEncloses t ht), h.ordered⟩
  laminar := List.pairwise_cons.mpr ⟨fun t ht => .inr (hEncloses t ht), h.laminar⟩
  parent_eq := by
    refine List.forall_mem_cons.mpr ⟨.inl ⟨hParent, ?_⟩, fun t ht => .inr ?_⟩
    · refine List.forall_mem_cons.mpr ⟨fun hSelf => ?_, fun u hu hEnclosed => ?_⟩
      · exact Nat.lt_irrefl _ (hBounded.start_lt_of_encloses hSelf)
      · have h1 := (h.bounded u hu).start_lt_of_encloses hEnclosed
        have h2 := hBounded.start_lt_of_encloses (hEncloses u hu)
        omega
    · rcases h.parent_eq t ht with ⟨hNext, hNone⟩ | ⟨inner, hInner, hNext, hEnclosed, hInnermost⟩
      · refine ⟨outer, List.mem_cons_self, by rw [hNext, hIndex], hEncloses t ht, ?_⟩
        exact List.forall_mem_cons.mpr ⟨fun _ => .inl rfl, fun u hu hut => absurd hut (hNone u hu)⟩
      · refine ⟨inner, List.mem_cons_of_mem _ hInner, hNext, hEnclosed, ?_⟩
        exact List.forall_mem_cons.mpr ⟨fun _ => .inr (hEncloses inner hInner), hInnermost⟩

end Arranged

/-! ## The holes of a literal -/

@[simp] theorem Literal.body_hole (code : Code) (rest : Literal) :
    (Literal.hole code rest).body = '$' :: '{' :: (code.source ++ '}' :: rest.body) :=
  congrArg ('$' :: '{' :: ·) (code.sourceBefore_eq ('}' :: rest.body))

section

variable (offset : Nat) (c : Char) (code : Code) (rest : Literal)

/-! Where the body of a literal ends, from the end of its first piece on. -/

theorem Literal.add_length_body_char :
    offset + (Literal.char c rest).body.length = offset + 1 + rest.body.length := by
  simp only [Literal.body, List.length_cons]
  omega

theorem Literal.add_length_body_escape :
    offset + (Literal.escape c rest).body.length = offset + 2 + rest.body.length := by
  simp only [Literal.body, List.length_cons]
  omega

theorem Literal.add_length_body_hole :
    offset + (Literal.hole code rest).body.length =
      offset + 2 + code.source.length + 1 + rest.body.length := by
  simp only [Literal.body_hole, List.length_cons, List.length_append]
  omega

theorem Literal.add_length_body_cutHole :
    offset + (Literal.cutHole code).body.length = offset + 2 + code.source.length := by
  simp only [Literal.body, List.length_cons]
  omega

end

/-- The closing backtick of a literal, nothing where it is missing. -/
def Literal.closing : Literal → Text
  | .cut => []
  | .close => ['`']
  | .char _ rest => rest.closing
  | .escape _ rest => rest.closing
  | .hole _ rest => rest.closing
  | .cutHole _ => []

theorem Literal.source_eq_body (body : Literal) : body.source = body.body ++ body.closing := by
  cases body with
  | cut => rfl
  | close => rfl
  | char _ rest => simp [Literal.body, Literal.closing, rest.source_eq_body]
  | escape _ rest => simp [Literal.body, Literal.closing, rest.source_eq_body]
  | hole _ rest => simp [Literal.closing, rest.source_eq_body]
  | cutHole _ => simp [Literal.body, Literal.closing]

theorem Literal.length_body_le (body : Literal) : body.body.length ≤ body.source.length := by
  rw [body.source_eq_body, List.length_append]
  omega

theorem Literal.span_bounds : (body : Literal) → ∀ offset, ∀ span ∈ body.spans offset,
    offset ≤ span.start ∧ span.start + 2 ≤ span.stop ∧ span.stop ≤ offset + body.body.length
  | .cut, _, _, h => by simp [Literal.spans] at h
  | .close, _, _, h => by simp [Literal.spans] at h
  | .char _ rest, offset, span, h => by
    have := rest.span_bounds (offset + 1) span h
    rw [Literal.add_length_body_char]
    omega
  | .escape _ rest, offset, span, h => by
    have := rest.span_bounds (offset + 2) span h
    rw [Literal.add_length_body_escape]
    omega
  | .hole code rest, offset, span, h => by
    rw [Literal.add_length_body_hole]
    rcases List.mem_cons.mp h with rfl | h
    · simp only [Span.ofCode]
      omega
    · have := rest.span_bounds _ span h
      omega
  | .cutHole code, offset, span, h => by
    rw [Literal.add_length_body_cutHole]
    obtain rfl := List.mem_singleton.mp h
    simp only [Span.ofCode]
    omega

theorem Literal.spans_ordered : (body : Literal) → ∀ offset,
    (body.spans offset).Pairwise fun a b => a.stop ≤ b.start
  | .cut, _ => .nil
  | .close, _ => .nil
  | .char _ rest, offset => rest.spans_ordered (offset + 1)
  | .escape _ rest, offset => rest.spans_ordered (offset + 2)
  | .hole _ rest, _ =>
    .cons (fun span h => (rest.span_bounds _ span h).1) (rest.spans_ordered _)
  | .cutHole _, _ => List.pairwise_singleton _ _

/-! ## All templates -/

mutual

/-- The marked templates of a piece of code are arranged. -/
theorem Code.arranged_templatesFrom (marker : WideText) : (code : Code) →
    ∀ before offset parent next, Arranged parent next offset (offset + code.source.length)
      (code.templatesFrom marker before offset parent next)
  | .done, _, _, _, _ => .nil _ _ _ _
  | .mark c rest, before, offset, parent, next => by
    have h := rest.arranged_templatesFrom marker (c :: before) (offset + 1) parent next
    exact h.mono (by omega) (by simp only [Code.source_mark, List.length_cons]; omega)
  | .word name rest, before, offset, parent, next => by
    have h := rest.arranged_templatesFrom marker (name.reverse ++ before) (offset + name.length)
      parent next
    exact h.mono (by omega) (by simp only [Code.source_word, List.length_append]; omega)
  | .comment text rest, before, offset, parent, next => by
    have h := rest.arranged_templatesFrom marker (text.reverse ++ before) (offset + text.length)
      parent next
    exact h.mono (by omega) (by simp only [Code.source_comment, List.length_append]; omega)
  | .quoted text rest, before, offset, parent, next => by
    have h := rest.arranged_templatesFrom marker (text.reverse ++ before) (offset + text.length)
      parent next
    exact h.mono (by omega) (by simp only [Code.source_quoted, List.length_append]; omega)
  | .regex text rest, before, offset, parent, next => by
    have h := rest.arranged_templatesFrom marker (text.reverse ++ before) (offset + text.length)
      parent next
    exact h.mono (by omega) (by simp only [Code.source_regex, List.length_append]; omega)
  | .literal body rest, before, offset, parent, next => by
    have hRest := rest.arranged_templatesFrom marker (body.source.reverseAux ('`' :: before))
      (offset + 1 + body.source.length) parent
    simp only [Code.source_literal, List.length_cons, List.length_append]
    rw [Code.templatesFrom]
    refine Arranged.append (offset + 1 + body.source.length) ?_
      ((hRest _).mono (Nat.le_refl _) (by omega)) (by omega) (by omega)
    split_ifs with hMarked
    · obtain ⟨hInner, hContained⟩ := body.arranged_templatesFrom marker ('`' :: before)
        (offset + 1) (some next) (next + 1)
      refine Arranged.cons rfl rfl rfl rfl ⟨?_, fun span hSpan => ?_, fun span hSpan => ?_⟩ hInner
        hContained
      · simp only
        omega
      · exact (body.span_bounds _ span hSpan).1
      · have h1 := (body.span_bounds _ span hSpan).2.2
        have h2 := body.length_body_le
        simp only
        omega
    · exact (body.arranged_templatesFrom marker ('`' :: before) (offset + 1) parent next).1.mono
        (by omega) (Nat.le_refl _)

theorem Literal.arranged_templatesFrom (marker : WideText) : (body : Literal) →
    ∀ before offset parent next, Arranged parent next offset (offset + body.source.length)
      (body.templatesFrom marker before offset parent next) ∧
    ∀ t ∈ body.templatesFrom marker before offset parent next,
      ∃ span ∈ body.spans offset, span.Contains t
  | .cut, _, _, _, _ => ⟨.nil _ _ _ _, by simp [Literal.templatesFrom]⟩
  | .close, _, _, _, _ => ⟨.nil _ _ _ _, by simp [Literal.templatesFrom]⟩
  | .char c rest, before, offset, parent, next => by
    obtain ⟨h, hContained⟩ := rest.arranged_templatesFrom marker (c :: before) (offset + 1) parent
      next
    exact ⟨h.mono (by omega) (by simp only [Literal.source_char, List.length_cons]; omega),
      hContained⟩
  | .escape c rest, before, offset, parent, next => by
    obtain ⟨h, hContained⟩ := rest.arranged_templatesFrom marker (c :: '\\' :: before) (offset + 2)
      parent next
    exact ⟨h.mono (by omega) (by simp only [Literal.source_escape, List.length_cons]; omega),
      hContained⟩
  | .hole code rest, before, offset, parent, next => by
    have hCode := code.arranged_templatesFrom marker ('{' :: '$' :: before) (offset + 2) parent next
    obtain ⟨hRest, hContained⟩ := rest.arranged_templatesFrom marker
      ('}' :: code.source.reverseAux ('{' :: '$' :: before))
      (offset + 2 + code.source.length + 1) parent
      (next + (code.templatesFrom marker ('{' :: '$' :: before) (offset + 2) parent next).length)
    simp only [Literal.source_hole, List.length_cons, List.length_append]
    rw [Literal.templatesFrom]
    constructor
    · refine Arranged.append (offset + 2 + code.source.length + 1)
        (hCode.mono (by omega) (by omega)) (hRest.mono (Nat.le_refl _) (by omega)) (by omega)
        (by omega)
    · intro t ht
      rcases List.mem_append.mp ht with ht | ht
      · have := hCode.inside t ht
        refine ⟨_, List.mem_cons_self, ?_⟩
        simp only [Span.Contains, Span.ofCode]
        omega
      · obtain ⟨span, hSpan, hIn⟩ := hContained t ht
        exact ⟨span, List.mem_cons_of_mem _ hSpan, hIn⟩
  | .cutHole code, before, offset, parent, next => by
    have hCode := code.arranged_templatesFrom marker ('{' :: '$' :: before) (offset + 2) parent next
    simp only [Literal.source_cutHole, List.length_cons]
    refine ⟨hCode.mono (by omega) (by omega), fun t ht => ?_⟩
    have := hCode.inside t ht
    refine ⟨_, List.mem_cons_self, ?_⟩
    simp only [Span.Contains, Span.ofCode]
    omega

end

end TemplateCheck
