import Mathlib.Data.List.Basic
import TemplateCheck.Proofs.Source.Templates
import TemplateCheck.Service.Cursor

/-!
# The template at an offset

A template shows an offset when the offset stands in its literal and strictly inside none of its
holes (`TaggedTemplate.Shows`). The search for the template at an offset looks at one template only,
the last one that covers the offset (`foldl_innermost`). This is enough: of two templates that cover
an offset the later one lies in a hole of the earlier one, so that the offset is embedded code there
(`TaggedTemplate.Encloses.not_shows`).
-/

namespace TemplateCheck

/-- The offset stands in the literal of the template and strictly inside none of its holes. -/
def TaggedTemplate.Shows (template : TaggedTemplate) (offset : Int) : Prop :=
  (template.bodyStart : Int) ≤ offset ∧ offset < template.stop ∧
    ∀ span ∈ template.spans, ¬ ((span.start : Int) < offset ∧ offset < span.stop)

instance (template : TaggedTemplate) (offset : Int) : Decidable (template.Shows offset) :=
  inferInstanceAs (Decidable (_ ∧ _ ∧ ∀ span ∈ template.spans, ¬ (_ ∧ _)))

namespace TaggedTemplate

variable {template outer inner : TaggedTemplate} {offset : Int}

theorem covers_iff : template.covers offset = true ↔
    (template.bodyStart : Int) ≤ offset ∧ offset < template.stop := by
  rw [covers, Bool.and_eq_true, decide_eq_true_iff, decide_eq_true_iff]

theorem decide_shows (template : TaggedTemplate) (offset : Int) : decide (template.Shows offset) =
    (!template.spans.any (·.holds offset) && template.covers offset) := by
  rw [Bool.eq_iff_iff, decide_eq_true_iff, Shows, ← and_assoc, ← covers_iff, Bool.and_eq_true,
    Bool.not_eq_true', List.any_eq_false, and_comm]
  simp only [Span.holds, Bool.and_eq_true, decide_eq_true_eq]

/-- Where a template in one of its holes covers an offset, the outer template does not show it. -/
theorem Encloses.not_shows (h : outer.Encloses inner) (hCovers : inner.covers offset = true) :
    ¬ outer.Shows offset := by
  rintro ⟨-, -, hHoles⟩
  obtain ⟨span, hSpan, hLow, hHigh⟩ := h
  obtain ⟨hFrom, hTo⟩ := covers_iff.mp hCovers
  have hBody : inner.bodyStart = inner.start + 1 := rfl
  exact hHoles span hSpan ⟨by omega, by omega⟩

end TaggedTemplate

/-- Of templates by increasing start, the search for the innermost one keeps the last
that passes its test. -/
theorem foldl_innermost (test : TaggedTemplate → Bool) {ts : List TaggedTemplate}
    (h : ts.Pairwise fun t u => t.start < u.start) (found : Option TaggedTemplate)
    (hFound : ∀ best ∈ found, ∀ t ∈ ts, best.start < t.start) :
    ts.foldl (fun found t =>
        if test t && found.all (fun (best : TaggedTemplate) => best.start < t.start) then
          some t else found) found =
      (ts.filter test).getLast?.or found := by
  induction ts generalizing found with
  | nil => rfl
  | cons t ts ih =>
    obtain ⟨hFirst, hLater⟩ := List.pairwise_cons.mp h
    have hBest : found.all (fun (best : TaggedTemplate) => best.start < t.start) = true := by
      refine Option.all_eq_true _ _ |>.mpr fun best hMem => ?_
      exact decide_eq_true (hFound best hMem t List.mem_cons_self)
    rw [List.foldl_cons, hBest, Bool.and_true]
    cases hTest : test t with
    | true =>
      rw [if_pos rfl, List.filter_cons_of_pos hTest, ih hLater, List.getLast?_cons]
      · cases (ts.filter test).getLast? <;> rfl
      · rintro best ⟨⟩
        exact hFirst
    | false =>
      rw [if_neg Bool.false_ne_true,
        List.filter_cons_of_neg (by rw [hTest]; exact Bool.false_ne_true), ih hLater]
      exact fun best hMem u hu => hFound best hMem u (List.mem_cons_of_mem t hu)

theorem Arranged.not_shows {parent : Option Nat} {next low high : Nat} {ts : List TaggedTemplate}
    (h : Arranged parent next low high ts) {t u : TaggedTemplate} {offset : Int}
    (hOrder : [t, u].Sublist ts) (ht : t.covers offset = true) (hu : u.covers offset = true) :
    ¬ t.Shows offset := by
  rcases List.pairwise_pair.mp (h.laminar.sublist hOrder) with hApart | hEncloses
  · have hBefore := (TaggedTemplate.covers_iff.mp ht).2
    have hBehind := (TaggedTemplate.covers_iff.mp hu).1
    have hBody : u.bodyStart = u.start + 1 := rfl
    omega
  · exact hEncloses.not_shows hu

/-- For every source text and every offset, at most one marked template shows the offset, and it is
the template that is found there. -/
theorem SourceFile.templateAt?_exact (marker : WideText) (path text : Text) (offset : Int) :
    let file := SourceFile.read marker path text
    let shown := file.templates.filter fun template => template.Shows offset
    shown.length ≤ 1 ∧ file.templateAt? offset = shown.head? := by
  intro file shown
  have hArranged : Arranged none 0 0 text.length file.templates :=
    Code.arranged_templates marker text
  let covering := file.templates.filter (·.covers offset)
  have hShown : shown = covering.filter fun template => template.Shows offset := by
    rw [List.filter_filter]
    refine List.filter_congr fun template _ => ?_
    rw [TaggedTemplate.decide_shows, Bool.and_assoc, Bool.and_self]
  have hFound : file.templateAt? offset =
      covering.getLast?.filter fun template => !template.spans.any (·.holds offset) := by
    unfold SourceFile.templateAt?
    dsimp only
    rw [foldl_innermost (·.covers offset) hArranged.ordered none nofun, Option.or_none]
  rcases List.eq_nil_or_concat covering with hNone | ⟨earlier, last, hCovering⟩
  · rw [hFound, hShown, hNone]
    exact ⟨Nat.zero_le 1, rfl⟩
  · rw [List.concat_eq_append] at hCovering
    have hCovers : ∀ t ∈ earlier ++ [last], t.covers offset = true := by
      rw [← hCovering]
      exact fun t ht => (List.mem_filter.mp ht).2
    have hLast : last.covers offset = true :=
      hCovers last (List.mem_append_right _ List.mem_cons_self)
    have hEarlier : earlier.filter (fun template => template.Shows offset) = [] := by
      refine List.filter_eq_nil_iff.mpr fun t ht => ?_
      have hOrder : [t, last].Sublist file.templates := by
        refine .trans ?_ (List.filter_sublist (p := (·.covers offset)))
        show [t, last].Sublist covering
        rw [hCovering]
        exact (List.singleton_sublist.mpr ht).append (.refl [last])
      rw [decide_eq_true_iff]
      exact hArranged.not_shows hOrder (hCovers t (List.mem_append_left _ ht)) hLast
    rw [hFound, hShown, hCovering, List.filter_append, hEarlier, List.nil_append,
      List.getLast?_concat, Option.filter_some, List.filter_singleton, TaggedTemplate.decide_shows,
      hLast, Bool.and_true]
    cases last.spans.any (·.holds offset) with
    | true => exact ⟨Nat.zero_le 1, rfl⟩
    | false => exact ⟨Nat.le_refl 1, rfl⟩

end TemplateCheck
