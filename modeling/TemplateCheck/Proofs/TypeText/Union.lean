import TemplateCheck.Proofs.Text.BracketKind
import TemplateCheck.Proofs.TypeText.Comparison
import TemplateCheck.Proofs.TypeText.Shape

/-!
# Unions on the right

A type goes with a union if it goes with a member of it, and which types go with a union depends on
its members alone, not on their order. Both hold at each depth, although a member is compared one
level deeper than the union that it stands in: following types further never helps them to go
together, and a member of a union always goes with the union (`assignableUpTo_of_within`).

The text of a union is its members with bars between them. It is read back as that if its members
are normal and close their brackets, parentheses and others apart (`Operand`).
-/

namespace TemplateCheck

namespace TypeText

open Text

/-! ## Members -/

section

variable (program : Program) (depth : Nat) (s t : Text) (file file' : Option Text)

theorem assignableUpTo_stripParens_left :
    assignableUpTo program depth ⟨stripParens s, file⟩ ⟨t, file'⟩ =
      assignableUpTo program depth ⟨s, file⟩ ⟨t, file'⟩ := by
  cases depth with
  | zero => rfl
  | succ depth => rw [assignableUpTo_succ, assignableUpTo_succ, stripParens_stripParens]

theorem assignableUpTo_stripParens_right :
    assignableUpTo program depth ⟨s, file⟩ ⟨stripParens t, file'⟩ =
      assignableUpTo program depth ⟨s, file⟩ ⟨t, file'⟩ := by
  cases depth with
  | zero => rfl
  | succ depth => rw [assignableUpTo_succ, assignableUpTo_succ, stripParens_stripParens]

end

/-- The first type is the second one or, at any depth, a member of a union in it. -/
inductive Within (s : Text) : Text → Prop
  | same {t : Text} (h : stripParens s = stripParens t) : Within s t
  | member {t part : Text} (hUnion : IsUnion (stripParens t))
      (hPart : part ∈ unionParts (stripParens t)) (h : Within s part) : Within s t

namespace Within

variable {s t : Text}

theorem part (h : Within s t) (hUnion : IsUnion (stripParens s)) {part : Text}
    (hPart : part ∈ unionParts (stripParens s)) : Within part t := by
  induction h with
  | same h =>
    rw [h] at hUnion hPart
    exact .member hUnion hPart (.same rfl)
  | member hOuter hMember _ ih => exact .member hOuter hMember ih

theorem left (h : Within s t) : Within (stripParens s) t := by
  induction h with
  | same h => exact .same ((stripParens_stripParens s).trans h)
  | member hUnion hPart _ ih => exact .member hUnion hPart ih

theorem right (h : Within s t) : Within s (stripParens t) := by
  cases h with
  | same h => exact .same (h.trans (stripParens_stripParens t).symm)
  | member hUnion hPart h =>
    rw [← stripParens_stripParens t] at hUnion hPart
    exact .member hUnion hPart h

end Within

section

variable {program : Program} {depth : Nat} {s t : Text} {file file' : Option Text}

/-- A type goes with what it is within. -/
theorem assignableUpTo_of_within (h : Within s t) :
    assignableUpTo program depth ⟨s, file⟩ ⟨t, file'⟩ = true := by
  induction depth generalizing s t with
  | zero => rfl
  | succ depth ih =>
    by_cases hAtOnce : GoAtOnce (stripParens s) (stripParens t)
    · exact assignableUpTo_of_goAtOnce _ _ _ _ hAtOnce
    by_cases hSource : IsUnion (stripParens s)
    · rw [assignableUpTo_union_left _ _ _ _ hAtOnce hSource]
      intro part hPart
      exact ih (h.part hSource hPart).right
    · cases h with
      | same hSame => exact absurd (.inl hSame) hAtOnce
      | member hUnion hPart h =>
        rw [assignableUpTo_union_right _ _ _ _ hAtOnce hSource hUnion]
        exact ⟨_, hPart, ih h.left⟩

/-- A union that has no parentheses around it. -/
structure PlainUnion (t : Text) : Prop where
  isUnion : IsUnion t
  stripParens_eq : stripParens t = t

theorem PlainUnion.not_top (h : PlainUnion t) : t ∉ topTypes := by
  intro hMem
  have hUnion := h.isUnion
  rcases List.mem_pair.mp hMem with rfl | rfl
  · exact absurd hUnion (by decide)
  · exact absurd hUnion (by decide)

/-- A type that goes with a member of a union goes with the union. -/
theorem assignableUpTo_of_member (ht : PlainUnion t) {part : Text} (hPart : part ∈ unionParts t)
    (h : assignableUpTo program depth ⟨s, file⟩ ⟨part, file'⟩ = true) :
    assignableUpTo program depth ⟨s, file⟩ ⟨t, file'⟩ = true := by
  induction depth generalizing s with
  | zero => rfl
  | succ depth ih =>
    by_cases hAtOnce : GoAtOnce (stripParens s) (stripParens t)
    · exact assignableUpTo_of_goAtOnce _ _ _ _ hAtOnce
    by_cases hSource : IsUnion (stripParens s)
    · rw [assignableUpTo_union_left _ _ _ _ hAtOnce hSource, ht.stripParens_eq]
      intro inner hInner
      apply ih
      by_cases hPartAtOnce : GoAtOnce (stripParens s) (stripParens part)
      · rcases hPartAtOnce with hSame | hTop | hTop | hNever
        · exact assignableUpTo_of_within ((Within.same hSame).part hSource hInner)
        · exact assignableUpTo_of_goAtOnce _ _ _ _ (.inr (.inl hTop))
        · exact absurd (.inr (.inr (.inl hTop))) hAtOnce
        · exact absurd (.inr (.inr (.inr hNever))) hAtOnce
      · rw [← assignableUpTo_stripParens_right]
        exact (assignableUpTo_union_left _ _ _ _ hPartAtOnce hSource).mp h inner hInner
    · rw [assignableUpTo_union_right _ _ _ _ hAtOnce hSource
        (by rw [ht.stripParens_eq]; exact ht.isUnion), ht.stripParens_eq]
      refine ⟨part, hPart, ?_⟩
      rw [assignableUpTo_stripParens_left]
      exact assignableUpTo_of_succ h

theorem assignableUpTo_of_subset {u : Text} (ht : PlainUnion t) (hu : PlainUnion u)
    (hSubset : unionParts t ⊆ unionParts u)
    (h : assignableUpTo program depth ⟨s, file⟩ ⟨t, file'⟩ = true) :
    assignableUpTo program depth ⟨s, file⟩ ⟨u, file'⟩ = true := by
  induction depth generalizing s with
  | zero => rfl
  | succ depth ih =>
    by_cases hAtOnce : GoAtOnce (stripParens s) (stripParens u)
    · exact assignableUpTo_of_goAtOnce _ _ _ _ hAtOnce
    by_cases hFirstAtOnce : GoAtOnce (stripParens s) (stripParens t)
    · -- The types are equal, and the members of the first union are members of the second.
      rw [ht.stripParens_eq] at hFirstAtOnce
      rcases hFirstAtOnce with hSame | hTop | hTop | hNever
      · have hSource : IsUnion (stripParens s) := by
          rw [hSame]
          exact ht.isUnion
        rw [assignableUpTo_union_left _ _ _ _ hAtOnce hSource, hu.stripParens_eq, hSame]
        intro part hPart
        exact assignableUpTo_of_member hu (hSubset hPart) (assignableUpTo_of_within (.same rfl))
      · exact absurd hTop ht.not_top
      · exact absurd (.inr (.inr (.inl hTop))) hAtOnce
      · exact absurd (.inr (.inr (.inr hNever))) hAtOnce
    by_cases hSource : IsUnion (stripParens s)
    · rw [assignableUpTo_union_left _ _ _ _ hFirstAtOnce hSource, ht.stripParens_eq] at h
      rw [assignableUpTo_union_left _ _ _ _ hAtOnce hSource, hu.stripParens_eq]
      intro part hPart
      exact ih (h part hPart)
    · rw [assignableUpTo_union_right _ _ _ _ hFirstAtOnce hSource
        (by rw [ht.stripParens_eq]; exact ht.isUnion), ht.stripParens_eq] at h
      rw [assignableUpTo_union_right _ _ _ _ hAtOnce hSource
        (by rw [hu.stripParens_eq]; exact hu.isUnion), hu.stripParens_eq]
      obtain ⟨part, hPart, hGoes⟩ := h
      exact ⟨part, hSubset hPart, hGoes⟩

end

/-! ## Texts of unions -/

/-- The text of the union of two types. -/
def unionText (t u : Text) : Text := t ++ " | " ++ u

/-- A type text that can be put beside another one in a union. -/
structure Operand (t : Text) : Prop where
  ne_nil : t ≠ []
  normal : normalize t = t
  last_ne : t.getLast? ≠ some '|'
  parens : ClosesKind isParenthesis t
  others : ClosesKind isOther t

theorem unionText_eq (t u : Text) : unionText t u = t ++ [' '] ++ '|' :: ([' '] ++ u) := by
  unfold unionText
  simp

theorem head?_unionText {t : Text} (ht : t ≠ []) (u : Text) : (unionText t u).head? = t.head? := by
  unfold unionText
  rw [List.append_assoc, List.head?_append_of_ne_nil t ht]

theorem getLast?_unionText (t : Text) {u : Text} (hu : u ≠ []) :
    (unionText t u).getLast? = u.getLast? := by
  unfold unionText
  rw [List.getLast?_append_of_ne_nil _ hu]

namespace Operand

variable {t u : Text} (ht : Operand t) (hu : Operand u)

section

include ht

theorem trimmed : t.Trimmed := (of_normalize_eq_self ht.normal).2.1

theorem head_ne : t.head? ≠ some '|' := (of_normalize_eq_self ht.normal).2.2.2

theorem unionParts_eq_or : unionParts t = [t] ∨ IsUnion t :=
  topLevelParts_eq_or ht.trimmed ht.ne_nil ht.head_ne ht.last_ne

theorem length_unionParts_pos : 0 < (unionParts t).length := by
  rcases ht.unionParts_eq_or with hSingle | hUnion
  · rw [hSingle]
    exact Nat.one_pos
  · exact Nat.lt_of_succ_lt hUnion

/-- The parentheses around a type leave no bar to be found between its members. -/
theorem plainUnion (hUnion : IsUnion t) : PlainUnion t := by
  refine ⟨hUnion, stripParens_of_not ht.trimmed (Bool.eq_false_iff.mpr fun hParens => ?_)⟩
  have hUncut : Uncut (· = '|') none 0 t :=
    uncut_of_isParenthesized (by decide) (by decide) hParens ht.others
  have hSingle : unionParts t = [t] := topLevelParts_of_uncut hUncut ht.trimmed ht.ne_nil
  unfold IsUnion at hUnion
  rw [hSingle] at hUnion
  exact absurd hUnion (Nat.lt_irrefl 1)

theorem unionParts_unionText (u : Text) :
    unionParts (unionText t u) = unionParts t ++ unionParts u := by
  have hBlank : ∀ c ∈ [' '], isBlank c = true := by decide
  unfold unionParts
  rw [unionText_eq]
  exact topLevelParts_append rfl (by decide) (by decide) hBlank hBlank
    (depthFrom_of_closes ht.parens ht.others) u

end

include ht hu

theorem trimmed_unionText : (unionText t u).Trimmed where
  head := by
    rw [head?_unionText ht.ne_nil]
    exact ht.trimmed.head
  last := by
    rw [getLast?_unionText t hu.ne_nil]
    exact hu.trimmed.last

theorem normalize_unionText : normalize (unionText t u) = unionText t u := by
  obtain ⟨hCollapse, hTrimmed, -⟩ := of_normalize_eq_self ht.normal
  obtain ⟨hCollapse', hTrimmed', hLast, -⟩ := of_normalize_eq_self hu.normal
  refine normalize_eq_of_collapse ?_ (trimmed_unionText ht hu) ?_ ?_
  · have hPending : pendingAfter false t = false := by
      unfold pendingAfter
      cases hEnd : t.getLast? with
      | none => rfl
      | some c => exact hTrimmed.last c hEnd
    have hSecond : collapseFrom true u = collapseFrom false u := by
      cases u with
      | nil => rfl
      | cons c u => rw [collapseFrom, collapseFrom, hTrimmed'.head c rfl]; rfl
    have hBar : collapseFrom false (" | ".toList ++ u) = " | ".toList ++ collapseFrom true u := rfl
    unfold collapse at hCollapse hCollapse' ⊢
    unfold unionText
    rw [List.append_assoc, collapseFrom_append, hPending, hCollapse, hBar, hSecond, hCollapse']
  · rwa [getLast?_unionText t hu.ne_nil]
  · rw [head?_unionText ht.ne_nil]
    exact ht.head_ne

theorem plainUnion_unionText : PlainUnion (unionText t u) where
  isUnion := by
    have hFirst := ht.length_unionParts_pos
    have hSecond := hu.length_unionParts_pos
    unfold IsUnion
    rw [ht.unionParts_unionText, List.length_append]
    omega
  stripParens_eq := by
    refine stripParens_of_not (trimmed_unionText ht hu) ?_
    unfold unionText
    rw [List.append_assoc]
    exact isParenthesized_append ht.ne_nil ht.parens
      (List.append_ne_nil_of_left_ne_nil (by decide) u)

omit hu in
theorem assignableUpTo_union {union : Text} (hUnion : PlainUnion union)
    (hSubset : unionParts t ⊆ unionParts union) {program : Program} {depth : Nat} {s : Text}
    {file file' : Option Text} (h : assignableUpTo program depth ⟨s, file⟩ ⟨t, file'⟩ = true) :
    assignableUpTo program depth ⟨s, file⟩ ⟨union, file'⟩ = true := by
  rcases ht.unionParts_eq_or with hSingle | hSplit
  · rw [hSingle] at hSubset
    exact assignableUpTo_of_member hUnion (hSubset List.mem_cons_self) h
  · exact assignableUpTo_of_subset (ht.plainUnion hSplit) hUnion hSubset h

end Operand

/-- A type that goes with another one goes with the unions of it and a third one, and whether it
goes with a union does not depend on the order of the two. -/
theorem isAssignable_union {t u : Text} (ht : Operand t) (hu : Operand u) (program : Program)
    (source : TypeRef) (file : Option Text) :
    (isAssignable program source ⟨t, file⟩ = true →
      isAssignable program source ⟨unionText t u, file⟩ = true ∧
        isAssignable program source ⟨unionText u t, file⟩ = true) ∧
    isAssignable program source ⟨unionText t u, file⟩ =
      isAssignable program source ⟨unionText u t, file⟩ := by
  have hFirst := Operand.plainUnion_unionText ht hu
  have hSecond := Operand.plainUnion_unionText hu ht
  have hParts := ht.unionParts_unionText u
  have hParts' := hu.unionParts_unionText t
  unfold isAssignable
  dsimp only
  rw [ht.normal, Operand.normalize_unionText ht hu, Operand.normalize_unionText hu ht]
  refine ⟨fun h => ⟨?_, ?_⟩, Bool.eq_iff_iff.mpr ⟨fun h => ?_, fun h => ?_⟩⟩
  · apply ht.assignableUpTo_union hFirst _ h
    rw [hParts]
    exact List.subset_append_left _ _
  · apply ht.assignableUpTo_union hSecond _ h
    rw [hParts']
    exact List.subset_append_right _ _
  · apply assignableUpTo_of_subset hFirst hSecond _ h
    rw [hParts, hParts']
    exact List.append_subset.mpr ⟨List.subset_append_right _ _, List.subset_append_left _ _⟩
  · apply assignableUpTo_of_subset hSecond hFirst _ h
    rw [hParts, hParts']
    exact List.append_subset.mpr ⟨List.subset_append_right _ _, List.subset_append_left _ _⟩

theorem isAssignable_union_alias :
    let program : Program := .ofFiles {} [("a.ts", "type Size = 'sm' | 'lg';")]
    let t : Text := "(value: Size) => void | number"
    let u : Text := "Size | boolean"
    let source : TypeRef := ⟨"'lg'", some "a.ts"⟩
    let goes (target : Text) : Bool := isAssignable program source ⟨target, some "a.ts"⟩
    Operand t ∧ Operand u ∧ goes t = false ∧ goes u = true ∧ goes (unionText u t) = true ∧
      goes (unionText t u) = true := by
  intro program t u source goes
  have hFirst : Operand t := ⟨by decide, by decide, by decide, by decide, by decide⟩
  have hSecond : Operand u := ⟨by decide, by decide, by decide, by decide, by decide⟩
  have hGoes : goes u = true := by decide +kernel
  have hNot : goes t = false := by decide +kernel
  obtain ⟨hUnions, -⟩ := isAssignable_union hSecond hFirst program source (some "a.ts")
  exact ⟨hFirst, hSecond, hNot, hGoes, (hUnions hGoes).1, (hUnions hGoes).2⟩

/-- One count of all brackets does not do, whether it is the parentheses or the others that it makes
up for. The parentheses at the two ends of the first union are taken for a pair. The second type is
cut between its parentheses only where they are not taken off. -/
theorem isAssignable_union_one_count :
    let program : Program := .ofFiles {} [("a.ts", [])]
    let t : Text := "(new () => '(' | '>')"
    let u : Text := "('<' | ')')"
    let v : Text := "(a] => b | new [ c)"
    let goes (target : Text) : Bool :=
      isAssignable program ⟨"string", some "a.ts"⟩ ⟨target, some "a.ts"⟩
    (∀ type ∈ [t, u, v], type ≠ [] ∧ normalize type = type ∧ type.getLast? ≠ some '|' ∧
      ClosesKind (fun _ => true) type) ∧
      goes t = true ∧ goes (unionText t u) = false ∧ goes (unionText u t) = true ∧
      ClosesKind isParenthesis v ∧ goes v = true ∧ goes (unionText v "number") = false := by
  decide +kernel

end TypeText

end TemplateCheck
