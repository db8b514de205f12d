import TemplateCheck.Proofs.OrderedMap
import TemplateCheck.Proofs.Pattern.Preference
import TemplateCheck.Proofs.Text.Blank
import TemplateCheck.Proofs.Text.Occurrence
import TemplateCheck.Source.TypeDeclaration

/-!
# Interfaces of a source text

A source text with interfaces is made of their declarations and of gaps, in which no heading of
another one is read (`NoHeading`, `IsOutline`). A declaration is a heading, that is the word
`interface`, the name, perhaps type parameters and perhaps a clause that says what is extended
(`IsHeading`), and a body in braces. Headings and braces are found in the mask of the source, and
the bodies in the source itself.

All interfaces are read, in order (`IsOutline.map_readAll`). A heading is read in one way
(`IsHeading.exists_run`). A reading may begin in the gap before it, at a modifier, but it reads the
heading all the same (`run_of_gap`), and none goes through a text without a heading
(`NoHeading.readAllFrom_eq`). So a name stands for the first interface that has it
(`IsOutline.get?_readAll`).
-/

namespace TemplateCheck

namespace TypeDeclaration

open Text

/-! ## Declarations as they are written -/

/-- An interface as it is written. -/
structure InterfaceText where
  name : Text
  /-- What stands behind the word `extends`, if that word does. -/
  clause : Option Text
  /-- What stands in the braces. -/
  body : Text

/-- The type for which the name of an interface stands. -/
def InterfaceText.type (interface : InterfaceText) : Text :=
  join " & " (topLevelParts [','] (interface.clause.getD []) ++ ['{' :: (interface.body ++ ['}'])])

/-- Behind no angle bracket that closes stands the word `extends`, as it does in a
conditional type. -/
def NoExtension (t : Text) : Prop :=
  ∀ left blanks right, (∀ c ∈ blanks, isBlank c = true) →
    t ≠ left ++ '>' :: (blanks ++ ("extends".toList ++ right))

/-- What stands behind the name of an interface: blanks, with type parameters among them
or without. -/
inductive IsTail : Text → Prop
  | blanks {t : Text} (isBlank_t : ∀ c ∈ t, isBlank c = true) : IsTail t
  | parameters {before inside after : Text} (isBlank_before : ∀ c ∈ before, isBlank c = true)
      (no_brace : '{' ∉ inside) (noExtension : NoExtension inside)
      (isBlank_after : ∀ c ∈ after, isBlank c = true) :
      IsTail (before ++ '<' :: (inside ++ '>' :: after))

/-- The text of a clause. -/
structure IsClause (t : Text) : Prop where
  ne_nil : t ≠ []
  trimmed : t.Trimmed
  no_brace : '{' ∉ t

/-- The text of an interface before the brace that opens its body. -/
inductive IsHeading (name : Text) : Option Text → Text → Prop
  | alone {gap tail : Text} (isGap : Pattern.IsGap gap) (isTail : IsTail tail) :
      IsHeading name none ("interface".toList ++ (gap ++ (name ++ tail)))
  | extending {gap tail gap' clause blanks : Text} (isGap : Pattern.IsGap gap)
      (isTail : IsTail tail) (tail_ne_nil : tail ≠ []) (isGap' : Pattern.IsGap gap')
      (isClause : IsClause clause) (isBlank_blanks : ∀ c ∈ blanks, isBlank c = true) :
      IsHeading name (some clause) ("interface".toList ++ (gap ++ (name ++ (tail ++
        ("extends".toList ++ (gap' ++ (clause ++ blanks)))))))

/-- A text in which every brace is closed that is opened, and no other. -/
inductive IsNested : Text → Prop
  | nil : IsNested []
  | char {c : Char} {t : Text} (no_brace : c ∉ ['{', '}']) (later : IsNested t) : IsNested (c :: t)
  | group {inside t : Text} (inner : IsNested inside) (later : IsNested t) :
      IsNested ('{' :: (inside ++ '}' :: t))

open Pattern in
/-- An interface up to its opening brace, behind its modifiers. -/
def heading : Pattern Part :=
  all [lit "interface", blanks1, capture .name identifier, blanks,
    opt (all [lit ['<'], spanLazy (noneOf ['{']), lit ['>'], blanks]),
    opt (all [lit "extends", blanks1, capture .bases (spanLazy1 (noneOf ['{'])), blanks]),
    lit ['{']]

/-- Wherever a word can begin in the text, behind `previous` and in front of `rest`, no
heading is read. -/
def NoHeading (previous : Option Char) (t rest : Text) : Prop :=
  ∀ before c after, t = before ++ c :: after →
    Pattern.inWord (before.getLast?.or previous) = false →
    heading.Rejects (c :: (after ++ rest))

/-- The mask and the text of a source in which interfaces stand, in order, between gaps. No heading
begins in a gap or in a body. -/
inductive IsOutline : List InterfaceText → (mask text : Text) → Prop
  | gap {mask : Text} (noHeading : NoHeading none mask []) (text : Text) : IsOutline [] mask text
  | cons (interface : InterfaceText) {interfaces : List InterfaceText}
      {gap gapText heading headingText body mask text : Text}
      (isIdentifier : interface.name.isIdentifier = true)
      (noHeading_gap : NoHeading none gap (heading ++ '{' :: (body ++ '}' :: mask)))
      (edge : Pattern.inWord gap.getLast? = false) (gap_length : gapText.length = gap.length)
      (isHeading : IsHeading interface.name interface.clause heading)
      (heading_length : headingText.length = heading.length)
      (noHeading_body : NoHeading none body ('}' :: mask)) (isNested : IsNested body)
      (body_length : interface.body.length = body.length) (later : IsOutline interfaces mask text) :
      IsOutline (interface :: interfaces) (gap ++ (heading ++ '{' :: (body ++ '}' :: mask)))
        (gapText ++ (headingText ++ '{' :: (interface.body ++ '}' :: text)))

/-! ## Headings -/

section

variable {captures : List (Pattern.Capture Part)} (previous : Option Char)
  (offset : Nat) (rest : Text)

/-- The brace that opens a body. -/
def openingBrace : Pattern Part := .seq (.lit ['{']) .empty

theorem run_blanks_eq_none {t : Text} (hNonempty : t ≠ [])
    (hLast : ∀ c ∈ t.getLast?, isBlank c = false) (hBrace : '{' ∉ t) :
    Pattern.run (.seq .blanks .empty) ⟨previous, offset, t ++ rest, captures⟩
      (openingBrace.run · some) = none := by
  refine Option.eq_none_iff_forall_ne_some.mpr fun last hRun => ?_
  obtain ⟨middle, hBlanks, hOpening⟩ := Pattern.exists_reads_of_run hRun
  obtain ⟨_, hBlanks, hEmpty⟩ := hBlanks.seq_inv
  cases hEmpty
  obtain ⟨read, hText, hRead, -⟩ := hBlanks.span_inv
  obtain ⟨after, hOpening, -⟩ := Pattern.exists_reads_of_run hOpening
  obtain ⟨brace, hOpening, -⟩ := hOpening.seq_inv
  have hText : t ++ rest = read ++ '{' :: brace.rest := by
    rw [show t ++ rest = _ from hText, hOpening.lit_inv.1]
    rfl
  -- So the last character of the text is among the blanks.
  obtain ⟨more, rfl, -⟩ := exists_append_of_not_mem hText hBrace
  have hMem := List.getLast?_eq_some_getLast hNonempty
  have hBlank := hRead _ (List.mem_append_left more (List.mem_of_getLast? hMem))
  rw [hLast _ hMem] at hBlank
  cases hBlank

theorem IsClause.run {clause : Text} (h : IsClause clause) {blanks : Text}
    (hBlanks : ∀ c ∈ blanks, isBlank c = true) :
    Pattern.run (.seq (.capture .bases (.spanLazy1 (Pattern.noneOf ['{']))) (.seq .blanks .empty))
        ⟨previous, offset, clause ++ (blanks ++ '{' :: rest), captures⟩ (openingBrace.run · some) =
      some ⟨some '{', offset + (clause ++ blanks).length + 1, rest,
        ⟨.bases, offset, clause ++ (blanks ++ '{' :: rest), clause.length⟩ :: captures⟩ := by
  have hClass : ∀ c ∈ clause, Pattern.noneOf ['{'] c = true :=
    fun c hc => decide_eq_true fun hMem => by
    rw [List.mem_singleton.mp hMem] at hc
    exact h.no_brace hc
  rw [Pattern.run]
  refine Pattern.run_spanLazy1 h.ne_nil hClass
    (fun before c after hEq previous offset captures => ?_) _ ?_
  · -- What is left of the clause ends as the clause does.
    have hEnd : clause.getLast? = (c :: after).getLast? := by
      rw [hEq, List.getLast?_append_of_ne_nil _ (List.cons_ne_nil c after)]
    rw [← List.cons_append]
    refine run_blanks_eq_none _ _ _ (List.cons_ne_nil c after) (hEnd ▸ h.trimmed.last) fun hMem =>
      h.no_brace ?_
    exact hEq ▸ List.mem_append_right before hMem
  · rw [Pattern.run]
    refine Pattern.run_blanks hBlanks (fun _ hBrace => by rw [← Option.some.inj hBrace]; decide) ?_
    rw [List.length_append, ← Nat.add_assoc]
    rfl

open Pattern in
/-- What follows the name of an interface and its type parameters. -/
def extension : Pattern Part :=
  all [opt (all [lit "extends", blanks1, capture .bases (spanLazy1 (noneOf ['{'])), blanks]),
    lit ['{']]

theorem IsClause.run_extension {clause : Text} (h : IsClause clause) {gap blanks : Text}
    (hGap : Pattern.IsGap gap) (hBlanks : ∀ c ∈ blanks, isBlank c = true) :
    extension.run ⟨previous, offset, "extends".toList ++
      (gap ++ (clause ++ (blanks ++ '{' :: rest))), captures⟩ some =
      some ⟨some '{', offset + 7 + gap.length + (clause ++ blanks).length + 1, rest,
        ⟨.bases, offset + 7 + gap.length, clause ++ (blanks ++ '{' :: rest), clause.length⟩ ::
          captures⟩ := by
  have hVisible : ∀ c ∈ (clause ++ (blanks ++ '{' :: rest)).head?, isBlank c = false := by
    rw [List.head?_append_of_ne_nil _ h.ne_nil]
    exact h.trimmed.head
  rw [extension, Pattern.run_all_cons]
  refine Pattern.run_opt_eq_some ?_
  rw [Pattern.run_all_cons]
  refine Pattern.run_lit _ ?_
  rw [Pattern.run_all_cons]
  refine Pattern.run_blanks1 hGap hVisible ?_
  exact h.run _ _ _ hBlanks

theorem noExtension_of_not_mem {t : Text} (h : '>' ∉ t) : NoExtension t := fun _ _ _ _ hEq =>
  h (hEq ▸ List.mem_append_right _ List.mem_cons_self)

theorem exists_start_of_run_extension {cursor last : Pattern.Cursor Part}
    (h : extension.run cursor some = some last) :
    (∃ more, cursor.rest = "extends".toList ++ more) ∨ ∃ more, cursor.rest = '{' :: more := by
  obtain ⟨_, hReads, -⟩ := Pattern.exists_reads_of_run h
  obtain ⟨brace, hClause, hOpening⟩ := hReads.seq_inv
  obtain ⟨_, hOpening, -⟩ := hOpening.seq_inv
  rcases hClause.opt_inv with hClause | rfl
  · obtain ⟨_, hWord, -⟩ := hClause.seq_inv
    exact .inl ⟨_, hWord.lit_inv.1⟩
  · exact .inr ⟨_, hOpening.lit_inv.1⟩

/-- Inside of type parameters, neither the word `extends` nor the brace follows an angle bracket. -/
theorem run_extension_eq_none {inside left right : Text} (hBrace : '{' ∉ inside)
    (hExtension : NoExtension inside) (hInside : inside = left ++ '>' :: right) :
    Pattern.run (.seq .blanks .empty) ⟨previous, offset, right ++ '>' :: rest, captures⟩
      (extension.run · some) =
      none := by
  have hRight : ∀ {c}, c ∈ right → c ∈ inside := fun hMem =>
    hInside ▸ List.mem_append_right _ (List.mem_cons_of_mem _ hMem)
  refine Option.eq_none_iff_forall_ne_some.mpr fun last hRun => ?_
  obtain ⟨middle, hBlanks, hExtends⟩ := Pattern.exists_reads_of_run hRun
  obtain ⟨_, hBlanks, hEmpty⟩ := hBlanks.seq_inv
  cases hEmpty
  obtain ⟨read, hText, hRead, -⟩ := hBlanks.span_inv
  -- The bracket behind the parameters is no blank and in no word, so what is read stands before it.
  have hBracket : '>' ∉ read := fun hMem => absurd (hRead '>' hMem) (by decide)
  obtain ⟨more, hSplit, hMore⟩ :=
    exists_append_of_not_mem (show read ++ middle.rest = _ from hText.symm) hBracket
  rcases exists_start_of_run_extension hExtends with ⟨later, hLater⟩ | ⟨later, hLater⟩
  · obtain ⟨behind, rfl, -⟩ := exists_append_of_not_mem (hLater.symm.trans hMore) (by decide)
    exact hExtension left read behind hRead (by rw [hInside, hSplit])
  · have hOpening : ['{'] ++ later = more ++ '>' :: rest := hLater.symm.trans hMore
    obtain ⟨behind, rfl, -⟩ := exists_append_of_not_mem hOpening (by decide)
    exact hBrace (hRight (hSplit ▸ List.mem_append_right _ List.mem_cons_self))

theorem IsTail.run {tail : Text} (h : IsTail tail) {c : Char} (hc : isBlank c = false ∧ c ≠ '<')
    {last : Pattern.Cursor Part}
    (hMore : ∀ previous,
      extension.run ⟨previous, offset + tail.length, c :: rest, captures⟩ some = some last) :
    Pattern.run (.seq .blanks
      (.seq (.opt (.all [.lit ['<'], .spanLazy (Pattern.noneOf ['{']), .lit ['>'],
      .blanks])) extension)) ⟨previous, offset, tail ++ c :: rest, captures⟩ some = some last := by
  have hVisible : ∀ d ∈ (c :: rest).head?, isBlank d = false := by
    rintro d ⟨⟩
    exact hc.1
  rw [Pattern.run]
  cases h with
  | blanks hBlanks =>
    refine Pattern.run_blanks hBlanks hVisible ?_
    rw [Pattern.run, Pattern.run_opt]
    · exact hMore _
    · rw [Pattern.run_all_cons, Pattern.run_lit_eq_none hc.2.symm []]
  | @parameters before inside after hBefore hBrace hExtension hAfter =>
    have hText : (before ++ '<' :: (inside ++ '>' :: after)) ++ c :: rest =
        before ++ '<' :: (inside ++ '>' :: (after ++ c :: rest)) := by simp
    have hLength : offset + (before ++ '<' :: (inside ++ '>' :: after)).length =
        offset + before.length + 1 + inside.length + 1 + after.length := by
      simp only [List.length_append, List.length_cons]
      omega
    rw [hLength] at hMore
    rw [hText]
    refine Pattern.run_blanks hBefore (fun _ hOpen => by rw [← Option.some.inj hOpen]; decide) ?_
    rw [Pattern.run]
    refine Pattern.run_opt_eq_some ?_
    rw [Pattern.run_all_cons]
    refine Pattern.run_lit ['<'] ?_
    rw [Pattern.run_all_cons, Pattern.run]
    refine Pattern.spanLeast_eq (fun d hd => decide_eq_true fun hMem => ?_)
      (fun left d right hEq previous offset => ?_) ?_
    · exact hBrace (List.mem_singleton.mp hMem ▸ hd)
    · rw [Pattern.run_all_cons]
      by_cases hClose : '>' = d
      · subst hClose
        exact run_extension_eq_none _ _ _ hBrace hExtension hEq
      · rw [Pattern.run_lit_eq_none hClose []]
    · rw [Pattern.run_all_cons]
      refine Pattern.run_lit ['>'] ?_
      rw [Pattern.run_all_cons]
      exact Pattern.run_blanks hAfter hVisible (hMore _)

end

/-- What a reading of a heading captured. -/
structure ReadsHeading (name : Text) (clause : Option Text)
    (captures : List (Pattern.Capture Part)) : Prop where
  name_eq : (captures.find? (·.name = .name)).map (·.text) = some name
  clause_eq : (captures.find? (·.name = .bases)).map (·.text) = clause

theorem IsTail.isNameChar_head? {tail : Text} (h : IsTail tail) {c : Char}
    (hc : tail = [] → isNameChar c = false) (rest : Text) :
    ∀ d ∈ (tail ++ c :: rest).head?, isNameChar d = false := by
  have hHead : ∀ {blanks : Text}, (∀ c ∈ blanks, isBlank c = true) →
      ∀ d more, (blanks = [] → isNameChar d = false) →
      ∀ e ∈ (blanks ++ d :: more).head?, isNameChar e = false := by
    intro blanks hBlanks d more hd
    cases blanks with
    | nil =>
      rintro e ⟨⟩
      exact hd rfl
    | cons first blanks =>
      rintro e ⟨⟩
      exact isNameChar_of_isBlank (hBlanks first List.mem_cons_self)
  cases h with
  | blanks hBlanks => exact hHead hBlanks c rest hc
  | parameters hBefore _ _ _ =>
    rw [List.append_assoc]
    exact hHead hBefore '<' _ fun _ => by decide

/-- A heading is read past its name, if it goes on behind it. -/
theorem run_heading_of_tail {gap name tail : Text} (hGap : Pattern.IsGap gap)
    (hName : name.isIdentifier = true) (hTail : IsTail tail) {c : Char}
    (hc : isBlank c = false ∧ c ≠ '<') (hStop : tail = [] → isNameChar c = false)
    (previous : Option Char) (offset : Nat) (rest : Text) {last : Pattern.Cursor Part}
    (hMore : ∀ previous, extension.run
      ⟨previous, offset + 9 + gap.length + name.length + tail.length, c :: rest,
        [⟨.name, offset + 9 + gap.length, name ++ (tail ++ c :: rest), name.length⟩]⟩ some =
      some last) :
    heading.run ⟨previous, offset, "interface".toList ++ (gap ++ (name ++ (tail ++ c :: rest))), []⟩
      some = some last := by
  have hVisible : ∀ d ∈ (name ++ (tail ++ c :: rest)).head?, isBlank d = false := by
    obtain ⟨first, later, rfl, hFirst, -⟩ := exists_cons_of_isIdentifier hName
    rintro d ⟨⟩
    exact isBlank_of_isNameChar (isNameChar_of_isNameStart hFirst)
  rw [heading, Pattern.run_all_cons]
  refine Pattern.run_lit _ ?_
  rw [Pattern.run_all_cons]
  refine Pattern.run_blanks1 hGap hVisible ?_
  rw [Pattern.run_all_cons]
  refine Pattern.run_identifier hName (hTail.isNameChar_head? hStop rest) _ ?_
  exact hTail.run _ _ _ hc hMore

/-- A heading is read up to the brace behind it, with its name and its clause. -/
theorem IsHeading.exists_run {name text : Text} {clause : Option Text}
    (h : IsHeading name clause text) (hName : name.isIdentifier = true) (offset : Nat)
    (rest : Text) :
    ∃ captures, ReadsHeading name clause captures ∧ ∀ previous,
      heading.run ⟨previous, offset, text ++ '{' :: rest, []⟩ some =
        some ⟨some '{', offset + text.length + 1, rest, captures⟩ := by
  have hWords : "interface".toList.length = 9 ∧ "extends".toList.length = 7 := by decide
  cases h with
  | @alone gap tail hGap hTail =>
    let record : Pattern.Capture Part :=
      ⟨.name, offset + 9 + gap.length, name ++ (tail ++ '{' :: rest), name.length⟩
    have hText : ("interface".toList ++ (gap ++ (name ++ tail))) ++ '{' :: rest =
        "interface".toList ++ (gap ++ (name ++ (tail ++ '{' :: rest))) := by simp
    have hLength : offset + ("interface".toList ++ (gap ++ (name ++ tail))).length + 1 =
        offset + 9 + gap.length + name.length + tail.length + 1 := by
      simp only [List.length_append, hWords.1]
      omega
    refine ⟨[record], ⟨congrArg some List.take_left, rfl⟩, fun previous => ?_⟩
    rw [hText, hLength]
    exact run_heading_of_tail hGap hName hTail (by decide) (fun _ => by decide) _ _ _ fun _ => rfl
  | @extending gap tail gap' clause blanks hGap hTail hNonempty hGap' hClause hBlanks =>
    let after := clause ++ (blanks ++ '{' :: rest)
    let behind := tail ++ ("extends".toList ++ (gap' ++ after))
    let record : Pattern.Capture Part :=
      ⟨.name, offset + 9 + gap.length, name ++ behind, name.length⟩
    let record' : Pattern.Capture Part :=
      ⟨.bases, offset + 9 + gap.length + name.length + tail.length + 7 + gap'.length,
        after, clause.length⟩
    have hText :
        ("interface".toList ++
          (gap ++ (name ++ (tail ++ ("extends".toList ++ (gap' ++ (clause ++ blanks))))))) ++
        '{' :: rest = "interface".toList ++ (gap ++ (name ++ behind)) := by simp [behind, after]
    have hLength : offset + ("interface".toList ++ (gap ++ (name ++ (tail ++ ("extends".toList ++
        (gap' ++ (clause ++ blanks))))))).length + 1 =
          offset + 9 + gap.length + name.length + tail.length + 7 + gap'.length +
            (clause ++ blanks).length + 1 := by
      simp only [List.length_append, hWords.1, hWords.2]
      omega
    refine ⟨[record', record], ⟨congrArg some List.take_left, congrArg some List.take_left⟩,
      fun previous => ?_⟩
    rw [hText, hLength]
    exact run_heading_of_tail hGap hName hTail (c := 'e') (by decide)
      (fun hNil => absurd hNil hNonempty) _ _ _
      fun _ => hClause.run_extension _ _ _ hGap' hBlanks

/-! ## Gaps -/

theorem heading_rejects {c : Char} (h : c ≠ 'i') (t : Text) : heading.Rejects (c :: t) := by
  have hWord : ∀ d ∈ (c :: t).head?, d ≠ 'i' := by
    rintro d ⟨⟩
    exact h
  exact (Pattern.Rejects.lit "nterface" hWord).seq _

namespace NoHeading

variable {previous : Option Char} {t rest : Text}

/-- The start of a text is the edge of a word, whatever comes to stand before it. -/
theorem of_none (h : NoHeading none t rest) : NoHeading previous t rest := by
  intro before c after hEq hBefore
  refine h before c after hEq ?_
  cases hLast : before.getLast? with
  | none => rfl
  | some d => rwa [hLast] at hBefore

theorem of_cons {c : Char} (h : NoHeading previous (c :: t) rest) : NoHeading (some c) t rest := by
  intro before d after hEq hEdge
  refine h (c :: before) d after (by rw [hEq]; rfl) ?_
  rwa [Text.getLast?_cons_or]

/-- Two texts are put together around a character with which no heading begins. -/
theorem append_cons {s : Text} {c : Char} (hs : NoHeading previous s (c :: (t ++ rest)))
    (ht : NoHeading (some c) t rest) (hc : c ≠ 'i') : NoHeading previous (s ++ c :: t) rest := by
  intro before d after hEq hEdge
  rcases List.append_eq_append_iff.mp hEq with ⟨more, rfl, hMore⟩ | ⟨more, rfl, hMore⟩
  · cases more with
    | nil =>
      obtain ⟨rfl, rfl⟩ := List.cons.inj hMore
      exact heading_rejects hc _
    | cons e more =>
      obtain ⟨rfl, rfl⟩ := List.cons.inj hMore
      refine ht more d after rfl ?_
      rwa [List.getLast?_append_of_ne_nil _ (List.cons_ne_nil c more),
        Text.getLast?_cons_or] at hEdge
  · cases more with
    | nil =>
      obtain ⟨rfl, rfl⟩ := List.cons.inj hMore
      exact heading_rejects hc _
    | cons e more =>
      obtain ⟨rfl, hAfter⟩ := List.cons.inj hMore
      rw [show after = more ++ c :: t from hAfter, List.append_assoc]
      exact hs before d more rfl hEdge

/-- Without the word `interface` there is no heading, unless the word goes on behind the text. -/
theorem of_contains (h : contains "interface" t = false)
    (hEnd : Pattern.inWord t.getLast? = false) :
    NoHeading previous t rest := by
  intro before c after hEq _
  refine Pattern.Rejects.of_not_reads fun a b hRest hReads => ?_
  obtain ⟨_, hWord, -⟩ := hReads.seq_inv
  have hStart : "interface".toList ++ _ = c :: after ++ rest := hWord.lit_inv.1.symm.trans hRest
  rcases List.append_eq_append_iff.mp hStart with ⟨more, hMore, -⟩ | ⟨more, hMore, -⟩
  · -- The whole word stands in the text.
    have hHere : contains "interface" ("interface".toList ++ more) = true :=
      contains_of_startsWith (by rw [startsWith, dropStart?_append]; rfl)
    rw [hEq, hMore, contains_append_left before hHere] at h
    cases h
  · -- The text ends in a letter of the word.
    obtain ⟨init, last, hInit⟩ :=
      List.eq_nil_or_concat' (c :: after) |>.resolve_left (List.cons_ne_nil c after)
    have hWordChars : ∀ d ∈ "interface".toList, isWordChar d = true := by decide
    have hLast : isWordChar last = true := hWordChars last (by rw [hMore, hInit]; simp)
    rw [hEq, hInit, ← List.append_assoc, List.getLast?_concat, Pattern.inWord,
      Option.any_some, hLast] at hEnd
    cases hEnd

end NoHeading

theorem reads_modifier {word : Text} {a b : Pattern.Cursor Part} (h : (modifier word).Reads a b) :
    b.captures = a.captures ∧ ∃ read, a.rest = read ++ b.rest ∧ b.offset = a.offset + read.length ∧
      (∀ c ∈ read, c ∈ word ∨ isBlank c = true) ∧ ∀ c ∈ read.getLast?, isBlank c = true := by
  rcases h.opt_inv with h | rfl
  · obtain ⟨read, hRead, hOffset⟩ := h.exists_passed
    obtain ⟨middle, hWord, hBlanks⟩ := h.seq_inv
    obtain ⟨hWordRest, hWordCaptures⟩ := hWord.lit_inv
    obtain ⟨blanks, hNonempty, hRest, hBlank, hCaptures⟩ := hBlanks.span1_inv
    obtain rfl : read = word ++ blanks := by
      rw [hWordRest, hRest, ← List.append_assoc] at hRead
      exact (List.append_cancel_right hRead).symm
    refine ⟨hCaptures.trans hWordCaptures, _, hRead, hOffset, fun c hc => ?_, fun c hc => ?_⟩
    · exact (List.mem_append.mp hc).imp_right (hBlank c)
    · rw [List.getLast?_append_of_ne_nil _ hNonempty] at hc
      exact hBlank c (List.mem_of_getLast? hc)
  · exact ⟨rfl, [], rfl, rfl, by simp, by simp⟩

/-- The modifiers are read without the first letter of a heading, and with a blank at the end. -/
theorem reads_modifiers {a b : Pattern.Cursor Part}
    (h : (Pattern.seq (modifier "export") (modifier "declare")).Reads a b) :
    b.captures = a.captures ∧ ∃ read, a.rest = read ++ b.rest ∧ b.offset = a.offset + read.length ∧
      'i' ∉ read ∧ ∀ c ∈ read.getLast?, isBlank c = true := by
  obtain ⟨middle, hExport, hDeclare⟩ := h.seq_inv
  obtain ⟨hCaptures, read, hRead, hOffset, hLetters, hBlank⟩ := reads_modifier hExport
  obtain ⟨hCaptures', read', hRead', hOffset', hLetters', hBlank'⟩ := reads_modifier hDeclare
  refine ⟨hCaptures'.trans hCaptures, read ++ read', ?_, ?_, ?_, fun c hc => ?_⟩
  · rw [hRead, hRead', List.append_assoc]
  · rw [hOffset', hOffset, List.length_append, Nat.add_assoc]
  · rw [List.mem_append, not_or]
    refine ⟨fun hMem => ?_, fun hMem => ?_⟩
    · exact absurd (hLetters _ hMem) (by decide)
    · exact absurd (hLetters' _ hMem) (by decide)
  · rw [List.getLast?_append] at hc
    rcases Option.or_eq_some_iff.mp hc with hLast | ⟨-, hLast⟩
    · exact hBlank' c hLast
    · exact hBlank c hLast

/-- A reading of an interface reads a heading where a word can begin, behind text without
the first letter of it. -/
theorem exists_heading_of_run {cursor last : Pattern.Cursor Part}
    (h : interfaceHeader.run cursor some = some last) :
    ∃ read later, cursor.rest = read ++ later ∧ 'i' ∉ read ∧
      Pattern.inWord (read.getLast?.or cursor.previous) = false ∧ ∃ previous,
      heading.run ⟨previous, cursor.offset + read.length, later, cursor.captures⟩ some =
        some last := by
  have hSplit : interfaceHeader.run cursor some =
      (Pattern.seq .wordEdge (.seq (modifier "export") (modifier "declare"))).run cursor
        (heading.run · some) := rfl
  rw [hSplit] at h
  obtain ⟨later, hBefore, hHeading⟩ := Pattern.exists_reads_of_run h
  obtain ⟨edge, hEdge, hModifiers⟩ := hBefore.seq_inv
  obtain ⟨hCaptures, read, hRead, hOffset, hLetter, hBlank⟩ := reads_modifiers hModifiers
  cases hEdge with
  | look hTest =>
    refine ⟨read, later.rest, hRead, hLetter, ?_, later.previous, ?_⟩
    · cases hLast : read.getLast? with
      | some c => exact isWordChar_of_isBlank (hBlank c hLast)
      | none =>
        -- The heading begins at the edge.
        obtain rfl : read = [] := List.getLast?_eq_none_iff.mp hLast
        obtain ⟨_, hReads, -⟩ := Pattern.exists_reads_of_run hHeading
        obtain ⟨_, hWord, -⟩ := hReads.seq_inv
        have hRest : cursor.rest = "interface".toList ++ _ := hRead.trans hWord.lit_inv.1
        have hEdge : (Pattern.inWord cursor.previous != true) = true := by
          rw [hRest] at hTest
          exact hTest
        exact (Bool.not_eq_true _).mp (bne_iff_ne.mp hEdge)
    · rw [← hOffset, ← hCaptures]
      exact hHeading

theorem IsHeading.exists_eq {name text : Text} {clause : Option Text}
    (h : IsHeading name clause text) :
    ∃ more, text = "interface".toList ++ more := by
  cases h <;> exact ⟨_, rfl⟩

/-- A reading that begins before a heading, in a gap, reads the heading. -/
theorem run_of_gap {gap name text rest : Text} {clause : Option Text} {previous : Option Char}
    (hGap : NoHeading previous gap (text ++ rest)) (hHeading : IsHeading name clause text)
    {offset : Nat} {last : Pattern.Cursor Part}
    (h : interfaceHeader.run ⟨previous, offset, gap ++ (text ++ rest), []⟩ some = some last) :
    ∃ previous, heading.run ⟨previous, offset + gap.length, text ++ rest, []⟩ some = some last := by
  obtain ⟨read, later, hText, hLetter, hEdge, before, hRun⟩ := exists_heading_of_run h
  obtain ⟨tail, rfl⟩ := hHeading.exists_eq
  have hLetters : read ++ later = gap ++ 'i' :: ("nterface".toList ++ tail ++ rest) := hText.symm
  obtain ⟨between, rfl, hLater⟩ := exists_append_of_not_mem hLetters hLetter
  cases between with
  | nil =>
    rw [List.append_nil]
    rw [show later = "interface".toList ++ tail ++ rest from hLater] at hRun
    exact ⟨before, hRun⟩
  | cons c between =>
    subst hLater
    exact absurd hRun ((hGap read c between rfl hEdge).run_ne _ _)

/-! ## Readings -/

theorem run_modifier {word : Text} {c : Char} (hWord : ∀ d ∈ word.head?, d ≠ c)
    (hNonempty : word ≠ []) (previous : Option Char) (offset : Nat) (rest : Text)
    (next : Pattern.Next Part) :
    (modifier word).run ⟨previous, offset, c :: rest, []⟩ next =
      next ⟨previous, offset, c :: rest, []⟩ := by
  obtain ⟨d, word, rfl⟩ := List.exists_cons_of_ne_nil hNonempty
  refine Pattern.run_opt ?_
  rw [Pattern.run, Pattern.run_lit_eq_none (hWord d rfl)]

/-- Where a heading begins, no modifier is read. -/
theorem run_heading (rest : Text) {previous : Option Char}
    (hPrevious : Pattern.inWord previous = false) (offset : Nat) :
    interfaceHeader.run ⟨previous, offset, "interface".toList ++ rest, []⟩ some =
      heading.run ⟨previous, offset, "interface".toList ++ rest, []⟩ some := by
  have hText : "interface".toList ++ rest = 'i' :: ("nterface".toList ++ rest) := rfl
  have hHeader : ∀ cursor : Pattern.Cursor Part, interfaceHeader.run cursor some =
      Pattern.wordEdge.run cursor fun edge => (modifier "export").run edge fun later =>
        (modifier "declare").run later (heading.run · some) := fun _ => rfl
  have hEdge : (Pattern.inWord previous != Pattern.inWord (some 'i')) = true := by
    rw [hPrevious]
    decide
  rw [hText, hHeader, Pattern.wordEdge, Pattern.run]
  refine (if_pos hEdge).trans ?_
  rw [run_modifier (by decide) (by decide), run_modifier (by decide) (by decide)]

theorem NoHeading.readAllFrom_eq {t : Text} {previous : Option Char} (h : NoHeading previous t [])
    (offset : Nat) :
    interfaceHeader.readAllFrom 0 previous offset t = [] := by
  induction t generalizing previous offset with
  | nil => rfl
  | cons c t ih =>
    have hNone : interfaceHeader.run ⟨previous, offset, c :: t, []⟩ some = none := by
      refine Option.eq_none_iff_forall_ne_some.mpr fun last hRun => ?_
      obtain ⟨read, later, hText, -, hEdge, before, hHeading⟩ := exists_heading_of_run hRun
      cases later with
      | nil => cases hHeading
      | cons d later =>
        have hNone := h read d later hText hEdge
        rw [List.append_nil] at hNone
        exact hNone.run_ne _ _ hHeading
    rw [Pattern.readAllFrom, Pattern.readAt, hNone]
    exact ih h.of_cons _

/-- Behind a gap the heading is read, and the next reading begins behind its brace. -/
theorem IsHeading.readAllFrom_eq {gap name text rest : Text} {clause : Option Text}
    (hHeading : IsHeading name clause text) (hName : name.isIdentifier = true)
    {previous : Option Char} (hGap : NoHeading previous gap (text ++ '{' :: rest))
    (hEdge : Pattern.inWord (gap.getLast?.or previous) = false) (offset : Nat) :
    ∃ found, ReadsHeading name clause found.captures ∧
      found.stop = offset + gap.length + text.length + 1 ∧
      interfaceHeader.readAllFrom 0 previous offset (gap ++ (text ++ '{' :: rest)) =
        found :: interfaceHeader.readAllFrom 0 (some '{') found.stop rest := by
  -- What is read first ends at the brace, whether it begins in the gap or behind it.
  have hFound : ∀ gap previous offset last, NoHeading previous gap (text ++ '{' :: rest) →
      interfaceHeader.run ⟨previous, offset, gap ++ (text ++ '{' :: rest), []⟩ some = some last →
      ∃ found, ReadsHeading name clause found.captures ∧
      found.stop = offset + gap.length + text.length + 1 ∧
        interfaceHeader.readAllFrom 0 previous offset (gap ++ (text ++ '{' :: rest)) =
          found :: interfaceHeader.readAllFrom 0 (some '{') found.stop rest := by
    intro gap previous offset last hGap hRun
    obtain ⟨captures, hReads, hStop⟩ := hHeading.exists_run hName (offset + gap.length) rest
    obtain ⟨before, hBefore⟩ := run_of_gap hGap hHeading hRun
    obtain rfl := Option.some.inj ((hStop before).symm.trans hBefore)
    have hText : gap ++ (text ++ '{' :: rest) = (gap ++ (text ++ ['{'])) ++ rest := by simp
    have hLength : offset + gap.length + text.length + 1 =
        offset + (gap ++ (text ++ ['{'])).length := by
      simp only [List.length_append, List.length_singleton]
      omega
    have hEnd : (gap ++ (text ++ ['{'])).getLast? = some '{' := by
      rw [← List.append_assoc, List.getLast?_concat]
    rw [hText] at hRun ⊢
    exact ⟨_, hReads, rfl, Pattern.readAllFrom_of_run hEnd hRun hLength⟩
  induction gap generalizing previous offset with
  | nil =>
    obtain ⟨captures, -, hStop⟩ := hHeading.exists_run hName offset rest
    obtain ⟨more, hText⟩ := hHeading.exists_eq
    refine hFound [] previous offset _ hGap (Eq.trans ?_ (hStop previous))
    rw [hText, List.nil_append, List.append_assoc]
    exact run_heading _ hEdge _
  | cons c gap ih =>
    cases hRun :
      interfaceHeader.run ⟨previous, offset, c :: gap ++ (text ++ '{' :: rest), []⟩ some with
    | some last => exact hFound (c :: gap) previous offset last hGap hRun
    | none =>
      rw [getLast?_cons_or] at hEdge
      obtain ⟨found, hReads, hStop, hLater⟩ := ih hGap.of_cons hEdge (offset + 1)
      refine ⟨found, hReads, ?_, ?_⟩
      · rw [hStop, List.length_cons]
        omega
      · rw [List.cons_append] at hRun ⊢
        rw [Pattern.readAllFrom, Pattern.readAt, hRun]
        exact hLater

/-! ## Outlines -/

theorem IsNested.of_forall {t : Text} (h : ∀ c ∈ t, c ∉ ['{', '}']) : IsNested t := by
  induction t with
  | nil => exact .nil
  | cons c t ih =>
    obtain ⟨hc, ht⟩ := List.forall_mem_cons.mp h
    exact .char hc (ih ht)

theorem IsNested.braceStopFrom_append {t : Text} (h : IsNested t) {depth : Int} (hDepth : 0 < depth)
    (offset : Nat) (rest : Text) :
    ClassDeclaration.braceStopFrom depth offset (t ++ rest) =
      ClassDeclaration.braceStopFrom depth (offset + t.length) rest := by
  induction h generalizing depth offset rest with
  | nil => rfl
  | @char c t hBrace _ ih =>
    obtain ⟨hOpening, hClosing⟩ := not_or.mp (List.mem_pair.not.mp hBrace)
    rw [List.cons_append, ClassDeclaration.braceStopFrom, if_neg hOpening, if_neg hClosing,
      ih hDepth, List.length_cons, Nat.add_assoc, Nat.add_comm 1]
  | @group inside t _ _ ihInside ih =>
    have hInner : 0 < depth + 1 := by omega
    have hDeeper : ¬ depth + 1 = 1 := by omega
    rw [List.cons_append, ClassDeclaration.braceStopFrom, if_pos rfl, List.append_assoc,
      ihInside hInner, List.cons_append, ClassDeclaration.braceStopFrom, if_neg (by decide),
      if_pos rfl, if_neg hDeeper, Int.add_sub_cancel, ih hDepth]
    congr 1
    simp only [List.length_cons, List.length_append]
    omega

theorem IsNested.braceStop_eq {body : Text} (h : IsNested body) {mask rest : Text} {offset : Nat}
    (hMask : mask.drop offset = '{' :: (body ++ '}' :: rest)) :
    ClassDeclaration.braceStop mask offset = offset + (body.length + 2) := by
  rw [ClassDeclaration.braceStop, hMask, ClassDeclaration.braceStopFrom, if_pos rfl,
    h.braceStopFrom_append (by decide), ClassDeclaration.braceStopFrom, if_neg (by decide),
    if_pos rfl, if_pos (by decide)]
  omega

theorem ofInterface_eq {name body : Text} {clause : Option Text}
    {text mask bodyText rest rest' : Text} {brace : Nat} {found : Pattern.Match Part}
    (hReads : ReadsHeading name clause found.captures) (hStop : found.stop = brace + 1)
    (hNested : IsNested body) (hLength : bodyText.length = body.length)
    (hMask : mask.drop brace = '{' :: (body ++ '}' :: rest))
    (hText : text.drop brace = '{' :: (bodyText ++ '}' :: rest')) :
    ofInterface text mask found = (name, InterfaceText.type ⟨name, clause, bodyText⟩) := by
  have hName : found.text .name = name := by
    rw [Pattern.Match.text, Pattern.Match.text?, Pattern.Match.capture?, hReads.name_eq]
    rfl
  have hClause : found.text .bases = clause.getD [] := by
    rw [Pattern.Match.text, Pattern.Match.text?, Pattern.Match.capture?, hReads.clause_eq]
  have hSlice : slice text brace (brace + (body.length + 2)) = '{' :: (bodyText ++ ['}']) := by
    have hLength : body.length + 2 = ('{' :: (bodyText ++ ['}'])).length := by
      rw [List.length_cons, List.length_append, hLength]
      rfl
    have hDrop : text.drop brace = ('{' :: (bodyText ++ ['}'])) ++ rest' := by
      rw [hText]
      simp
    rw [hLength]
    exact slice_of_drop hDrop
  rw [ofInterface, hName, hClause, hStop, Nat.add_sub_cancel, hNested.braceStop_eq hMask, hSlice]
  rfl

theorem IsOutline.map_readAllFrom {interfaces : List InterfaceText} {mask text : Text}
    (h : IsOutline interfaces mask text) {before beforeText wholeMask wholeText : Text}
    {offset : Nat} {previous : Option Char} (hMask : wholeMask.drop offset = before ++ mask)
    (hText : wholeText.drop offset = beforeText ++ text)
    (hLength : beforeText.length = before.length)
    (hBefore : ∀ {gap rest}, mask = gap ++ rest → NoHeading none gap rest →
      NoHeading previous (before ++ gap) rest)
    (hEdge : Pattern.inWord (before.getLast?.or previous) = false) :
    (interfaceHeader.readAllFrom 0 previous offset (before ++ mask)).map
      (ofInterface wholeText wholeMask) =
      interfaces.map fun interface => (interface.name, interface.type) := by
  induction h generalizing before beforeText offset previous with
  | @gap mask hGap _ =>
    rw [(hBefore (List.append_nil mask).symm hGap).readAllFrom_eq]
    rfl
  | @cons interface interfaces gap gapText heading headingText body mask text hName hGap hGapEdge
      hGapLength hHeading hHeadingLength hBody hNested hBodyLength _ ih =>
    have hLastEdge : Pattern.inWord ((before ++ gap).getLast?.or previous) = false := by
      rw [List.getLast?_append, Option.or_assoc]
      cases hLast : gap.getLast? with
      | none => exact hEdge
      | some c => rwa [hLast] at hGapEdge
    obtain ⟨found, hReads, hStop, hLater⟩ :=
      hHeading.readAllFrom_eq hName (hBefore rfl hGap) hLastEdge offset
    let brace := offset + (before ++ gap).length + heading.length
    rw [← List.append_assoc] at hMask hText
    have hMaskBrace : wholeMask.drop brace = '{' :: (body ++ '}' :: mask) :=
      drop_add_length (drop_add_length hMask)
    have hTextBrace : wholeText.drop brace = '{' :: (interface.body ++ '}' :: text) := by
      have hDrop := drop_add_length (drop_add_length hText)
      rwa [List.length_append, hLength, hGapLength, ← List.length_append, hHeadingLength] at hDrop
    have hAfterMask : wholeMask.drop found.stop = (body ++ ['}']) ++ mask := by
      rw [hStop, drop_succ hMaskBrace, List.append_assoc]
      rfl
    have hAfterText : wholeText.drop found.stop = (interface.body ++ ['}']) ++ text := by
      rw [hStop, drop_succ hTextBrace, List.append_assoc]
      rfl
    have hAfter : ∀ {gap rest}, mask = gap ++ rest → NoHeading none gap rest →
        NoHeading (some '{') ((body ++ ['}']) ++ gap) rest := by
      rintro gap rest rfl hGap
      rw [List.append_assoc]
      exact hBody.of_none.append_cons hGap.of_none (by decide)
    rw [← List.append_assoc, hLater, List.map_cons, List.map_cons,
      ofInterface_eq hReads hStop hNested hBodyLength hMaskBrace hTextBrace, List.append_cons,
      ih hAfterMask hAfterText (by simp [hBodyLength]) hAfter
        (by rw [List.getLast?_concat]; decide)]

/-- The interfaces of a text are those of its outline, in order. -/
theorem IsOutline.map_readAll {interfaces : List InterfaceText} {mask text : Text}
    (h : IsOutline interfaces mask text) :
    (interfaceHeader.readAll mask).map (ofInterface text mask) =
      interfaces.map fun interface => (interface.name, interface.type) := by
  have hWhole : ∀ t : Text, t.drop 0 = [] ++ t := fun _ => rfl
  exact h.map_readAllFrom (hWhole mask) (hWhole text) rfl (fun _ hGap => hGap) rfl

theorem IsOutline.isIdentifier_name {interfaces : List InterfaceText} {mask text : Text}
    (h : IsOutline interfaces mask text) :
    ∀ interface ∈ interfaces, interface.name.isIdentifier = true := by
  induction h with
  | gap => exact nofun
  | cons interface hName _ _ _ _ _ _ _ _ _ ih => exact List.forall_mem_cons.mpr ⟨hName, ih⟩

/-- A name stands for the first interface of the outline that has it. -/
theorem IsOutline.get?_readAll {interfaces : List InterfaceText} {mask text : Text}
    (h : IsOutline interfaces mask text) {interface : InterfaceText}
    (hFirst : interfaces.find? (·.name = interface.name) = some interface) :
    OrderedMap.get? (readAll text mask) interface.name = some interface.type := by
  have hEntry : OrderedMap.get? (interfaces.map fun interface => (interface.name, interface.type))
      interface.name =
      some interface.type := by
    rw [OrderedMap.get?, List.find?_map, Option.map_map]
    exact congrArg (Option.map _) hFirst
  rw [readAll, OrderedMap.get?_foldl_putNew, h.map_readAll, OrderedMap.get?_append, hEntry]
  rfl

end TypeDeclaration

end TemplateCheck
