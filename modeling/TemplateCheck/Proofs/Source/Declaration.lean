import TemplateCheck.Proofs.Pattern.Preference
import TemplateCheck.Proofs.Source.Lexemes
import TemplateCheck.Proofs.Text.Blank
import TemplateCheck.Proofs.Text.Occurrence
import TemplateCheck.Source.Variable

/-!
# How the declaration of a variable is read

The blanks in front of an initial value may break lines, and a declaration may end at a line break,
so where the value begins depends on the order in which the readings are tried.

1. What was taken for a value goes on to a semicolon, a line feed or the end, and had the blanks in
   front of it gone on over more blanks, the declaration would have ended there
   (`exists_value_of_run`).
2. Behind a keyword, a name and a type annotation without equals sign and semicolon, the value
   begins with the first character that is not blank (`Front.prefers`).
-/

namespace TemplateCheck

namespace Variable

open Pattern

/-! ## The parts of the pattern -/

/-- The words that begin a declaration. -/
def keywords : List Text := ["const".toList, "let".toList, "var".toList]

/-- One of the words that begin a declaration. -/
def keyword : Pattern Part := any [lit "const", lit "let", lit "var"]

/-- A type annotation. -/
def annotation : Pattern Part :=
  all [lit [':'], blanks, capture .type (spanLazy1 (noneOf ['=', ';', '\n'])), blanks]

/-- The characters of an initial value. -/
def valueText : Pattern Part := capture .initializer (span1 (noneOf [';', '\n']))

/-- An initial value behind its equals sign. -/
def value : Pattern Part := all [lit ['='], blanks, valueText]

/-- The place behind a declaration. -/
def ending : Pattern Part :=
  look fun _ rest => rest = [] || rest.head? = some ';' || rest.head? = some '\n'

theorem declaration_eq : declaration =
    all [wordEdge, keyword, blanks1, capture .name identifier, blanks, opt annotation,
      opt value, ending] := rfl

/-- A declaration may end in front of the text. -/
def Ends (t : Text) : Prop := ∀ c ∈ t.head?, c = ';' ∨ c = '\n'

theorem test_ending (t : Text) :
    (t = [] || t.head? = some ';' || t.head? = some '\n' : Bool) = true ↔ Ends t := by
  cases t with
  | nil => simp [Ends]
  | cons c t => simp [Ends]

/-! ## The value that is taken -/

/-- The text begins with a value, behind which the declaration ends; and wherever blanks from the
start of the text on end, the declaration could have ended too. -/
structure TakenValue (value rest : Text) : Prop where
  nonempty : value ≠ []
  accepted : ∀ c ∈ value, noneOf [';', '\n'] c = true
  ends : Ends rest
  longest : ∀ more rest', more ≠ [] → value ++ rest = more ++ rest' →
    (∀ c ∈ more, isBlank c = true) → Ends rest'

theorem prefers_valueText {taken rest : Text} (hNonempty : taken ≠ [])
    (hTaken : ∀ c ∈ taken, noneOf [';', '\n'] c = true) (hEnds : Ends rest) :
    valueText.Prefers (taken ++ rest) rest [(.initializer, taken)] := by
  have hRest : ∀ c ∈ rest.head?, noneOf [';', '\n'] c = false := by
    intro c hc
    rcases hEnds c hc with rfl | rfl <;> rfl
  exact (Prefers.span1 hNonempty hTaken hRest).capture Part.initializer

theorem prefers_ending {rest : Text} (hEnds : Ends rest) : (all [ending]).Prefers rest rest [] :=
  (Prefers.look fun _ => (test_ending rest).mpr hEnds).seq (.empty rest)

theorem ends_of_run_valueText {cursor : Cursor Part}
    (h : (all [valueText, ending]).run cursor some = none) :
    Ends cursor.rest := by
  have hText : cursor.rest.takeWhile (noneOf [';', '\n']) ++
      cursor.rest.dropWhile (noneOf [';', '\n']) =
      cursor.rest := List.takeWhile_append_dropWhile
  have hEnds : Ends (cursor.rest.dropWhile (noneOf [';', '\n'])) := by
    intro c hc
    have hNot := forall_head?_dropWhile _ _ c hc
    simpa [noneOf, or_iff_not_imp_left] using hNot
  by_cases hNil : cursor.rest.takeWhile (noneOf [';', '\n']) = []
  · rw [hNil, List.nil_append] at hText
    rwa [hText] at hEnds
  · have hValue := prefers_valueText hNil (fun c hc => List.mem_takeWhile_imp hc) hEnds
    obtain ⟨last, -, -, -, hRun⟩ := hValue.seq (prefers_ending hEnds) cursor hText.symm
    exact absurd (h.symm.trans (hRun some last rfl)) (by simp)

/-- What is done with the end of a declaration. -/
theorem eq_of_run_ending {cursor last : Cursor Part}
    (h : (all [ending]).run cursor some = some last) :
    last = cursor ∧ Ends cursor.rest := by
  obtain ⟨later, hReads, hLater⟩ := exists_reads_of_run h
  obtain rfl := Option.some.inj hLater
  obtain ⟨middle, hLook, hEmpty⟩ := hReads.seq_inv
  cases hEmpty
  cases hLook with
  | look hTest => exact ⟨rfl, (test_ending _).mp hTest⟩

theorem exists_taken_of_run_value {cursor last : Cursor Part}
    (hRun : value.run cursor (fun later => (all [ending]).run later some) = some last) :
    ∃ gap taken rest, cursor.rest = '=' :: (gap ++ (taken ++ rest)) ∧
      (∀ c ∈ gap, isBlank c = true) ∧
      last.captures = ⟨.initializer, cursor.offset + 1 + gap.length, taken ++ rest, taken.length⟩ ::
        cursor.captures ∧
      TakenValue taken rest := by
  obtain ⟨behind, hSign, hBlanks⟩ := exists_reads_of_run (show (lit ['=']).run cursor
    (fun later => blanks.run later fun later => (all [valueText, ending]).run later some) =
      some last from hRun)
  cases hSign with
  | @lit _ _ rest hRest =>
    obtain ⟨gap, rest', hText, hGap, hNext, hLonger⟩ := exists_longest_of_spanMost hBlanks
    obtain rfl : rest = gap ++ rest' := hText
    obtain ⟨stop, hReads, hEnd⟩ := exists_reads_of_run (show valueText.run _
      (fun later => (all [ending]).run later some) = some last from hNext)
    obtain ⟨rfl, hEnds⟩ := eq_of_run_ending hEnd
    cases hReads with
    | @capture _ _ inside _ body =>
      obtain ⟨taken, hNonempty, hTaken, hAccepted, hCaptures⟩ := body.span1_inv
      obtain ⟨read, hRead, hStop⟩ := body.exists_passed
      obtain rfl : read = taken := List.append_cancel_right (hRead.symm.trans hTaken)
      obtain rfl : rest' = read ++ inside.rest := hRead
      have hLength : inside.offset - (cursor.offset + 1 + gap.length) = read.length := by
        rw [hStop]
        exact Nat.add_sub_cancel_left _ _
      refine ⟨gap, read, inside.rest, hRest, hGap, ?_, hNonempty, hAccepted, hEnds, ?_⟩
      · show Capture.between _ _ _ :: inside.captures = _
        rw [hCaptures, ← hLength]
        rfl
      · intro more later hMore hEq hBlank
        exact ends_of_run_valueText (hLonger more later hMore hEq hBlank)

theorem within_header :
    (all [wordEdge, keyword, blanks1, capture .name identifier, blanks, opt annotation]).Within
      (· ≠ '=') := by
  have hBlank : ∀ c, isBlank c = true → c ≠ '=' := fun c hc => ne_of_class hc (by decide)
  have hName : ∀ c, isNameChar c = true → c ≠ '=' := fun c hc => ne_of_class hc (by decide)
  have hKeyword : ∀ word ∈ keywords, ∀ c ∈ word, c ≠ '=' := by decide
  have hColon : ∀ c ∈ [':'], c ≠ '=' := by decide
  have hType : ∀ c, noneOf ['=', ';', '\n'] c = true → c ≠ '=' :=
    fun c hc => ne_of_class hc (by decide)
  refine ⟨trivial, ⟨hKeyword _ (by decide), hKeyword _ (by decide), hKeyword _ (by decide)⟩,
    ⟨hBlank, hBlank⟩, ⟨fun c hc => hName c (isNameChar_of_isNameStart hc), hName⟩, hBlank,
    ⟨⟨hColon, hBlank, ⟨hType, hType⟩, hBlank, trivial⟩, trivial⟩, trivial⟩

theorem captures_header :
    (all [wordEdge, keyword, blanks1, capture .name identifier, blanks, opt annotation]).Captures
      (· ≠ Part.initializer) :=
  ⟨trivial, ⟨trivial, trivial, trivial⟩, ⟨trivial, trivial⟩, ⟨by decide, trivial, trivial⟩, trivial,
    ⟨⟨trivial, trivial, ⟨by decide, trivial, trivial⟩, trivial, trivial⟩, trivial⟩, trivial⟩

/-- Where a declaration has a value, it stands behind the first equals sign and blanks. -/
theorem exists_value_of_run {cursor last : Cursor Part} {record : Capture Part}
    (hNone : cursor.captures = []) (hRun : declaration.run cursor some = some last)
    (hRecord : last.captures.find? (fun record => record.name = .initializer) = some record) :
    ∃ header gap taken rest, cursor.rest = header ++ '=' :: (gap ++ (taken ++ rest)) ∧
      '=' ∉ header ∧
      (∀ c ∈ gap, isBlank c = true) ∧
      record = ⟨.initializer, cursor.offset + header.length + 1 + gap.length,
        taken ++ rest, taken.length⟩ ∧
      TakenValue taken rest := by
  obtain ⟨middle, hFront, hMiddle⟩ :=
    exists_reads_of_run
      (show (all [wordEdge, keyword, blanks1, capture .name identifier, blanks, opt annotation]).run
      cursor (fun later => (all [opt value, ending]).run later some) = some last from hRun)
  cases hValue : value.run middle (fun later => (all [ending]).run later some) with
  | none =>
    -- What stands in front of the equals sign captures no value.
    obtain ⟨rfl, -⟩ := eq_of_run_ending ((run_opt hValue).symm.trans hMiddle)
    obtain ⟨records, hRecords, hNames⟩ := hFront.exists_captures captures_header
    rw [hNone, List.append_nil] at hRecords
    have hName := List.find?_some hRecord
    have hMem := List.mem_of_find?_eq_some hRecord
    exact absurd (by simpa using hName) (hNames record (hRecords ▸ hMem))
  | some found =>
    obtain rfl : found = last := Option.some.inj ((run_opt_eq_some hValue).symm.trans hMiddle)
    obtain ⟨header, hHeader, hOffset, hChars⟩ := hFront.exists_passed_within within_header
    obtain ⟨gap, taken, rest, hRest, hGap, hCaptures, hTaken⟩ := exists_taken_of_run_value hValue
    rw [hCaptures] at hRecord
    refine ⟨header, gap, taken, rest, by rw [hHeader, hRest], fun hMem => hChars _ hMem rfl,
      hGap, ?_, hTaken⟩
    rw [← hOffset]
    exact (Option.some.inj hRecord).symm

/-! ## The value behind a front -/

/-- What may stand between the name of a variable and the equals sign, apart from blanks behind the
name: nothing, or a type in which there is no equals sign, no semicolon and no line feed. -/
inductive TypePart : Text → Prop
  | none : TypePart []
  | type {before text behind : Text} (blanksBefore : ∀ c ∈ before, isBlank c = true)
      (nonempty : text ≠ []) (accepted : ∀ c ∈ text, noneOf ['=', ';', '\n'] c = true)
      (blanksBehind : ∀ c ∈ behind, isBlank c = true) :
      TypePart (':' :: (before ++ (text ++ behind)))

/-- What stands in front of the value of the variable: a keyword, the name, the type, an
equals sign, and blanks. -/
inductive Front (name : Text) : Text → Prop
  | mk {word gap behind type before : Text} (keyword : word ∈ keywords) (blanksWord : IsGap gap)
      (isIdentifier : name.isIdentifier = true) (blanksName : ∀ c ∈ behind, isBlank c = true)
      (typePart : TypePart type) (blanksValue : ∀ c ∈ before, isBlank c = true) :
      Front name (word ++ (gap ++ (name ++ (behind ++ (type ++ '=' :: before)))))

/-- A type as it is read: the first character that is not blank starts it and the last one ends it;
of blanks alone, the last one that is no line feed is the type. -/
structure TypeRead (before : Text) (first : Char) (more behind : Text) : Prop where
  blanksBefore : ∀ c ∈ before, isBlank c = true
  accepted : ∀ c ∈ first :: more, noneOf ['=', ';', '\n'] c = true
  last : ∀ c ∈ more.getLast?, isBlank c = false
  blanksBehind : ∀ c ∈ behind, isBlank c = true
  blank : isBlank first = true → more = [] ∧ ∀ c ∈ behind, c = '\n'

theorem exists_last_of_mem {p : Char → Prop} {t : Text} {c : Char} (hc : c ∈ t) (h : p c) :
    ∃ before d after, t = before ++ d :: after ∧ p d ∧ ∀ e ∈ after, ¬ p e := by
  induction t generalizing c with
  | nil => cases hc
  | cons a t ih =>
    by_cases hLater : ∃ e ∈ t, p e
    · obtain ⟨e, he, hp⟩ := hLater
      obtain ⟨before, d, after, rfl, hd, hAfter⟩ := ih he hp
      exact ⟨a :: before, d, after, rfl, hd, hAfter⟩
    · have hNone : ∀ e ∈ t, ¬ p e := fun e he hp => hLater ⟨e, he, hp⟩
      rcases List.mem_cons.mp hc with rfl | hc
      · exact ⟨[], c, t, rfl, h, hNone⟩
      · exact absurd h (hNone c hc)

/-- Blanks and a type between them are read in one way. -/
theorem exists_typeRead {before text behind : Text} (hBefore : ∀ c ∈ before, isBlank c = true)
    (hNonempty : text ≠ []) (hText : ∀ c ∈ text, noneOf ['=', ';', '\n'] c = true)
    (hBehind : ∀ c ∈ behind, isBlank c = true) : ∃ before' first more behind',
      before ++ (text ++ behind) = before' ++ first :: (more ++ behind') ∧
      TypeRead before' first more behind' := by
  obtain ⟨lead, after, hLead, hAfter, hSplit⟩ : ∃ lead after, (∀ c ∈ lead, isBlank c = true) ∧
      (∀ c ∈ after, isBlank c = true) ∧ text = lead ++ (Text.trim text ++ after) := by
    obtain ⟨after, hAfter, hEnd⟩ := Text.exists_trimEnd_append (Text.trimStart text)
    refine ⟨text.takeWhile isBlank, after, fun c hc => List.mem_takeWhile_imp hc, hAfter, ?_⟩
    rw [Text.trim, hEnd]
    exact List.takeWhile_append_dropWhile.symm
  have hTrimmed := Text.trimmed_trim text
  cases hTrim : Text.trim text with
  | cons first more =>
    rw [hTrim] at hTrimmed hSplit
    refine ⟨before ++ lead, first, more, after ++ behind, ?_, ?_, fun c hc => ?_,
      fun c hc => ?_, ?_, ?_⟩
    · simp only [hSplit, List.append_assoc, List.cons_append]
    · exact List.forall_mem_append.mpr ⟨hBefore, hLead⟩
    · exact hText c (hSplit ▸ List.mem_append_right _ (List.mem_append_left _ hc))
    · exact hTrimmed.last c (by rw [List.getLast?_cons, Option.mem_def.mp hc]; rfl)
    · exact List.forall_mem_append.mpr ⟨hAfter, hBehind⟩
    · intro hBlank
      rw [hTrimmed.head first rfl] at hBlank
      cases hBlank
  | nil =>
    have hBlank : ∀ c ∈ before ++ (text ++ behind), isBlank c = true := by
      simp only [List.forall_mem_append]
      refine ⟨hBefore, fun c hc => ?_, hBehind⟩
      by_contra hVisible
      have hMem := Text.mem_trim hc (Bool.eq_false_iff.mpr hVisible)
      rw [hTrim] at hMem
      cases hMem
    obtain ⟨c, text, rfl⟩ := List.exists_cons_of_ne_nil hNonempty
    have hBreak : c ≠ '\n' := ne_of_class (hText c List.mem_cons_self) (by decide)
    have hMem : c ∈ before ++ (c :: text ++ behind) := List.mem_append_right _ List.mem_cons_self
    obtain ⟨before', d, after, hEq, hd, hLast⟩ := exists_last_of_mem (p := (· ≠ '\n')) hMem hBreak
    rw [hEq] at hBlank ⊢
    simp only [List.forall_mem_append, List.forall_mem_cons] at hBlank
    obtain ⟨hBlanks, hFirst, hRest⟩ := hBlank
    refine ⟨before', d, [], after, rfl, hBlanks, List.forall_mem_singleton.mpr ?_, by simp, hRest,
      fun _ => ⟨rfl, ?_⟩⟩
    · have hNot : d ∉ ['=', ';', '\n'] := by
        simp only [List.mem_cons, List.not_mem_nil, or_false, not_or]
        exact ⟨ne_of_class hFirst (by decide), ne_of_class hFirst (by decide), hd⟩
      exact decide_eq_true hNot
    · exact fun e he => Classical.not_not.mp (hLast e he)

theorem rejects_of_head? {c : Char} (hc : noneOf ['=', ';', '\n'] c = true) (t : Text) :
    (all [opt value, ending]).Rejects (c :: t) := by
  refine Rejects.opt_seq (.seq (.lit _ ?_) _) (.seq (.of_look fun _ => ?_) _)
  · rintro d ⟨⟩
    exact ne_of_class hc (by decide)
  · rw [Bool.eq_false_iff, ne_eq, test_ending]
    intro hEnds
    rcases hEnds c rfl with rfl | rfl <;> exact absurd hc (by decide)

theorem TypeRead.prefers {before more behind w rest : Text} {first : Char}
    {found : List (Part × Text)} (h : TypeRead before first more behind)
    (hTail : (all [opt value, ending]).Prefers ('=' :: w) rest found) :
    (all [opt annotation, opt value, ending]).Prefers
      (':' :: (before ++ first :: (more ++ (behind ++ '=' :: w)))) rest
        (found ++ [(.type, first :: more)]) := by
  have hBehind : (all [blanks, opt value, ending]).Prefers (behind ++ '=' :: w) rest _ :=
    (Prefers.span h.blanksBehind (by rintro c ⟨⟩; decide)).seq hTail
  have hType := Prefers.lazy_seq (noneOf ['=', ';', '\n']) Part.type
    (List.cons_ne_nil first more) h.accepted
    (fun before c after hEq hBefore => ?_) hBehind
  · have hAnnotation : (all [opt annotation, opt value, ending]).Prefers
        (':' :: (before ++ (first :: more ++ (behind ++ '=' :: w)))) rest _ :=
      Prefers.opt_all ((Prefers.lit [':'] _).seq
        (Prefers.span_seq h.blanksBefore (fun longer left hLonger hEq hBlank => ?_) hType))
    · simpa only [List.append_nil, List.cons_append, List.nil_append] using hAnnotation
    · -- Had the blanks gone on over the type, no type would be left in front of the equals sign.
      obtain ⟨c, longer, rfl⟩ := List.exists_cons_of_ne_nil hLonger
      obtain ⟨hFirst, hBlanks⟩ := List.forall_mem_cons.mp hBlank
      obtain ⟨rfl, hRest⟩ := List.cons.inj hEq
      obtain ⟨rfl, hBreaks⟩ := h.blank hFirst
      have hSign : '=' ∉ longer := fun hMem => absurd (hBlanks '=' hMem) (by decide)
      obtain ⟨breaks, rfl, rfl⟩ := Text.exists_append_of_not_mem hRest.symm hSign
      refine Rejects.seq (.capture Part.type (.seq (.char fun d hd => ?_) _)) _
      cases breaks with
      | nil =>
        obtain rfl : '=' = d := Option.some.inj hd
        rfl
      | cons e breaks =>
        obtain rfl : e = d := Option.some.inj hd
        rw [hBreaks e (List.mem_append_right _ List.mem_cons_self)]
        rfl
  · obtain ⟨d, before, rfl⟩ := List.exists_cons_of_ne_nil hBefore
    have hMore : more = before ++ c :: after := (List.cons.inj hEq).2
    refine Rejects.blanks_seq (List.cons_ne_nil c after) ?_ (fun d hd => rejects_of_head? ?_) _
    · intro d hd
      exact h.last d (by rw [hMore, List.getLast?_append, Option.mem_def.mp hd]; rfl)
    · exact h.accepted d (List.mem_cons_of_mem _ (hMore ▸ List.mem_append_right _ hd))

theorem TypePart.prefers {type w rest : Text} {found : List (Part × Text)} (h : TypePart type)
    (hTail : (all [opt value, ending]).Prefers ('=' :: w) rest found) :
    ∃ types, (∀ record ∈ types, record.1 = Part.type) ∧
      (all [opt annotation, opt value, ending]).Prefers (type ++ '=' :: w) rest
        (found ++ types) := by
  cases h with
  | none =>
    have hColon : (lit [':'] : Pattern Part).Rejects ('=' :: w) := .lit [] (by rintro c ⟨⟩; decide)
    exact ⟨[], by simp, (Prefers.opt_of_rejects (hColon.seq _)).seq hTail⟩
  | @type before text behind hBefore hNonempty hAccepted hBehind =>
    obtain ⟨before', first, more, behind', hText, hRead⟩ :=
      exists_typeRead hBefore hNonempty hAccepted hBehind
    refine ⟨[(.type, first :: more)], by simp, ?_⟩
    have hPrefers := hRead.prefers hTail
    rw [hText]
    simpa only [List.cons_append, List.append_assoc] using hPrefers

/-- The text begins with a value whose first character is not blank, and behind which
the declaration ends. -/
structure VisibleValue (value rest : Text) : Prop where
  nonempty : value ≠ []
  first : ∀ c ∈ value.head?, isBlank c = false
  accepted : ∀ c ∈ value, noneOf [';', '\n'] c = true
  ends : Ends rest

theorem VisibleValue.prefers {before taken rest : Text} (h : VisibleValue taken rest)
    (hBefore : ∀ c ∈ before, isBlank c = true) :
    (all [opt value, ending]).Prefers ('=' :: (before ++ (taken ++ rest))) rest
      [(.initializer, taken)] := by
  have hHead : ∀ c ∈ (taken ++ rest).head?, isBlank c = false := by
    rw [List.head?_append_of_ne_nil _ h.nonempty]
    exact h.first
  have hText := prefers_valueText h.nonempty h.accepted h.ends
  have hValue : value.Prefers (['='] ++ (before ++ (taken ++ rest))) rest [(.initializer, taken)] :=
    (Prefers.lit ['='] _).seq ((Prefers.span hBefore hHead).seq (hText.seq (.empty rest)))
  exact hValue.opt.seq (prefers_ending h.ends)

theorem prefers_keyword {word : Text} (h : word ∈ keywords) (rest : Text) :
    keyword.Prefers (word ++ rest) rest [] := by
  simp only [keywords, List.mem_cons, List.not_mem_nil, or_false] at h
  rcases h with rfl | rfl | rfl
  · exact (Prefers.lit _ rest).left _
  · exact .right (.lit "onst".toList (by rintro c ⟨⟩; decide)) ((Prefers.lit _ rest).left _)
  · exact .right (.lit "onst".toList (by rintro c ⟨⟩; decide))
      (.right (.lit "et".toList (by rintro c ⟨⟩; decide)) (.lit _ rest))

/-- Behind a front the value is read from its first character to the end of the declaration. -/
theorem Front.prefers {name front taken rest : Text} (h : Front name front)
    (hValue : VisibleValue taken rest) :
    ∃ types, (∀ record ∈ types, record.1 = Part.type) ∧
      (all [keyword, blanks1, capture .name identifier, blanks, opt annotation,
        opt value, ending]).Prefers
        (front ++ (taken ++ rest)) rest ((.initializer, taken) :: (types ++ [(.name, name)])) := by
  obtain @⟨word, gap, behind, type, before, hKeyword, hGap, hName, hBehind, hType, hBefore⟩ := h
  obtain ⟨types, hTypes, hTail⟩ := hType.prefers (hValue.prefers hBefore)
  refine ⟨types, hTypes, ?_⟩
  -- Behind the name comes a blank, a colon or the equals sign.
  have hType : ∀ c ∈ (type ++ '=' :: (before ++ (taken ++ rest))).head?, c = ':' ∨ c = '=' := by
    cases hType with
    | none =>
      rintro c ⟨⟩
      exact .inr rfl
    | type =>
      rintro c ⟨⟩
      exact .inl rfl
  have hBlanks : ∀ c ∈ (type ++ '=' :: (before ++ (taken ++ rest))).head?, isBlank c = false := by
    intro c hc
    rcases hType c hc with rfl | rfl <;> decide
  have hNameEnd : ∀ c ∈ (behind ++ (type ++ '=' :: (before ++ (taken ++ rest)))).head?,
      isNameChar c = false := by
    intro c hc
    cases behind with
    | nil =>
      rcases hType c hc with rfl | rfl <;> decide
    | cons d behind =>
      obtain rfl : d = c := Option.some.inj hc
      exact isNameChar_of_isBlank (hBehind d List.mem_cons_self)
  have hGapEnd : ∀ c ∈ (name ++ (behind ++ (type ++ '=' :: (before ++ (taken ++ rest))))).head?,
      isBlank c = false := by
    obtain ⟨c, later, rfl, hc, -⟩ := exists_cons_of_isIdentifier hName
    rintro d ⟨⟩
    exact isBlank_of_isNameChar (isNameChar_of_isNameStart hc)
  have hAll :
      (all [keyword, blanks1, capture .name identifier, blanks, opt annotation,
        opt value, ending]).Prefers
      _ rest _ :=
    (prefers_keyword hKeyword _).seq ((Prefers.span1 hGap.1 hGap.2 hGapEnd).seq
      (((Prefers.identifier hName hNameEnd).capture Part.name).seq
        ((Prefers.span hBehind hBlanks).seq hTail)))
  simpa only [List.append_assoc, List.cons_append, List.nil_append, List.append_nil] using hAll

/-- The first equals sign of a front stands in front of the value. -/
theorem Front.exists_split {name front : Text} (h : Front name front) :
    ∃ header before, front = header ++ '=' :: before ∧ '=' ∉ header ∧ ∀ c ∈ before,
      isBlank c = true := by
  obtain @⟨word, gap, behind, type, before, hKeyword, hGap, hName, hBehind, hType, hBefore⟩ := h
  have hBlank {t : Text} (ht : ∀ c ∈ t, isBlank c = true) : '=' ∉ t :=
    fun hMem => absurd (ht '=' hMem) (by decide)
  have hWord : ∀ word ∈ keywords, '=' ∉ word := by decide
  have hNameSign : '=' ∉ name := fun hMem =>
    absurd (isNameChar_of_isIdentifier hName '=' hMem) (by decide)
  have hTypeSign : '=' ∉ type := by
    cases hType with
    | none => exact List.not_mem_nil
    | type hLead _ hText hTrail =>
      have hSign : ¬ noneOf ['=', ';', '\n'] '=' = true := by decide
      simp only [List.mem_cons, List.mem_append, hBlank hLead, hBlank hTrail, or_false,
        false_or, not_or]
      exact ⟨by decide, fun hMem => hSign (hText '=' hMem)⟩
  refine ⟨word ++ (gap ++ (name ++ (behind ++ type))), before, ?_, ?_, hBefore⟩
  · simp only [List.append_assoc]
  · simp only [List.mem_append, hWord word hKeyword, hBlank hGap.2, hNameSign, hBlank hBehind,
      hTypeSign, or_false, not_false_eq_true]

/-! ## Matches -/

theorem exists_cons_of_mem_keywords {word : Text} (h : word ∈ keywords) :
    ∃ c d more, word = c :: d :: more ∧ isLetter c = true ∧ isNameChar d = true := by
  simp only [keywords, List.mem_cons, List.not_mem_nil, or_false] at h
  rcases h with rfl | rfl | rfl <;> exact ⟨_, _, _, rfl, by decide, by decide⟩

theorem inWord_head?_of_mem_keywords {word : Text} (h : word ∈ keywords) (rest : Text) :
    inWord (word ++ rest).head? = true := by
  obtain ⟨c, d, more, rfl, hc, -⟩ := exists_cons_of_mem_keywords h
  show isWordChar c = true
  simp only [isWordChar, isAlphanumeric, hc, Bool.true_or]

/-- A declaration begins with a keyword, and not within a word. -/
theorem exists_keyword_of_readFrom {t : Text} {offset : Nat} {found : Match Part}
    (h : declaration.readFrom t offset = some found) :
    (∃ word ∈ keywords, ∃ rest, t.drop offset = word ++ rest) ∧
      inWord (if offset = 0 then none else t[offset - 1]?) = false := by
  obtain ⟨last, hReads, -⟩ := exists_reads_of_readAt h
  obtain ⟨middle, hEdge, hRest⟩ := hReads.seq_inv
  obtain ⟨behind, hKeyword, -⟩ := hRest.seq_inv
  cases hEdge with
  | look hTest =>
    have hWord : ∃ word ∈ keywords, ∃ rest, t.drop offset = word ++ rest := by
      cases hKeyword with
      | left q hConst => exact ⟨"const", by decide, _, hConst.lit_inv.1⟩
      | right p hOther =>
        cases hOther with
        | left q hLet => exact ⟨"let", by decide, _, hLet.lit_inv.1⟩
        | right p hVar => exact ⟨"var", by decide, _, hVar.lit_inv.1⟩
    refine ⟨hWord, ?_⟩
    obtain ⟨word, hMem, rest, hText⟩ := hWord
    dsimp only at hTest
    rw [hText, inWord_head?_of_mem_keywords hMem] at hTest
    simpa using hTest

/-- In front of the value a text reads as a declaration whose value begins with a
character that is not blank. -/
theorem Front.exists_readFrom {t name front taken rest : Text} {offset : Nat} (h : Front name front)
    (hText : t.drop offset = front ++ (taken ++ rest)) (hValue : VisibleValue taken rest)
    (hEdge : inWord (if offset = 0 then none else t[offset - 1]?) = false) :
    ∃ found, declaration.readFrom t offset = some found ∧ found.text? .name = some name ∧
      found.text? .initializer = some taken := by
  obtain ⟨types, hTypes, hPrefers⟩ := h.prefers hValue
  obtain ⟨last, -, -, hRecorded, hRun⟩ :=
    hPrefers ⟨if offset = 0 then none else t[offset - 1]?, offset, t.drop offset, []⟩ hText
  have hHead : inWord (t.drop offset).head? = true := by
    obtain @⟨word, gap, behind, type, before, hKeyword, -, -, -, -, -⟩ := h
    rw [hText, List.append_assoc]
    exact inWord_head?_of_mem_keywords hKeyword _
  have hRead : declaration.readFrom t offset = some ⟨offset, last.offset, last.captures⟩ := by
    rw [readFrom, readAt, declaration_eq, run_all_cons, wordEdge, run, hEdge, hHead,
      if_pos (by decide), hRun some last rfl]
    rfl
  have hName : types.find? (fun record => record.1 = Part.name) = none := by
    refine List.find?_eq_none.mpr fun record hRecord => ?_
    rw [hTypes record hRecord]
    decide
  refine ⟨_, hRead, ?_, ?_⟩
  · rw [Match.text?_eq, hRecorded]
    simp [recorded, hName]
  · rw [Match.text?_eq, hRecorded]
    simp [recorded]

theorem exists_value_of_readFrom {t : Text} {offset : Nat} {found : Match Part}
    {record : Capture Part} (h : declaration.readFrom t offset = some found)
    (hRecord : found.capture? .initializer = some record) :
    ∃ header gap taken rest,
      t.drop offset = header ++ '=' :: (gap ++ (taken ++ rest)) ∧ '=' ∉ header ∧
      (∀ c ∈ gap, isBlank c = true) ∧
      record = ⟨.initializer, offset + header.length + 1 + gap.length,
        taken ++ rest, taken.length⟩ ∧
      TakenValue taken rest := by
  obtain ⟨last, hRun, rfl⟩ := Option.map_eq_some_iff.mp h
  exact exists_value_of_run rfl hRun hRecord

/-- Where nothing but blanks stands between the front and a semicolon or the end, no
other value is read. -/
theorem Front.isBlank_of_readFrom {t name front gap left value : Text} {offset : Nat}
    {found : Match Part} (h : Front name front) (hText : t.drop offset = front ++ (gap ++ left))
    (hGap : ∀ c ∈ gap, isBlank c = true) (hLeft : ∀ c ∈ left.head?, c = ';')
    (hFound : declaration.readFrom t offset = some found)
    (hValue : found.text? .initializer = some value) : ∀ c ∈ value, isBlank c = true := by
  obtain ⟨record, hRecord, rfl⟩ := Option.map_eq_some_iff.mp hValue
  obtain ⟨header, before, taken, rest, hRead, hHeader, hBefore, rfl, hTaken⟩ :=
    exists_value_of_readFrom hFound hRecord
  obtain ⟨header', before', rfl, hHeader', hBefore'⟩ := h.exists_split
  rw [hText, List.append_assoc, List.cons_append] at hRead
  -- Both go on behind the first equals sign.
  have hSign {s : Text} (hs : '=' ∉ s) : ∀ c ∈ s, noneOf ['='] c = true := by
    intro c hc
    refine decide_eq_true fun hMem => hs ?_
    rwa [← List.mem_singleton.mp hMem]
  obtain ⟨-, hSame⟩ :=
    append_inj_of_class (hSign hHeader') (hSign hHeader) (by rintro c ⟨⟩; rfl) (by rintro c ⟨⟩; rfl)
    hRead
  have hSemicolon : ';' ∉ before ++ taken := by
    rintro hMem
    rcases List.mem_append.mp hMem with hMem | hMem
    · exact absurd (hBefore ';' hMem) (by decide)
    · exact absurd (hTaken.accepted ';' hMem) (by decide)
  have hPrefix : before ++ taken <+: before' ++ gap := by
    have hEq : before ++ taken ++ rest = before' ++ gap ++ left := by
      rw [List.append_assoc, List.append_assoc]
      exact (List.cons.inj hSame).2.symm
    cases left with
    | nil => exact ⟨rest, by rw [hEq, List.append_nil]⟩
    | cons c left =>
      obtain rfl := hLeft c rfl
      obtain ⟨more, hMore, -⟩ := Text.exists_append_of_not_mem hEq hSemicolon
      exact ⟨more, hMore.symm⟩
  intro c hc
  have hText :
      (⟨.initializer, offset + header.length + 1 + before.length, taken ++ rest, taken.length⟩ :
      Capture Part).text = taken := List.take_left
  rw [hText] at hc
  exact List.forall_mem_append.mpr ⟨hBefore', hGap⟩ c (hPrefix.subset (List.mem_append_right _ hc))

end Variable

end TemplateCheck
