import TemplateCheck.Proofs.Markup.Visits
import TemplateCheck.Proofs.Pattern.Preference
import TemplateCheck.Proofs.Text.Occurrence
import TemplateCheck.Service.Cursor

/-!
# The component tag around a cursor

The search for the component tag around a cursor looks back for the last `<` and on for the first
`>` behind it. The tokenizer finds the same tag where it takes the text from that `<` up to the
cursor alike (`PlainOpening`): it reads the `<` as text, it reads the name of a component where the
search does, and a `>` before the cursor is not only one in embedded code or in a quoted value. Then
the cursor is found in a component tag exactly if the tokenizer reports the tag, and has not left it
before the cursor (`SourceFile.componentAtCursor?_iff`). An arrow in embedded code breaks this
(`SourceFile.componentAtCursor?_arrow`).
-/

namespace TemplateCheck

namespace Text

/-! ## The last and the first of a character -/

variable {c : Char} {t before after : Text} {n : Nat}

theorem find?_eq_none_of_not_mem (h : c ∉ t) : find? [c] t = none := by
  induction t with
  | nil => rfl
  | cons d t ih =>
    obtain ⟨hd, ht⟩ := List.ne_and_not_mem_of_not_mem_cons h
    rw [find?, startsWith_singleton, ih ht, decide_eq_false hd]
    rfl

theorem find?_append_cons (h : c ∉ before) (after : Text) :
    find? [c] (before ++ c :: after) = some before.length := by
  induction before with
  | nil =>
    rw [List.nil_append, find?, startsWith_singleton, decide_eq_true rfl]
    rfl
  | cons d before ih =>
    obtain ⟨hd, hBefore⟩ := List.ne_and_not_mem_of_not_mem_cons h
    rw [List.cons_append, find?, startsWith_singleton, ih hBefore, decide_eq_false hd]
    rfl

theorem findLast?_eq_none_of_not_mem (h : c ∉ t) : findLast? [c] t = none := by
  induction t with
  | nil => rfl
  | cons d t ih =>
    obtain ⟨hd, ht⟩ := List.ne_and_not_mem_of_not_mem_cons h
    rw [findLast?, startsWith_singleton, ih ht, decide_eq_false hd]
    rfl

theorem findLast?_append_cons (before : Text) (h : c ∉ after) :
    findLast? [c] (before ++ c :: after) = some before.length := by
  induction before with
  | nil =>
    rw [List.nil_append, findLast?, startsWith_singleton, findLast?_eq_none_of_not_mem h,
      decide_eq_true rfl]
    rfl
  | cons d before ih =>
    rw [List.cons_append, findLast?, ih]
    rfl

theorem exists_findLast?_of_mem (h : c ∈ t) : ∃ before after, t = before ++ c :: after ∧ c ∉ after ∧
    findLast? [c] t = some before.length := by
  obtain ⟨after, before, hReverse, hAfter⟩ := List.eq_append_cons_of_mem (List.mem_reverse.mpr h)
  have hText : t = before.reverse ++ c :: after.reverse := by
    rw [← List.reverse_reverse t, hReverse]
    simp
  have hNot : c ∉ after.reverse := by simpa using hAfter
  exact ⟨before.reverse, after.reverse, hText, hNot, hText ▸ findLast?_append_cons _ hNot⟩

theorem getElem?_of_findLast? (h : findLast? [c] t = some n) : t[n]? = some c := by
  by_cases hMem : c ∈ t
  · obtain ⟨before, after, rfl, -, hLast⟩ := exists_findLast?_of_mem hMem
    obtain rfl := Option.some.inj (hLast.symm.trans h)
    rw [List.getElem?_append_right (Nat.le_refl _), Nat.sub_self]
    rfl
  · rw [findLast?_eq_none_of_not_mem hMem] at h
    cases h

theorem getElem?_of_findLast?_take {k : Nat} (h : findLast? [c] (t.take k) = some n) :
    n < k ∧ t[n]? = some c := by
  have hHere := getElem?_of_findLast? h
  rw [List.getElem?_take] at hHere
  split_ifs at hHere with hLt
  exact ⟨hLt, hHere⟩

theorem exists_findLast?_of_getElem? (h : t[n]? = some c) :
    ∃ last, findLast? [c] t = some last ∧ n ≤ last := by
  obtain ⟨before, after, rfl, hAfter, hLast⟩ := exists_findLast?_of_mem (List.mem_of_getElem? h)
  refine ⟨before.length, hLast, Nat.le_of_not_lt fun hLt => hAfter ?_⟩
  rw [List.getElem?_append_right (Nat.le_of_lt hLt),
    ← Nat.succ_pred_eq_of_pos (Nat.sub_pos_of_lt hLt), List.getElem?_cons_succ] at h
  exact List.mem_of_getElem? h

end Text

/-! ## What the search reads -/

/-- The text opens a tag with the name of a component, as the search around a cursor reads it:
blanks may stand behind the `<`, and the name ends where no letter or digit of ASCII follows. -/
def OpensComponent (t name : Text) : Prop := ∃ blanks rest, t = '<' :: (blanks ++ name) ++ rest ∧
  (∀ b ∈ blanks, isBlank b = true) ∧ isComponentName name = true ∧ ∀ c ∈ rest.head?,
    c.isAlphanum = false

theorem exists_cons_of_isComponentName {name : Text} (h : isComponentName name = true) :
    ∃ c later, name = c :: later ∧ c.isUpper = true ∧ ∀ d ∈ later, d.isAlphanum = true := by
  cases name with
  | nil => cases h
  | cons c later =>
    obtain ⟨hUpper, hLater⟩ := Bool.and_eq_true_iff.mp h
    exact ⟨c, later, rfl, hUpper, List.all_eq_true.mp hLater⟩

theorem forall_isAlphanum_of_isComponentName {name : Text} (h : isComponentName name = true) :
    ∀ c ∈ name, c.isAlphanum = true := by
  obtain ⟨c, later, rfl, hc, hLater⟩ := exists_cons_of_isComponentName h
  exact List.forall_mem_cons.mpr ⟨isAlphanum_of_isUpper hc, hLater⟩

namespace OpensComponent

open Pattern

variable {t name other : Text}

theorem readStart (h : OpensComponent t name) :
    ∃ found, componentTagStart.readStart t = some found ∧ found.text () = name := by
  obtain ⟨blanks, rest, rfl, hBlanks, hName, hRest⟩ := h
  obtain ⟨c, later, rfl, hc, hLater⟩ := exists_cons_of_isComponentName hName
  have hPrefers : componentTagStart.Prefers ('<' :: (blanks ++ c :: later) ++ rest) rest
      [((), c :: later)] := by
    have hCapture : (capture () (seq (char Char.isUpper) (span Char.isAlphanum))).Prefers
        (c :: later ++ rest) rest [((), c :: later)] :=
      .capture () ((Prefers.char hc _).seq (.span hLater hRest))
    have hBlank : (Pattern.blanks : Pattern Unit).Prefers (blanks ++ (c :: later ++ rest))
        (c :: later ++ rest) [] :=
      .span hBlanks fun d hd => by
        obtain rfl := Option.some.inj hd
        exact isBlank_of_isUpper hc
    have hAll := (Prefers.lit ['<'] _).seq (hBlank.seq (hCapture.seq (.empty rest)))
    rw [List.cons_append, List.append_assoc]
    exact hAll
  obtain ⟨last, -, -, hRecorded, hRun⟩ := hPrefers ⟨none, 0, _, []⟩ rfl
  refine ⟨⟨0, last.offset, last.captures⟩, ?_, ?_⟩
  · rw [Pattern.readStart, readAt, hRun some last rfl]
    rfl
  · rw [Match.text, Match.text?_eq, hRecorded]
    rfl

theorem of_readStart {found : Match Unit} (h : componentTagStart.readStart t = some found) :
    OpensComponent t (found.text ()) := by
  obtain ⟨last, hReads, -⟩ := exists_reads_of_readAt h
  obtain ⟨a, hOpen, hReads⟩ := hReads.seq_inv
  obtain ⟨b, hBlanks, hReads⟩ := hReads.seq_inv
  obtain ⟨d, hCapture, -⟩ := hReads.seq_inv
  obtain ⟨inside, -, -, hName, -⟩ := hCapture.capture_inv
  obtain ⟨e, hUpper, -⟩ := hName.seq_inv
  obtain ⟨hText, -⟩ := hOpen.lit_inv
  obtain ⟨blanks, hAfter, hBlank, -⟩ := hBlanks.span_inv
  cases hUpper with
  | @char _ _ c rest hHere hc =>
    -- The name is what the pattern prefers, so it is the longest run.
    have hOpens : OpensComponent t (c :: rest.takeWhile Char.isAlphanum) := by
      refine ⟨blanks, rest.dropWhile Char.isAlphanum, ?_, hBlank, ?_, fun c hc => ?_⟩
      · rw [show t = _ from hText, hAfter, hHere]
        simp [List.takeWhile_append_dropWhile]
      · exact Bool.and_eq_true_iff.mpr ⟨hc, List.all_eq_true.mpr fun d hd =>
          List.mem_takeWhile_imp hd⟩
      · rw [← List.find?_not_eq_head?_dropWhile] at hc
        simpa using List.find?_some hc
    obtain ⟨found', hFound, hSame⟩ := hOpens.readStart
    obtain rfl := Option.some.inj (hFound.symm.trans h)
    rwa [hSame]

theorem unique (h : OpensComponent t name) (h' : OpensComponent t other) : name = other := by
  obtain ⟨found, hFound, rfl⟩ := h.readStart
  obtain ⟨found', hFound', rfl⟩ := h'.readStart
  obtain rfl := Option.some.inj (hFound.symm.trans hFound')
  rfl

/-- What stands behind a `>` does not matter. -/
theorem upTo {q u : Text} (h : OpensComponent (q ++ '>' :: u) name) (u' : Text) :
    OpensComponent (q ++ '>' :: u') name := by
  obtain ⟨blanks, rest, hText, hBlanks, hName, hRest⟩ := h
  have hNot : '>' ∉ '<' :: (blanks ++ name) := by
    simp only [List.mem_cons, List.mem_append, not_or]
    refine ⟨by decide, fun hMem => ?_, fun hMem => ?_⟩
    · exact absurd rfl (ne_of_class (hBlanks _ hMem) (show isBlank '>' = false by decide))
    · have hClass := forall_isAlphanum_of_isComponentName hName _ hMem
      exact absurd rfl (ne_of_class hClass (show Char.isAlphanum '>' = false by decide))
  obtain ⟨more, rfl, hMore⟩ := Text.exists_append_of_not_mem hText.symm hNot
  refine ⟨blanks, more ++ '>' :: u', List.append_assoc _ _ _, hBlanks, hName, ?_⟩
  cases more with
  | nil =>
    intro c hc
    obtain rfl := Option.some.inj hc
    rfl
  | cons d more => rwa [hMore] at hRest

theorem map_readStart_iff {inside : Bool} :
    (componentTagStart.readStart t).map (fun found => (⟨found.text (), inside⟩ : CursorTag)) =
      some ⟨name, true⟩ ↔
      OpensComponent t name ∧ inside = true := by
  constructor
  · intro h
    obtain ⟨found, hFound, hSame⟩ := Option.map_eq_some_iff.mp h
    obtain ⟨rfl, rfl⟩ := CursorTag.mk.inj hSame
    exact ⟨.of_readStart hFound, rfl⟩
  · rintro ⟨hOpens, rfl⟩
    obtain ⟨found, hFound, rfl⟩ := hOpens.readStart
    rw [hFound]
    rfl

end OpensComponent

/-- The cursor is found in a tag from its `<` up to the next `>`. -/
theorem componentAtCursor?_eq_some_iff {body name : Text} {cursor : Nat}
    (h : cursor ≤ body.length) :
    componentAtCursor? body cursor = some ⟨name, true⟩ ↔
      ∃ opening, Text.findLast? ['<'] (body.take cursor) = some opening ∧
        OpensComponent (body.drop opening) name ∧
        ∀ close, opening < close → body[close]? = some '>' → cursor ≤ close := by
  rw [componentAtCursor?, if_neg (by omega), Int.toNat_natCast, Option.bind_eq_some_iff]
  refine exists_congr fun opening => and_congr_right fun hOpening => ?_
  obtain ⟨-, hHere⟩ := Text.getElem?_of_findLast?_take hOpening
  dsimp only
  by_cases hMem : '>' ∈ body.drop opening
  · obtain ⟨q, u, hText, hNot⟩ := List.eq_append_cons_of_mem hMem
    have hFragment : Text.slice body opening (opening + q.length + 1) = q ++ ['>'] := by
      have hLength : opening + q.length + 1 - opening = (q ++ ['>']).length := by
        rw [List.length_append, List.length_singleton]
        omega
      rw [Text.slice, hText, List.append_cons q '>' u, hLength, List.take_left]
    have hClose : body[opening + q.length]? = some '>' := by
      rw [← List.getElem?_drop, hText, List.getElem?_append_right (Nat.le_refl _), Nat.sub_self]
      rfl
    have hPos : q ≠ [] := by
      rintro rfl
      rw [← List.head?_drop, hText] at hHere
      cases hHere
    rw [hText, Text.find?_append_cons hNot, Option.map_some]
    dsimp only
    rw [hFragment, OpensComponent.map_readStart_iff, Option.all_some, decide_eq_true_eq]
    refine and_congr ⟨fun hOpens => hOpens.upTo u, fun hOpens => hOpens.upTo []⟩
      ⟨fun hLe close hAfter hHere => ?_, ?_⟩
    · refine Nat.le_of_not_lt fun hLt => hNot ?_
      have hInside : (body.drop opening)[close - opening]? = some '>' := by
        rw [List.getElem?_drop, Nat.add_sub_cancel' (Nat.le_of_lt hAfter), hHere]
      rw [hText, List.getElem?_append_left (by omega)] at hInside
      exact List.mem_of_getElem? hInside
    · intro hAll
      have := List.length_pos_iff.mpr hPos
      exact_mod_cast hAll _ (by omega) hClose
  · rw [Text.find?_eq_none_of_not_mem hMem, Option.map_none, Option.all_none,
      OpensComponent.map_readStart_iff]
    refine and_congr Iff.rfl ⟨fun _ close hAfter hHere => absurd ?_ hMem, fun _ => rfl⟩
    rw [← Nat.add_sub_cancel' (Nat.le_of_lt hAfter), ← List.getElem?_drop] at hHere
    exact List.mem_of_getElem? hHere

/-! ## The tokenizer -/

namespace Tokenizer

theorem isTagNameChar_of_isAlphanum {c : Char} (h : c.isAlphanum = true) :
    isTagNameChar c = true := by
  rw [isTagNameChar, isAlphanumeric_of_isAlphanum h]
  rfl

/-- The search reads the name of a component as the tokenizer does. -/
theorem opensComponent_nameRun {body : Text} {opening : Nat} (hOpening : body[opening]? = some '<')
    (hName : isComponentName (nameRun body opening) = true) :
    OpensComponent (body.drop opening) (nameRun body opening) := by
  refine ⟨[], (body.drop (opening + 1)).dropWhile isTagNameChar, ?_, by simp, hName, fun c hc => ?_⟩
  · obtain ⟨hLt, hHere⟩ := List.getElem?_eq_some_iff.mp hOpening
    rw [List.drop_eq_getElem_cons hLt, hHere, List.nil_append, List.cons_append, nameRun,
      List.takeWhile_append_dropWhile]
  · rw [← List.find?_not_eq_head?_dropWhile] at hc
    have hNot := List.find?_some hc
    refine Bool.eq_false_iff.mpr fun hAlphanum => ?_
    rw [isTagNameChar_of_isAlphanum hAlphanum] at hNot
    cases hNot

/-- The tokenizer takes the text from a `<` up to a cursor as the search around the cursor does. -/
structure PlainOpening (body : Text) (placeholders : List (Int × Int))
    (opening cursor : Nat) : Prop where
  /-- The tokenizer reads the `<` as text. -/
  inText : ∃ m, Visits body placeholders opening m ∧ m.state = .text
  /-- If blanks and the name of a component stand behind the `<`, the tokenizer reads
  that of a component too. -/
  named : ∀ name, OpensComponent (body.drop opening) name →
    isComponentName (nameRun body opening) = true
  /-- If a `>` stands before the cursor, one stands there outside placeholders and quoted values. -/
  closed : ∀ stop, opening < stop → stop < cursor → body[stop]? = some '>' →
    ∃ stop', opening < stop' ∧ stop' < cursor ∧ PlainClose body placeholders stop'

/-- The tokenizer reports a component tag, and has not left it before the cursor. -/
def IsWithin (body : Text) (placeholders : List (Int × Int)) (cursor : Nat) (tag : Tag) : Prop :=
  tag.isComponent = true ∧ tag.start < cursor ∧ ∀ stop,
    Leaves body placeholders tag.start stop → cursor ≤ stop

section

variable {body : Text} {placeholders : List (Int × Int)} {offset opening cursor : Nat} {m : Machine}

/-- In the text the machine opens a tag at a `<` before a letter. -/
theorem Machine.react_opening {c : Char} {t : Text} (hState : m.state = .text)
    (hc : isLetter c = true) (offset : Nat) :
    m.react offset '<' (c :: t) = (m.goTo (.tagName offset []), 1) := by
  have hSlash : c ≠ '/' := ne_of_class hc (by decide)
  have hComment : Text.startsWith ['<', '!', '-', '-'] ('<' :: c :: t) = false := by
    rw [Text.startsWith_cons_self, Text.startsWith_cons_of_ne (ne_of_class hc (by decide)).symm]
  have hLook : m.look offset '<' (c :: t) = (m.goTo (.tagName offset []), 1) := by
    simp [look, hState, hComment, hSlash, hc]
  rw [react_eq, hLook]
  exact if_pos Nat.one_ne_zero

/-- Where the machine reads the name of a component behind a `<` in the text, it opens a tag. -/
theorem Visits.opens (h : Visits body placeholders opening m) (hPlaced : Placed body placeholders)
    (hState : m.state = .text) (hOpening : body[opening]? = some '<')
    (hName : isComponentName (nameRun body opening) = true) :
    Visits body placeholders (opening + 1) (m.goTo (.tagName opening [])) := by
  obtain ⟨c, later, hRun, hUpper, -⟩ := exists_cons_of_isComponentName hName
  obtain ⟨rest, hRest⟩ : c :: later <+: body.drop (opening + 1) := hRun ▸ List.takeWhile_prefix _
  have hText : body.drop opening = '<' :: c :: (later ++ rest) := by
    obtain ⟨hLt, hHere⟩ := List.getElem?_eq_some_iff.mp hOpening
    rw [List.drop_eq_getElem_cons hLt, hHere, ← hRest]
    rfl
  have hNone : (regions placeholders).find? (·.start = (opening : Int)) = none := by
    refine List.find?_eq_none.mpr fun region hRegion hStart => ?_
    have hDollar := (hPlaced.opens _ (mem_of_mem_regions hRegion)).2
    rw [of_decide_eq_true hStart, Int.toNat_natCast, hOpening] at hDollar
    cases hDollar
  have hLetter : isLetter c = true := isLetter_of_isAlpha (isAlpha_of_isUpper hUpper)
  have hNext := h.character hNone hText
  rwa [Machine.react_opening hState hLetter] at hNext

theorem Visits.exists_tag (h : Visits body placeholders offset m) {start : Nat}
    (hStart : start ∈ m.opened) :
    ∃ tag ∈ (tokenize body placeholders).tags, tag.start = start := by
  obtain ⟨later, hOpened, -⟩ :=
    exists_opened_runFrom (regions placeholders) m 0 offset (body.drop offset)
  rw [h.runFrom_eq] at hOpened
  exact mem_opened_iff.mp (hOpened ▸ List.mem_append_right later hStart)

/-- The tags that start further back than the machine stands were opened. -/
theorem Visits.mem_opened (h : Visits body placeholders offset m) {tag : Tag}
    (hTag : tag ∈ (tokenize body placeholders).tags) (hLt : tag.start < offset) :
    tag.start ∈ m.opened := by
  obtain ⟨later, hOpened, hLater⟩ :=
    exists_opened_runFrom (regions placeholders) m 0 offset (body.drop offset)
  rw [h.runFrom_eq] at hOpened
  rcases List.mem_append.mp (hOpened ▸ mem_opened_iff.mpr ⟨tag, hTag, rfl⟩) with hMem | hMem
  · have := hLater _ hMem
    omega
  · exact hMem

/-- Where the tokenizer takes the text around a cursor as the search does, the two find
the same tag. -/
theorem Placed.componentAtCursor?_tokenize (h : Placed body placeholders)
    (hCursor : cursor ≤ body.length)
    (hPlain : ∀ opening, Text.findLast? ['<'] (body.take cursor) = some opening →
      PlainOpening body placeholders opening cursor)
    (name : Text) :
    componentAtCursor? body cursor = some ⟨name, true⟩ ↔
      ∃ tag ∈ (tokenize body placeholders).tags, tag.name = name ∧
        IsWithin body placeholders cursor tag := by
  rw [componentAtCursor?_eq_some_iff hCursor]
  constructor
  · rintro ⟨opening, hLast, hOpens, hClose⟩
    obtain ⟨hLt, hHere⟩ := Text.getElem?_of_findLast?_take hLast
    obtain ⟨⟨m, hVisits, hState⟩, hNamed, -⟩ := hPlain opening hLast
    have hName := hNamed name hOpens
    obtain ⟨tag, hTag, rfl⟩ := (hVisits.opens h hState hHere hName).exists_tag List.mem_cons_self
    have hSame : tag.name = name :=
      (h.name_eq tag hTag).trans ((opensComponent_nameRun hHere hName).unique hOpens)
    refine ⟨tag, hTag, hSame, ?_, hLt, fun stop hLeaves => ?_⟩
    · rw [Tag.isComponent, h.name_eq tag hTag, hName]
    · obtain ⟨hStop, hAfter⟩ := hLeaves.closes
      exact hClose stop hAfter hStop
  · rintro ⟨tag, hTag, rfl, hComponent, hBefore, hLeft⟩
    have hHere := (tokenize_tags_written body placeholders tag hTag).opening
    obtain ⟨opening, hLast, hLe⟩ := Text.exists_findLast?_of_getElem?
      (show (body.take cursor)[tag.start]? =
        some '<' by rw [List.getElem?_take, if_pos hBefore, hHere])
    obtain ⟨hLt, -⟩ := Text.getElem?_of_findLast?_take hLast
    obtain ⟨⟨m, hVisits, hState⟩, -, hClosed⟩ := hPlain opening hLast
    -- A tag that starts further back was left before the machine came to stand in the text.
    obtain rfl : opening = tag.start := by
      refine Nat.le_antisymm (Nat.le_of_not_lt fun hEarlier => ?_) hLe
      have hOutside : m.state.isOutside = true := by rw [hState]; rfl
      obtain ⟨stop, hStop, hLeaves⟩ :=
        hVisits.departed.outside hOutside _ (hVisits.mem_opened hTag hEarlier)
      have := hLeft stop hLeaves
      omega
    have hName : isComponentName (nameRun body tag.start) = true := by
      rwa [Tag.isComponent, h.name_eq tag hTag] at hComponent
    rw [h.name_eq tag hTag]
    refine ⟨tag.start, hLast, opensComponent_nameRun hHere hName, fun stop hAfter hStop => ?_⟩
    refine Nat.le_of_not_lt fun hInside => ?_
    obtain ⟨stop', hAfter', hInside', hPlainClose⟩ := hClosed stop hAfter hInside hStop
    obtain ⟨e, hLe', hLeaves⟩ :=
      (hVisits.opens h hState hHere hName).exists_leaves h List.mem_cons_self hAfter' hPlainClose
    have := hLeft e hLeaves
    omega

end

end Tokenizer

/-! ## The templates of a file -/

/-- The template at an offset is one of the file, and its text covers the offset. -/
theorem SourceFile.covers_of_templateAt? {file : SourceFile} {offset : Int}
    {template : TaggedTemplate} (h : file.templateAt? offset = some template) :
    template ∈ file.templates ∧ template.covers offset = true := by
  obtain ⟨hFound, -⟩ := Option.filter_eq_some_iff.mp h
  -- The best template so far is one of the file that covers the offset.
  refine List.foldlRecOn (motive := fun found : Option TaggedTemplate => ∀ t ∈ found,
    t ∈ file.templates ∧ t.covers offset = true) file.templates _ (by simp)
    (fun found hBest t hMem => ?_) template hFound
  split_ifs with hBetter
  · rintro t' ⟨⟩
    exact ⟨hMem, (Bool.and_eq_true_iff.mp hBetter).1⟩
  · exact hBest

theorem TaggedTemplate.Shaped.exists_cursor {text : Text} {template : TaggedTemplate}
    (h : template.Shaped text) {offset : Int} (hCovers : template.covers offset = true) :
    ∃ cursor : Nat, offset - template.bodyStart = cursor ∧ cursor ≤ template.body.length := by
  obtain ⟨hLow, hHigh⟩ := Bool.and_eq_true_iff.mp hCovers
  obtain ⟨bodyStop, hBody, -, hStop⟩ := h.body_eq
  have hStart : template.bodyStart = template.start + 1 := rfl
  have hLength : template.body.length =
      min (bodyStop - (template.start + 1)) (text.length - (template.start + 1)) := by
    rw [hBody, Text.slice, List.length_take, List.length_drop]
  have hLe := h.stop_le
  simp only [decide_eq_true_eq] at hLow hHigh
  exact ⟨(offset - template.bodyStart).toNat, by omega, by omega⟩

open Tokenizer in
/-- In a template the cursor is found in a component tag exactly if the tokenizer reports the tag,
and has not left it before the cursor; provided that the tokenizer takes the text from the last `<`
up to the cursor as the search does. -/
theorem SourceFile.componentAtCursor?_iff (marker : WideText) (path text : Text) {offset : Int}
    {template : TaggedTemplate}
    (hTemplate : (SourceFile.read marker path text).templateAt? offset = some template)
    {cursor : Nat} (hCursor : offset - template.bodyStart = cursor)
    (hPlain : ∀ opening, Text.findLast? ['<'] (template.body.take cursor) = some opening →
      PlainOpening template.body template.placeholders opening cursor)
    (name : Text) :
    componentAtCursor? template.body (offset - template.bodyStart) = some ⟨name, true⟩ ↔
      ∃ tag ∈ template.tokens.tags, tag.name = name ∧
        IsWithin template.body template.placeholders cursor tag := by
  obtain ⟨hMem, hCovers⟩ := SourceFile.covers_of_templateAt? hTemplate
  have hShaped : template.Shaped text := Code.shaped_templates marker text template hMem
  obtain ⟨cursor', hCursor', hLe⟩ := hShaped.exists_cursor hCovers
  obtain rfl : cursor = cursor' := by exact_mod_cast hCursor.symm.trans hCursor'
  rw [hCursor]
  exact hShaped.placed.componentAtCursor?_tokenize hLe hPlain name

/-- In the midst of a component tag, behind its first attribute. -/
theorem SourceFile.componentAtCursor?_attributes :
    let file := SourceFile.read (.ofText "html") "src/view.ts" "html`<UserCard :name=${1} b>`"
    let template : TaggedTemplate :=
      ⟨0, "html", 0, 4, 29, [⟨21, 25, "1", 23⟩], none, "<UserCard :name=${1} b>"⟩
    file.templateAt? 26 = some template ∧
    componentAtCursor? template.body 21 = some ⟨"UserCard", true⟩ ∧
      ∃ tag ∈ template.tokens.tags, tag.name = "UserCard" ∧
        Tokenizer.IsWithin template.body template.placeholders 21 tag := by
  intro file template
  have hTemplate : file.templateAt? 26 = some template := by decide
  have hSearch : componentAtCursor? template.body (26 - template.bodyStart) =
      some ⟨"UserCard", true⟩ := by
    decide
  have hPlain : ∀ opening, Text.findLast? ['<'] (template.body.take 21) = some opening →
      Tokenizer.PlainOpening template.body template.placeholders opening 21 := by
    intro opening hLast
    obtain rfl : 0 = opening := Option.some.inj ((show _ = some 0 by decide).symm.trans hLast)
    have hNoClose : ∀ stop < 21, template.body[stop]? ≠ some '>' := by decide
    exact ⟨⟨.start, .start, rfl⟩, fun _ _ => by decide, fun stop _ hLt hStop =>
      absurd hStop (hNoClose stop hLt)⟩
  exact ⟨hTemplate, hSearch,
    (SourceFile.componentAtCursor?_iff _ _ _ hTemplate rfl hPlain _).mp hSearch⟩

/-- Behind an arrow in embedded code the cursor is found outside the tag that the
tokenizer is still in. -/
theorem SourceFile.componentAtCursor?_arrow :
    ¬ ∀ (text : Text) (offset : Int) (template : TaggedTemplate),
      (SourceFile.read (.ofText "html") "src/view.ts" text).templateAt? offset = some template →
      ∀ cursor : Nat, offset - template.bodyStart = cursor → ∀ name : Text,
        (componentAtCursor? template.body (offset - template.bodyStart) = some ⟨name, true⟩ ↔
          ∃ tag ∈ template.tokens.tags, tag.name = name ∧
            Tokenizer.IsWithin template.body template.placeholders cursor tag) := by
  intro h
  let text : Text := "html`<UserCard :a=${() => 1} :b=${2}>`"
  let template : TaggedTemplate :=
    ⟨0, "html", 0, 4, 38, [⟨18, 28, "() => 1", 20⟩, ⟨32, 36, "2", 34⟩], none,
    "<UserCard :a=${() => 1} :b=${2}>"⟩
  have hTemplate : (SourceFile.read (.ofText "html") "src/view.ts" text).templateAt? 30 =
      some template := by
    decide
  have hPlaced : Tokenizer.Placed template.body template.placeholders :=
    (Code.shaped_templates _ _ _ (SourceFile.covers_of_templateAt? hTemplate).1).placed
  have hTag : ∃ tag ∈ template.tokens.tags, tag.name = "UserCard" ∧ tag.isComponent = true ∧
      tag.start = 0 := by
    decide
  obtain ⟨tag, hMem, hName, hComponent, hStart⟩ := hTag
  have hWithin : Tokenizer.IsWithin template.body template.placeholders 25 tag := by
    refine ⟨hComponent, by omega, fun stop hLeaves => ?_⟩
    have hStops : ∀ stop < 25, template.body[stop]? = some '>' → stop = 19 := by decide
    have hHole : ((13, 23) : Int × Int) ∈ template.placeholders := by decide
    refine Nat.le_of_not_lt fun hLt => ?_
    obtain rfl := hStops stop hLt hLeaves.closes.1
    have := hLeaves.clear hPlaced _ hHole
    omega
  have hSearch := (h text 30 template hTemplate 25 rfl "UserCard").mpr ⟨tag, hMem, hName, hWithin⟩
  exact absurd hSearch (by decide)

end TemplateCheck
