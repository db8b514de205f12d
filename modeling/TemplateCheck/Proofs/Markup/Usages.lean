import TemplateCheck.Markup.Scan
import TemplateCheck.Proofs.Markup.Placeholders
import TemplateCheck.Proofs.Markup.Written
import TemplateCheck.Proofs.Source.Templates

/-!
# Every component tag is reported once

The component tags of all templates of a file, nested templates included, are reported in the order
of their places, each at its own place (`used_once`).

1. `Machine.Spread` says of a machine at an offset that the tags it has collected, from the `<` to
   the end of the name, stand one after another before the offset and outside the placeholders. A
   step keeps this (`Machine.Spread.step`), and so does a whole run (`Machine.Spread.runFrom`).
2. The holes of a marked template are placed regions of its body (`TaggedTemplate.Shaped.placed`),
   so its tags stand outside its holes.
3. Two templates are apart or one lies in a hole of the other, so their tags stand apart
   (`apart_usedIn`), and sorting brings them in order.
-/

namespace TemplateCheck

/-- From the `<` of a tag to the end of its name. -/
def Tag.extent (tag : Tag) : Nat × Nat := (tag.start, tag.start + 1 + tag.name.length)

namespace Tokenizer

/-- Whether the name of a tag is being read. -/
def State.inName : State → Bool
  | .tagName _ _ => true
  | _ => false

theorem State.inName_of_isOutside {state : State} (h : state.isOutside = true) :
    state.inName = false := by
  cases state with
  | tagName start name => cases h
  | _ => rfl

namespace Machine

/-- The extents of the tags, the latest first. -/
def extents (m : Machine) : List (Nat × Nat) := m.tags.map (·.extent)

@[simp] theorem extents_goTo (m : Machine) (state : State) :
    (m.goTo state).extents = m.extents := rfl

@[simp] theorem state_goTo (m : Machine) (state : State) : (m.goTo state).state = state := rfl

theorem extents_changeTag (m : Machine) {change : Tag → Tag}
    (h : ∀ tag, (change tag).extent = tag.extent) : (m.changeTag change).extents = m.extents := by
  unfold extents changeTag
  cases m.tags with
  | nil => rfl
  | cons tag tags => simp [h]

@[simp] theorem extents_endTagName (m : Machine) (start : Nat) (name : Text) :
    (m.endTagName start name).extents = (start, start + 1 + name.length) :: m.extents := by
  simp [extents, endTagName, Tag.extent]

@[simp] theorem extents_endKey (m : Machine) (key : Key) : (m.endKey key).extents = m.extents := by
  unfold endKey
  split_ifs
  · rfl
  · split
    · exact m.extents_changeTag fun _ => rfl
    · rfl

@[simp] theorem inName_endKey (m : Machine) (key : Key) : (m.endKey key).state.inName = false := by
  unfold endKey
  split_ifs
  · rfl
  · split <;> rfl

@[simp] theorem extents_endValue (m : Machine) (value : Value) :
    (m.endValue value).extents = m.extents := by
  unfold endValue
  split
  · split_ifs
    · exact (m.goTo .attributeList).extents_changeTag fun _ => rfl
    · rfl
  · rfl

@[simp] theorem extents_bind (m : Machine) (index : Nat) (value : Value) (quoted : Bool) :
    (m.bind index value quoted).extents = m.extents := by
  unfold bind
  split
  · split_ifs <;> rfl
  · rfl

/-! ## The invariant -/

/-- The tags stand one after another before the offset, outside the placeholders; and so does the
tag whose name is being read. -/
structure Spread (placeholders : List (Int × Int)) (offset : Nat) (m : Machine) : Prop where
  reading : ∀ start name, m.state = .tagName start name → start + 1 + name.length = offset ∧
    (∀ e ∈ m.extents, e.2 ≤ start) ∧ ∀ p ∈ placeholders, p.2 ≤ start ∨ (offset : Int) ≤ p.1
  behind : ∀ e ∈ m.extents, e.2 ≤ offset
  ordered : m.extents.Pairwise fun later earlier => earlier.2 ≤ later.1
  outside : ∀ e ∈ m.extents, ∀ p ∈ placeholders, p.2 ≤ e.1 ∨ (e.2 : Int) ≤ p.1

namespace Spread

variable {placeholders : List (Int × Int)} {offset : Nat} {m m' : Machine}
  {body t : Text} {c : Char}

theorem start (placeholders : List (Int × Int)) (offset : Nat) :
    Machine.start.Spread placeholders offset where
  reading := nofun
  behind := by simp [extents, Machine.start]
  ordered := by simp [extents, Machine.start]
  outside := by simp [extents, Machine.start]

theorem keep {offset' : Nat} (h : m.Spread placeholders offset) (hOffset : offset ≤ offset')
    (hExtents : m'.extents = m.extents) (hState : m'.state.inName = false) :
    m'.Spread placeholders offset' where
  reading start name hName := by simp [hName, State.inName] at hState
  behind e he := by
    rw [hExtents] at he
    exact Nat.le_trans (h.behind e he) hOffset
  ordered := hExtents ▸ h.ordered
  outside := hExtents ▸ h.outside

/-- A name starts after a `<` that stands in no placeholder. -/
theorem startName (h : m.Spread placeholders offset) (hClear : Clear placeholders offset)
    (hNone : ∀ p ∈ placeholders, p.1 ≠ offset) :
    (m.goTo (.tagName offset [])).Spread placeholders (offset + 1) where
  reading start name hName := by
    obtain ⟨rfl, rfl⟩ := State.tagName.inj hName
    refine ⟨rfl, h.behind, fun p hp => ?_⟩
    have := Placed.stop_le_or_lt hClear hNone p hp
    omega
  behind e he := Nat.le_succ_of_le (h.behind e he)
  ordered := h.ordered
  outside := h.outside

theorem extendName (h : m.Spread placeholders offset) {start : Nat} {name : Text}
    (hName : m.state = .tagName start name) (hNone : ∀ p ∈ placeholders, p.1 ≠ offset)
    (c : Char) :
    (m.goTo (.tagName start (c :: name))).Spread placeholders (offset + 1) where
  reading start' name' hName' := by
    obtain ⟨rfl, rfl⟩ := State.tagName.inj hName'
    obtain ⟨hOffset, hBehind, hOutside⟩ := h.reading _ _ hName
    refine ⟨by rw [List.length_cons]; omega, hBehind, fun p hp => ?_⟩
    have h₁ := hOutside p hp
    have h₂ := hNone p hp
    omega
  behind e he := Nat.le_succ_of_le (h.behind e he)
  ordered := h.ordered
  outside := h.outside

theorem endName (h : m.Spread placeholders offset) {start : Nat} {name : Text}
    (hName : m.state = .tagName start name) {offset' : Nat} (hOffset' : offset ≤ offset') :
    (m.endTagName start name).Spread placeholders offset' := by
  obtain ⟨hOffset, hBehind, hOutside⟩ := h.reading _ _ hName
  refine ⟨nofun, ?_, ?_, ?_⟩ <;> rw [extents_endTagName]
  · refine List.forall_mem_cons.mpr ⟨by omega, fun e he => ?_⟩
    exact Nat.le_trans (h.behind e he) hOffset'
  · exact List.pairwise_cons.mpr ⟨hBehind, h.ordered⟩
  · refine List.forall_mem_cons.mpr ⟨fun p hp => ?_, h.outside⟩
    have := hOutside p hp
    omega

/-! ## Looking at a character -/

/-- A step at a character outside the placeholders keeps the invariant. -/
theorem step (h : m.Spread placeholders offset) (hClear : Clear placeholders offset)
    (hNone : ∀ p ∈ placeholders, p.1 ≠ offset) {moved : Nat} (hStep : m.Step offset c t m' moved) :
    m'.Spread placeholders (offset + moved) := by
  cases hStep with
  | opensTag => exact h.startName hClear hNone
  | spellsName state => exact h.extendName state hNone c
  | endsName state => exact h.endName state (Nat.le_refl _)
  | passes state => exact h.keep (by omega) rfl (State.inName_of_isOutside state)
  | skipsBlank state => exact h.keep (by omega) rfl (by rw [state]; rfl)
  | closesItself => exact h.keep (by omega) (m.extents_changeTag fun _ => rfl) rfl
  | endsKey => exact h.keep (by omega) (m.extents_endKey _) (m.inName_endKey _)
  | closesQuote | endsValue =>
    exact h.keep (by omega) (m.extents_endValue _) (by rw [state_endValue]; rfl)
  | _ => exact h.keep (by omega) rfl rfl

theorem react (h : m.Spread placeholders offset) (hClear : Clear placeholders offset)
    (hNone : ∀ p ∈ placeholders, p.1 ≠ offset) (c : Char) (t : Text) :
    (m.react offset c t).1.Spread placeholders (offset + (m.react offset c t).2) :=
  react_keeps (P := fun m moved => m.Spread placeholders (offset + moved))
    (fun m hHere => hHere.step hClear hNone (m.step_look offset c t)) h

/-! ## Running -/

theorem passPlaceholder (h : m.Spread placeholders offset) (index place : Nat) {offset' : Nat}
    (hOffset : offset ≤ offset') : (m.passPlaceholder index place).Spread placeholders offset' := by
  unfold Machine.passPlaceholder
  cases hCase : m.state with
  | text => exact h.keep hOffset rfl (by rw [hCase]; rfl)
  | comment => exact h.keep hOffset rfl (by rw [hCase]; rfl)
  | closingTag => exact h.keep hOffset rfl (by rw [hCase]; rfl)
  | tagName start name => exact h.endName hCase hOffset
  | attributeList => exact h.keep hOffset rfl rfl
  | attributeKey key => exact h.keep hOffset rfl rfl
  | awaitingValue subject detached => exact h.keep hOffset (extents_bind _ _ _ _) rfl
  | quotedValue quote value spaced =>
    dsimp only
    split_ifs
    · exact h.keep hOffset rfl rfl
    · exact h.keep hOffset (extents_bind _ _ _ _) rfl
  | unquotedValue value => exact h.keep hOffset (extents_bind _ _ _ _) rfl

theorem runFrom (hPlaced : Placed body placeholders) {skip offset : Nat} {t : Text} {m : Machine}
    (h : m.Spread placeholders (offset + skip)) (hClear : Clear placeholders (offset + skip))
    (hText : body.drop offset = t) :
    ∃ stop, (runFrom (regions placeholders) m skip offset t).Spread placeholders stop := by
  fun_induction Tokenizer.runFrom (regions placeholders) m skip offset t with
  | case1 => exact ⟨_, h⟩
  | case2 m skip offset c t ih =>
    have hOffset : offset + (skip + 1) = offset + 1 + skip := by omega
    exact ih (hOffset ▸ h) (hOffset ▸ hClear) (Text.drop_succ hText)
  | case3 m offset c t region hRegion ih =>
    have hMem := mem_of_mem_regions (List.mem_of_find?_eq_some hRegion)
    have hStart : region.start = offset := by simpa using List.find?_some hRegion
    have hExtent := hPlaced.nonempty _ hMem
    refine ih (h.passPlaceholder _ _ (by omega)) (hPlaced.clear_stop hMem ?_) (Text.drop_succ hText)
    simp only at hExtent ⊢
    omega
  | case4 m offset c t hRegion m' moved hMoved ih =>
    rw [Nat.add_zero] at h hClear
    have hNone := ne_of_find?_eq_none hRegion
    have hReact := h.react hClear hNone c t
    have hPos := m.react_pos offset c t
    have hMove := hPlaced.clear_move hClear hNone hText hPos (m.react_le offset c t)
    rw [hMoved] at hReact hPos hMove
    have hOffset : offset + 1 + (moved - 1) = offset + moved := by omega
    exact ih (hOffset ▸ hReact) (hOffset ▸ hMove) (Text.drop_succ hText)

theorem finish (h : m.Spread placeholders offset) : m.finish.Spread placeholders offset := by
  unfold Machine.finish
  split
  · rename_i start name hCase
    exact h.endName hCase (Nat.le_refl _)
  · exact h

end Spread

end Machine

/-! ## The tags of a body -/

theorem exists_spread_tokenize {body : Text} {placeholders : List (Int × Int)}
    (h : Placed body placeholders) : ∃ stop,
      (runFrom (regions placeholders) .start 0 0 body).finish.Spread placeholders stop := by
  obtain ⟨stop, hRun⟩ := Machine.Spread.runFrom h (Machine.Spread.start placeholders (0 + 0))
    h.clear_zero rfl
  exact ⟨stop, hRun.finish⟩

/-- The tags of a body stand one after another. -/
theorem Placed.tags_ordered {body : Text} {placeholders : List (Int × Int)}
    (h : Placed body placeholders) : (tokenize body placeholders).tags.Pairwise fun a b =>
      a.extent.2 ≤ b.extent.1 := by
  obtain ⟨stop, hSpread⟩ := exists_spread_tokenize h
  exact List.pairwise_reverse.mpr (List.pairwise_map.mp hSpread.ordered)

theorem Placed.tags_outside {body : Text} {placeholders : List (Int × Int)}
    (h : Placed body placeholders) : ∀ tag ∈ (tokenize body placeholders).tags,
      ∀ p ∈ placeholders, p.2 ≤ tag.extent.1 ∨ (tag.extent.2 : Int) ≤ p.1 := by
  obtain ⟨stop, hSpread⟩ := exists_spread_tokenize h
  intro tag hTag
  exact hSpread.outside _ (List.mem_map_of_mem (List.mem_reverse.mp hTag))

end Tokenizer

/-! ## The holes of a template -/

/-- The holes of a template are placed regions of its body. -/
theorem TaggedTemplate.Shaped.placed {text : Text} {template : TaggedTemplate}
    (h : template.Shaped text) : Tokenizer.Placed template.body template.placeholders where
  ordered := by
    refine List.pairwise_map.mpr (h.spans_ordered.imp fun {a b} hab => ?_)
    simp only
    omega
  nonempty p hp := by
    obtain ⟨span, hSpan, rfl⟩ := List.mem_map.mp hp
    have := h.span_inside span hSpan
    simp only
    omega
  opens p hp := by
    obtain ⟨span, hSpan, rfl⟩ := List.mem_map.mp hp
    obtain ⟨hLow, hExtent, hHigh⟩ := h.span_inside span hSpan
    obtain ⟨bodyStop, hBody, -, hClose⟩ := h.body_eq
    have hDollar : text[span.start]? = some '$' := by
      have hOpens : (Text.slice text span.start (span.start + 2))[0]? = some '$' := by
        rw [h.span_opens span hSpan]
        rfl
      rwa [Text.getElem?_slice (by omega), Nat.add_zero] at hOpens
    have hInside : span.start < bodyStop := by
      rcases hClose with ⟨hBacktick, hStop⟩ | ⟨hEnd, hStop⟩
      · by_contra hBeyond
        rw [show span.start = bodyStop by omega, hBacktick] at hDollar
        cases hDollar
      · omega
    have hOffset : ((span.start : Int) - template.bodyStart).toNat =
        span.start - (template.start + 1) := by
      simp only [TaggedTemplate.bodyStart]
      omega
    refine ⟨by simp only [TaggedTemplate.bodyStart]; omega, ?_⟩
    simp only [hOffset]
    rw [hBody, Text.getElem?_slice (by omega), Nat.add_sub_cancel' (by omega), hDollar]

/-! ## Usages -/

/-- The ranges of the usages do not overlap. -/
def UsedComponent.Apart (a b : UsedComponent) : Prop := a.stop ≤ b.start ∨ b.stop ≤ a.start

/-- The usage has an extent in the template and outside its holes. -/
structure UsedComponent.StandsIn (used : UsedComponent) (template : TaggedTemplate) : Prop where
  start_lt_stop : used.start < used.stop
  start_lt : (template.start : Int) < used.start
  stop_le : used.stop ≤ template.stop
  outside : ∀ span ∈ template.spans, (span.stop : Int) ≤ used.start ∨ used.stop ≤ span.start

theorem Tag.Written.extent_le {body : Text} {tag : Tag} (h : tag.Written body)
    (hName : tag.name ≠ []) : tag.extent.2 ≤ body.length := by
  have hLength := congrArg List.length h.name_eq
  have hPos := List.length_pos_iff.mpr hName
  simp only [Text.slice, List.length_take, List.length_drop] at hLength
  simp only [Tag.extent]
  omega

theorem Tag.name_ne_nil_of_isComponent {tag : Tag} (h : tag.isComponent = true) :
    tag.name ≠ [] := by
  intro hName
  simp [Tag.isComponent, hName, isComponentName] at h

section Usages

variable {file : SourceFile} {template : TaggedTemplate} {used : UsedComponent}

/-- A usage in a template is that of a component tag. -/
theorem exists_tag_of_mem_usedIn
    (h : used ∈ (TemplateScan.ofTemplate file template).usedIn file) :
    ∃ tag ∈ template.tokens.tags, tag.isComponent = true ∧ used.name = tag.name ∧
      used.start = (template.start + 1 + (tag.start + 1) : Nat) ∧
      used.stop = (template.start + 1 + tag.extent.2 : Nat) := by
  obtain ⟨tag, hTag, rfl⟩ := List.mem_map.mp h
  obtain ⟨hMem, hComponent⟩ := List.mem_filter.mp hTag
  refine ⟨tag, hMem, hComponent, rfl, ?_, ?_⟩
  · simp only [tagNameOffset, bodyOffset, absoluteOffset, TemplateScan.ofTemplate]
    omega
  · simp only [tagNameOffset, bodyOffset, absoluteOffset, TemplateScan.ofTemplate, Tag.extent]
    omega

theorem standsIn_of_mem_usedIn (hShaped : template.Shaped file.text)
    (h : used ∈ (TemplateScan.ofTemplate file template).usedIn file) : used.StandsIn template := by
  obtain ⟨tag, hTag, hComponent, -, hStart, hStop⟩ := exists_tag_of_mem_usedIn h
  have hName := Tag.name_ne_nil_of_isComponent hComponent
  have hPos := List.length_pos_iff.mpr hName
  have hLength := (Tokenizer.tokenize_tags_written _ _ tag hTag).extent_le hName
  have hExtent : tag.extent = (tag.start, tag.start + 1 + tag.name.length) := rfl
  rw [hExtent] at hStop hLength
  refine ⟨by omega, by omega, ?_, fun span hSpan => ?_⟩
  · obtain ⟨bodyStop, hBody, -, hClose⟩ := hShaped.body_eq
    have hBodyLength := Text.length_slice_le file.text (template.start + 1) bodyStop
    rw [← hBody] at hBodyLength
    simp only at hLength hStop
    omega
  · have hOutside := hShaped.placed.tags_outside tag hTag _ (List.mem_map_of_mem hSpan)
    have hInside := hShaped.span_inside span hSpan
    simp only [hExtent, TaggedTemplate.bodyStart] at hOutside hStop
    omega

theorem apart_usedIn (hShaped : template.Shaped file.text) :
    ((TemplateScan.ofTemplate file template).usedIn file).Pairwise UsedComponent.Apart := by
  refine List.pairwise_map.mpr ((hShaped.placed.tags_ordered.filter _).imp fun {a b} hab => .inl ?_)
  simp only [Tag.extent, tagNameOffset, bodyOffset, absoluteOffset] at hab ⊢
  omega

/-- A usage spells its name in the text, after a `<`. -/
theorem spelled_of_mem_usedIn (hShaped : template.Shaped file.text)
    (h : used ∈ (TemplateScan.ofTemplate file template).usedIn file) :
    ∃ place : Nat, used.start = (place + 1 : Nat) ∧
      used.stop = (place + 1 + used.name.length : Nat) ∧ file.text[place]? = some '<' ∧
      Text.slice file.text (place + 1) (place + 1 + used.name.length) = used.name := by
  obtain ⟨tag, hTag, -, hName, hStart, hStop⟩ := exists_tag_of_mem_usedIn h
  have hWritten := Tokenizer.tokenize_tags_written _ _ tag hTag
  refine ⟨template.start + 1 + tag.start, hStart, ?_, hShaped.getElem?_body hWritten.opening, ?_⟩
  · rw [hStop, hName]
    simp only [Tag.extent]
    omega
  · rw [hName]
    exact hShaped.slice_body hWritten.name_eq

end Usages

/-- The usages in two templates stand apart when one template follows the other or lies in it. -/
theorem UsedComponent.StandsIn.apart {a b : UsedComponent} {t u : TaggedTemplate}
    (ha : a.StandsIn t) (hb : b.StandsIn u) (h : t.stop ≤ u.start ∨ t.Encloses u) : a.Apart b := by
  have h₁ := ha.stop_le
  have h₂ := hb.start_lt
  have h₃ := hb.stop_le
  unfold UsedComponent.Apart
  rcases h with hBefore | ⟨span, hSpan, hLow, hHigh⟩
  · omega
  · have := ha.outside span hSpan
    omega

/-- The usages in a file, as they are found, stand apart. -/
theorem apart_flatMap_usedIn (marker : WideText) (path text : Text) :
    let file := SourceFile.read marker path text
    ((file.templates.map (TemplateScan.ofTemplate file)).flatMap (·.usedIn file)).Pairwise
      UsedComponent.Apart := by
  intro file
  have hShaped : ∀ t ∈ file.templates, t.Shaped file.text := Code.shaped_templates marker text
  rw [List.flatMap_map]
  refine List.pairwise_flatMap.mpr ⟨fun t ht => apart_usedIn (hShaped t ht), ?_⟩
  refine (Code.arranged_templates marker text).laminar.imp_of_mem
    fun {t u} ht hu htu a ha b hb => ?_
  exact (standsIn_of_mem_usedIn (hShaped t ht) ha).apart
    (standsIn_of_mem_usedIn (hShaped u hu) hb) htu

/-! ## The usages of a file -/

section Files

variable {file : SourceFile}

/-- The usages of a file are those of its templates, sorted. -/
theorem used_perm (file : SourceFile) :
    (FileScan.ofFile file).used.Perm ((FileScan.ofFile file).templates.flatMap (·.usedIn file)) :=
  List.mergeSort_perm _ _

theorem used_sorted (file : SourceFile) :
    (FileScan.ofFile file).used.Pairwise fun a b => a.start ≤ b.start := by
  refine (List.pairwise_mergeSort (fun a b c hab hbc => ?_) (fun a b => ?_) _).imp fun hab =>
    of_decide_eq_true hab
  · simp only [decide_eq_true_eq] at hab hbc ⊢
    omega
  · simp only [Bool.or_eq_true, decide_eq_true_eq]
    omega

theorem exists_usedIn_of_mem_used {used : UsedComponent} (h : used ∈ (FileScan.ofFile file).used) :
    ∃ t ∈ file.templates, used ∈ (TemplateScan.ofTemplate file t).usedIn file := by
  obtain ⟨_, hScan, hMem⟩ := List.mem_flatMap.mp ((used_perm file).mem_iff.mp h)
  obtain ⟨t, ht, rfl⟩ := List.mem_map.mp hScan
  exact ⟨t, ht, hMem⟩

end Files

theorem used_ordered (marker : WideText) (path text : Text) :
    let file := SourceFile.read marker path text
    (FileScan.ofFile file).used.Pairwise fun a b => a.start < b.start ∧ a.stop ≤ b.start := by
  intro file
  have hShaped : ∀ t ∈ file.templates, t.Shaped file.text := Code.shaped_templates marker text
  have hApart : (FileScan.ofFile file).used.Pairwise UsedComponent.Apart :=
    ((used_perm file).pairwise_iff fun h => h.symm).mpr (apart_flatMap_usedIn marker path text)
  refine ((used_sorted file).and hApart).imp_of_mem fun {a b} ha hb hab => ?_
  obtain ⟨t, ht, hMem⟩ := exists_usedIn_of_mem_used ha
  obtain ⟨u, hu, hMem'⟩ := exists_usedIn_of_mem_used hb
  have h₁ := (standsIn_of_mem_usedIn (hShaped t ht) hMem).start_lt_stop
  have h₂ := (standsIn_of_mem_usedIn (hShaped u hu) hMem').start_lt_stop
  obtain ⟨hLe, hDisjoint⟩ := hab
  unfold UsedComponent.Apart at hDisjoint
  omega

/-- The usages of a source text come by increasing places and do not overlap; each spells its name
in the text after a `<`; and they are the component tags of the scans, one scan for each marked
template, nested templates included. -/
theorem used_once (marker : WideText) (path text : Text) :
    let file := SourceFile.read marker path text
    let scan := FileScan.ofFile file
    (scan.used.Pairwise fun a b => a.start < b.start ∧ a.stop ≤ b.start) ∧
    (∀ used ∈ scan.used, ∃ place : Nat, used.start = (place + 1 : Nat) ∧
      used.stop = (place + 1 + used.name.length : Nat) ∧ text[place]? = some '<' ∧
      Text.slice text (place + 1) (place + 1 + used.name.length) = used.name) ∧
    (scan.used.map fun used => (used.name, used.start)).Perm
      (scan.templates.flatMap fun template => template.componentTags.map fun tag =>
        (tag.name, tagNameOffset template.templateStart tag.start)) ∧
    scan.templates.map (·.templateStart) = ((Code.ofText text).templates marker).map (·.start) := by
  intro file scan
  have hShaped : ∀ t ∈ file.templates, t.Shaped text := Code.shaped_templates marker text
  refine ⟨used_ordered marker path text, fun used hUsed => ?_, ?_, ?_⟩
  · obtain ⟨t, ht, hMem⟩ := exists_usedIn_of_mem_used hUsed
    exact spelled_of_mem_usedIn (hShaped t ht) hMem
  · have hMap := (used_perm file).map fun used => (used.name, used.start)
    rw [List.map_flatMap] at hMap
    simpa only [TemplateScan.usedIn, List.map_map, Function.comp_def] using hMap
  · simp only [scan, FileScan.ofFile, List.map_map]
    rfl

end TemplateCheck
