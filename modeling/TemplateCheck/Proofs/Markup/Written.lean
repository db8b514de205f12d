import TemplateCheck.Proofs.Markup.Steps
import TemplateCheck.Proofs.Text.Slice

/-!
# Tags and attributes stand in the body

Whatever the body and its placeholder regions are, the names of the tags and the bound attributes
that the tokenizer reports are slices of the body (`tokenize_tags_written`,
`tokenize_bound_written`).

1. `State.Written` says of a state at an offset that what it has read so far of a name or a key
   stands right before that offset, and that the attribute it reads a value of stands in the body.
2. A step keeps this at the offset that it moves to (`Machine.Written.step`), and so do the looks at
   one character (`Machine.Written.react`).
3. After a placeholder no state refers to the offset any more, so its length does not matter
   (`Machine.Written.passPlaceholder`); hence a whole run keeps it (`Machine.Written.runFrom`).
-/

namespace TemplateCheck

/-- The attribute stands in the body as it is written. -/
def Attribute.Written (body : Text) (attr : Attribute) : Prop :=
  Text.slice body attr.start (attr.start + attr.length) = attr.kind.label attr.key ∧
    attr.length = (attr.kind.label attr.key).length

/-- The name of the tag stands in the body after a `<`, and its attributes stand there too. -/
structure Tag.Written (body : Text) (tag : Tag) : Prop where
  opening : body[tag.start]? = some '<'
  name_eq : Text.slice body (tag.start + 1) (tag.start + 1 + tag.name.length) = tag.name
  attributes : ∀ attr ∈ tag.attributes, attr.Written body

namespace Tokenizer

/-! ## The invariant -/

/-- A bound attribute stands in the body. -/
def Subject.Written (body : Text) : Subject → Prop
  | .bound attr => attr.Written body
  | .static _ => True
  | .computed => True

/-- What was read of a name or a key stands before the offset. -/
def State.Written (body : Text) (offset : Nat) : State → Prop
  | .text => True
  | .comment => True
  | .closingTag => True
  | .tagName start name => body.drop start = '<' :: (name.reverse ++ body.drop offset)
  | .attributeList => True
  | .attributeKey key =>
    key.hasPlaceholder = false → body.drop key.start = key.text.reverse ++ body.drop offset
  | .awaitingValue subject _ => subject.Written body
  | .quotedValue _ value _ => value.subject.Written body
  | .unquotedValue value => value.subject.Written body

theorem State.written_of_isOutside {body : Text} {offset : Nat} {state : State}
    (h : state.isOutside = true) : state.Written body offset := by
  cases state with
  | text | comment | closingTag => trivial
  | _ => cases h

namespace Machine

/-- All that the machine has read stands in the body. -/
structure Written (body : Text) (offset : Nat) (m : Machine) : Prop where
  state : m.state.Written body offset
  tags : ∀ tag ∈ m.tags, tag.Written body
  bound : ∀ b ∈ m.bound, b.attr.Written body

variable {body t : Text} {offset : Nat} {m : Machine} {c : Char}

theorem written_start (body : Text) : start.Written body 0 where
  state := trivial
  tags := by simp [start]
  bound := by simp [start]

/-! ## Transitions -/

theorem Written.goTo (h : m.Written body offset) {offset' : Nat} {state : State}
    (hState : state.Written body offset') : (m.goTo state).Written body offset' :=
  ⟨hState, h.tags, h.bound⟩

theorem Written.move (h : m.Written body offset) {offset' : Nat}
    (hState : m.state.Written body offset') : m.Written body offset' :=
  ⟨hState, h.tags, h.bound⟩

theorem Written.changeTag (h : m.Written body offset) {change : Tag → Tag}
    (hChange : ∀ tag : Tag, tag.Written body → (change tag).Written body) :
    (m.changeTag change).Written body offset := by
  refine ⟨h.state, fun tag hTag => ?_, h.bound⟩
  simp only [Machine.changeTag] at hTag
  cases hTags : m.tags with
  | nil => simp [hTags] at hTag
  | cons first tags =>
    rw [hTags, List.modifyHead_cons] at hTag
    rcases List.mem_cons.mp hTag with rfl | hTag
    · exact hChange first (h.tags first (by simp [hTags]))
    · exact h.tags tag (by simp [hTags, hTag])

theorem Written.endTagName (h : m.Written body offset) {start : Nat} {name : Text}
    (hName : body.drop start = '<' :: (name.reverse ++ body.drop offset)) {offset' : Nat} :
    (m.endTagName start name).Written body offset' := by
  refine ⟨trivial, List.forall_mem_cons.mpr ⟨⟨?_, ?_, by simp⟩, h.tags⟩, h.bound⟩
  · exact Text.getElem?_of_drop hName
  · exact Text.slice_of_drop (Text.drop_succ hName)

/-- The attribute that a key denotes is written as the key. -/
theorem attributeOf?_eq_some {start : Nat} {key : Text} {attr : Attribute}
    (h : attributeOf? start key = some attr) :
    attr.start = start ∧ attr.kind.label attr.key = key ∧ attr.length = key.length := by
  unfold attributeOf? at h
  split at h
  · rename_i name hName
    split_ifs at h
    obtain rfl := Option.some.inj h
    exact ⟨rfl, (Text.eq_append_of_dropStart? hName).symm, rfl⟩
  · split at h
    · rename_i name hName
      split_ifs at h
      obtain rfl := Option.some.inj h
      exact ⟨rfl, (Text.eq_append_of_dropStart? hName).symm, rfl⟩
    · cases h

theorem Written.endKey {key : Key} (h : m.Written body offset)
    (hKey : key.hasPlaceholder = false → body.drop key.start = key.text.reverse ++ body.drop offset)
    {offset' : Nat} : (m.endKey key).Written body offset' := by
  unfold Machine.endKey
  split_ifs with hPlaceholder
  · exact h.goTo trivial
  · have hText := hKey (by simpa using hPlaceholder)
    split
    · rename_i attr hAttr
      obtain ⟨hStart, hLabel, hLength⟩ := attributeOf?_eq_some hAttr
      have hWritten : attr.Written body := by
        rw [Attribute.Written, hStart, hLabel, hLength]
        exact ⟨Text.slice_of_drop hText, rfl⟩
      refine Written.goTo (h.changeTag fun tag hTag => ?_) hWritten
      refine ⟨hTag.opening, hTag.name_eq, fun a ha => ?_⟩
      rcases List.mem_append.mp ha with ha | ha
      · exact hTag.attributes a ha
      · rw [List.mem_singleton.mp ha]
        exact hWritten
    · exact h.goTo trivial

theorem Written.endValue (h : m.Written body offset) (value : Value) {offset' : Nat} :
    (m.endValue value).Written body offset' := by
  have hList : (m.goTo .attributeList).Written body offset' := h.goTo trivial
  unfold Machine.endValue
  split
  · split_ifs
    · exact hList.changeTag fun tag hTag => ⟨hTag.opening, hTag.name_eq, hTag.attributes⟩
    · exact hList
  · exact hList

theorem Written.bind (h : m.Written body offset) (index : Nat) {value : Value}
    (hValue : value.subject.Written body) (quoted : Bool) :
    (m.bind index value quoted).Written body offset := by
  unfold Machine.bind
  split
  · rename_i attr hSubject
    rw [hSubject] at hValue
    split_ifs
    · exact h
    · exact ⟨h.state, h.tags, List.forall_mem_cons.mpr ⟨hValue, h.bound⟩⟩
  · exact h

/-! ## Looking at a character -/

/-- A step keeps the invariant at the offset that it moves to. -/
theorem Written.step (h : m.Written body offset) (hText : body.drop offset = c :: t) {m' : Machine}
    {moved : Nat} (hStep : m.Step offset c t m' moved) : m'.Written body (offset + moved) := by
  have hState := h.state
  cases hStep with
  | passes state => exact h.move (State.written_of_isOutside state)
  | skipsBlank state => exact h.move (by rw [state]; trivial)
  | opensTag state opening =>
    refine h.goTo ?_
    rw [State.Written, hText, opening, List.reverse_nil, List.nil_append, Text.drop_succ hText]
  | spellsName state =>
    rw [state] at hState
    refine h.goTo ?_
    rw [State.Written, hState, hText, Text.drop_succ hText, List.reverse_cons, List.append_assoc,
      List.singleton_append]
  | endsName state =>
    rw [state] at hState
    exact h.endTagName hState
  | closesItself =>
    refine Written.goTo (h.changeTag fun tag hTag => ?_) trivial
    exact ⟨hTag.opening, hTag.name_eq, hTag.attributes⟩
  | startsKey => exact h.goTo fun _ => rfl
  | endsKey state =>
    rw [state] at hState
    exact h.endKey hState
  | spellsKey state =>
    rw [state] at hState
    refine h.goTo fun hPlaceholder => ?_
    rw [hState hPlaceholder, hText, Text.drop_succ hText, List.reverse_cons, List.append_assoc,
      List.singleton_append]
  | detachesValue state | opensQuote state | startsValue state | readsQuoted state
  | readsUnquoted state =>
    -- The subject of the value stays the same.
    rw [state] at hState
    exact h.goTo hState
  | closesQuote | endsValue => exact h.endValue _
  | opensComment | closesComment | opensClosingTag | closesClosingTag | closesTag | leavesKey
  | leavesValue => exact h.goTo trivial

theorem Written.react (h : m.Written body offset) (hText : body.drop offset = c :: t) :
    (m.react offset c t).1.Written body (offset + (m.react offset c t).2) :=
  react_keeps (P := fun m moved => m.Written body (offset + moved))
    (fun m hHere => hHere.step hText (m.step_look offset c t)) h

/-! ## Running -/

/-- A placeholder leaves no state that refers to the offset. -/
theorem Written.passPlaceholder (h : m.Written body offset) (index place : Nat) (offset' : Nat) :
    (m.passPlaceholder index place).Written body offset' := by
  have hState := h.state
  unfold Machine.passPlaceholder
  cases hCase : m.state with
  | text => exact h.move (by rw [hCase]; trivial)
  | comment => exact h.move (by rw [hCase]; trivial)
  | closingTag => exact h.move (by rw [hCase]; trivial)
  | tagName start name =>
    rw [hCase] at hState
    exact h.endTagName hState
  | attributeList => exact h.goTo fun hPlaceholder => nomatch hPlaceholder
  | attributeKey key => exact h.goTo fun hPlaceholder => nomatch hPlaceholder
  | awaitingValue subject detached =>
    rw [hCase] at hState
    exact Written.goTo (h.bind index (show Subject.Written body subject from hState) false) hState
  | quotedValue quote value spaced =>
    rw [hCase] at hState
    dsimp only
    split_ifs
    · exact h.goTo hState
    · exact (h.bind index hState true).goTo hState
  | unquotedValue value =>
    rw [hCase] at hState
    exact (h.bind index hState false).goTo hState

theorem Written.runFrom (regions : List Region) {m : Machine} {skip offset : Nat} {t : Text}
    (h : m.Written body (offset + skip)) (hText : body.drop offset = t) :
    ∃ stop, (runFrom regions m skip offset t).Written body stop := by
  fun_induction Tokenizer.runFrom regions m skip offset t with
  | case1 => exact ⟨_, h⟩
  | case2 m skip offset c t ih =>
    exact ih (by rwa [Nat.add_right_comm]) (Text.drop_succ hText)
  | case3 m offset c t region hRegion ih =>
    exact ih (h.passPlaceholder _ _ _) (Text.drop_succ hText)
  | case4 m offset c t hRegion m' moved hMoved ih =>
    rw [Nat.add_zero] at h
    have hReact := h.react hText
    have hPos := m.react_pos offset c t
    rw [hMoved] at hReact hPos
    refine ih ?_ (Text.drop_succ hText)
    rwa [show offset + 1 + (moved - 1) = offset + moved by omega]

theorem Written.finish (h : m.Written body offset) : m.finish.Written body offset := by
  have hState := h.state
  unfold Machine.finish
  split
  · rename_i start name hCase
    rw [hCase] at hState
    exact h.endTagName hState
  · exact h

end Machine

/-! ## The tokens of a body -/

theorem exists_written_tokenize (body : Text) (placeholders : List (Int × Int)) : ∃ stop,
    (runFrom (regions placeholders) .start 0 0 body).finish.Written body stop := by
  have hStart : Machine.start.Written body (0 + 0) := Machine.written_start body
  obtain ⟨stop, h⟩ := hStart.runFrom (regions placeholders) rfl
  exact ⟨stop, h.finish⟩

/-- Every tag that is reported stands in the body, with its attributes. -/
theorem tokenize_tags_written (body : Text) (placeholders : List (Int × Int)) :
    ∀ tag ∈ (tokenize body placeholders).tags, tag.Written body := by
  intro tag hTag
  obtain ⟨stop, h⟩ := exists_written_tokenize body placeholders
  exact h.tags tag (List.mem_reverse.mp hTag)

/-- The attribute of every bound placeholder stands in the body. -/
theorem tokenize_bound_written (body : Text) (placeholders : List (Int × Int)) :
    ∀ b ∈ (tokenize body placeholders).bound, b.attr.Written body := by
  intro b hBound
  obtain ⟨stop, h⟩ := exists_written_tokenize body placeholders
  exact h.bound b (List.mem_mergeSort.mp hBound)

end Tokenizer

end TemplateCheck
