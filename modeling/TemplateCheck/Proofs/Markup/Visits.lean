import TemplateCheck.Proofs.Markup.Usages

/-!
# Where the tokenizer stands

`Visits` lists the offsets at which the tokenizer looks at a character or passes a placeholder, with
the machine that stands there. From each of them it runs to the same end (`Visits.runFrom_eq`).

1. `Machine.Looks` puts the steps together by where they lead: a look stays outside tags, opens a
   tag, reads its name or its attributes, or leaves it at a `>`.
2. So the tags that were opened stay in the list (`exists_opened_runFrom`), and where the machine
   stands outside tags it has left all of them (`Visits.departed`).
3. A tag is left at a `>` (`Leaves.closes`), and at the latest at the next one that stands outside
   placeholders and quoted values (`Visits.exists_leaves`).
4. The name of a tag is the longest run of name characters behind its `<` (`Placed.name_eq`): a
   placeholder ends it too, but opens with a dollar sign.
-/

namespace TemplateCheck

namespace Tokenizer

/-! ## What a look can do -/

namespace State

/-- Whether the attributes of a tag are being read. -/
def inAttributes (state : State) : Bool := !state.isOutside && !state.inName

/-- Where the tag starts whose name is being read. -/
def pending : State → List Nat
  | .tagName start _ => [start]
  | _ => []

theorem pending_eq_nil {state : State} (h : state.inName = false) : state.pending = [] := by
  cases state with
  | tagName start name => cases h
  | _ => rfl

theorem inName_of_inAttributes {state : State} (h : state.inAttributes = true) :
    state.inName = false := by
  cases state with
  | tagName start name => cases h
  | _ => rfl

theorem isOutside_of_inAttributes {state : State} (h : state.inAttributes = true) :
    state.isOutside = false := by
  simpa [inAttributes] using (Bool.and_eq_true_iff.mp h).1

end State

namespace Machine

/-- What a look at the text `c :: t` can do. -/
inductive Looks (m : Machine) (offset : Nat) (c : Char) (t : Text) : Machine × Nat → Prop
  | outside {m' : Machine} {moved : Nat} (state : m.state.isOutside = true)
      (state' : m'.state.isOutside = true) (extents : m'.extents = m.extents) (moves : 0 < moved) :
      Looks m offset c t (m', moved)
  | opens (state : m.state = .text) : Looks m offset c t (m.goTo (.tagName offset []), 1)
  | spells {start : Nat} {name : Text} (state : m.state = .tagName start name)
      (hc : isTagNameChar c = true) : Looks m offset c t (m.goTo (.tagName start (c :: name)), 1)
  | endsName {start : Nat} {name : Text} (state : m.state = .tagName start name)
      (hc : isTagNameChar c = false) : Looks m offset c t (m.endTagName start name, 0)
  | stays {m' : Machine} {moved : Nat} (state : m.state.inAttributes = true)
      (state' : m'.state.inAttributes = true) (extents : m'.extents = m.extents)
      (moves : moved ≤ 1) : Looks m offset c t (m', moved)
  | leaves {m' : Machine} {moved : Nat} (state : m.state.inAttributes = true)
      (state' : m'.state = .text) (extents : m'.extents = m.extents)
      (moves : 0 < moved ∧ moved ≤ 2) (closes : (c :: t)[moved - 1]? = some '>') :
      Looks m offset c t (m', moved)

theorem inAttributes_endKey (m : Machine) (key : Key) :
    (m.endKey key).state.inAttributes = true := by
  unfold endKey
  split_ifs
  · rfl
  · split <;> rfl

theorem inAttributes_endValue (m : Machine) (value : Value) :
    (m.endValue value).state.inAttributes = true := by
  rw [state_endValue]
  rfl

theorem Step.looks {m m' : Machine} {offset moved : Nat} {c : Char} {t : Text}
    (h : m.Step offset c t m' moved) :
    m.Looks offset c t (m', moved) := by
  cases h with
  | passes state => exact .outside state state rfl Nat.one_pos
  | opensComment state | closesComment state | opensClosingTag state | closesClosingTag state =>
    exact .outside (by rw [state]; rfl) rfl rfl (by decide)
  | opensTag state => exact .opens state
  | spellsName state spells => exact .spells state spells
  | endsName state ends => exact .endsName state ends
  | closesTag state closing =>
    exact .leaves (by rw [state]; rfl) rfl rfl (by decide) (congrArg some closing)
  | closesItself state _ closing =>
    refine .leaves (by rw [state]; rfl) rfl (m.extents_changeTag fun _ => rfl) (by decide) ?_
    rw [eq_cons_of_head? closing]
    rfl
  | skipsBlank state => exact .stays (by rw [state]; rfl) (by rw [state]; rfl) rfl (Nat.le_refl 1)
  | endsKey state =>
    exact .stays (by rw [state]; rfl) (m.inAttributes_endKey _) (m.extents_endKey _) (Nat.le_refl 1)
  | closesQuote state | endsValue state =>
    exact .stays (by rw [state]; rfl) (m.inAttributes_endValue _) (m.extents_endValue _) (by decide)
  | startsKey state | leavesKey state | spellsKey state | detachesValue state | opensQuote state
  | leavesValue state | startsValue state | readsQuoted state | readsUnquoted state =>
    exact .stays (by rw [state]; rfl) rfl rfl (by decide)

theorem looks_look (m : Machine) (offset : Nat) (c : Char) (t : Text) :
    m.Looks offset c t (m.look offset c t) :=
  (m.step_look offset c t).looks

/-! ## The tags that were opened -/

/-- Where the tags start that were opened, the latest first. -/
def opened (m : Machine) : List Nat := m.state.pending ++ m.extents.map Prod.fst

theorem opened_eq {m : Machine} (h : m.state.inName = false) :
    m.opened = m.extents.map Prod.fst := by
  rw [opened, State.pending_eq_nil h, List.nil_append]

theorem opened_endTagName {m : Machine} {start : Nat} {name : Text}
    (h : m.state = .tagName start name) :
    (m.endTagName start name).opened = m.opened := by
  rw [opened_eq rfl, extents_endTagName, opened, h]
  rfl

theorem opened_finish (m : Machine) : m.finish.opened = m.opened := by
  unfold finish
  split
  · rename_i start name hName
    exact opened_endTagName hName
  · rfl

/-- The machine in a tag stays in it, or leaves it at a `>`. -/
structure StaysOrLeaves (m m' : Machine) (moved : Nat) (t : Text) : Prop where
  opened : m'.opened = m.opened
  state : m'.state.isOutside = false ∧ moved ≤ 1 ∨
    m'.state = .text ∧ 0 < moved ∧ moved ≤ 2 ∧ t[moved - 1]? = some '>'

theorem Looks.staysOrLeaves {m m' : Machine} {offset moved : Nat} {c : Char} {t : Text}
    (h : m.Looks offset c t (m', moved)) (hInside : m.state.isOutside = false) :
    m.StaysOrLeaves m' moved (c :: t) := by
  cases h with
  | outside state state' extents moves => simp [state] at hInside
  | opens state => simp [state, State.isOutside] at hInside
  | spells state hc => exact ⟨by rw [opened, opened, state]; rfl, .inl ⟨rfl, Nat.le_refl 1⟩⟩
  | endsName state hc => exact ⟨opened_endTagName state, .inl ⟨rfl, Nat.zero_le 1⟩⟩
  | stays state state' extents moves =>
    refine ⟨?_, .inl ⟨State.isOutside_of_inAttributes state', moves⟩⟩
    rw [opened_eq (State.inName_of_inAttributes state),
      opened_eq (State.inName_of_inAttributes state'), extents]
  | leaves state state' extents moves closes =>
    refine ⟨?_, .inr ⟨state', moves.1, moves.2, closes⟩⟩
    rw [opened_eq (State.inName_of_inAttributes state), opened_eq (by rw [state']; rfl), extents]

/-- All looks at one character keep the machine in its tag, or the last one leaves it. -/
theorem staysOrLeaves_react {m : Machine} (h : m.state.isOutside = false) (offset : Nat) (c : Char)
    (t : Text) :
    m.StaysOrLeaves (m.react offset c t).1 (m.react offset c t).2 (c :: t) := by
  refine react_keeps (P := fun m' moved => m.StaysOrLeaves m' moved (c :: t)) (fun m' hHere => ?_)
    ⟨rfl, .inl ⟨h, Nat.zero_le 1⟩⟩
  have hInside := (hHere.state.resolve_right fun hLeaves => Nat.lt_irrefl 0 hLeaves.2.1).1
  have hNext := (m'.looks_look offset c t).staysOrLeaves hInside
  exact ⟨hNext.opened.trans hHere.opened, hNext.state⟩

/-- Outside tags, the machine stays outside or opens a tag. -/
theorem react_of_isOutside {m : Machine} (h : m.state.isOutside = true) (offset : Nat) (c : Char)
    (t : Text) :
    (m.react offset c t).1.state.isOutside = true ∧ (m.react offset c t).1.opened = m.opened ∨
      m.react offset c t = (m.goTo (.tagName offset []), 1) ∧ m.state = .text := by
  have hLooks := m.looks_look offset c t
  rcases hLook : m.look offset c t with ⟨m', moved⟩
  rw [hLook] at hLooks
  have hReact (hMoved : moved ≠ 0) : m.react offset c t = (m', moved) := by
    rw [react_eq, hLook]
    exact if_pos hMoved
  cases hLooks with
  | outside state state' extents moves =>
    rw [hReact (Nat.ne_of_gt moves)]
    refine .inl ⟨state', ?_⟩
    rw [opened_eq (State.inName_of_isOutside state),
      opened_eq (State.inName_of_isOutside state'), extents]
  | opens state => exact .inr ⟨hReact Nat.one_ne_zero, state⟩
  | spells state => simp [state, State.isOutside] at h
  | endsName state => simp [state, State.isOutside] at h
  | stays state => simp [State.isOutside_of_inAttributes state] at h
  | leaves state => simp [State.isOutside_of_inAttributes state] at h

/-- A placeholder ends a name that is being read, and otherwise opens no tag and leaves none. -/
theorem passPlaceholder_cases (m : Machine) (index place : Nat) :
    (∃ start name, m.state = .tagName start name ∧
      m.passPlaceholder index place = m.endTagName start name) ∨
      m.state.inName = false ∧ (m.passPlaceholder index place).state.inName = false ∧
        (m.passPlaceholder index place).extents = m.extents ∧
        (m.passPlaceholder index place).state.isOutside = m.state.isOutside := by
  unfold Machine.passPlaceholder
  cases hCase : m.state with
  | text => exact .inr ⟨rfl, by rw [hCase]; rfl, rfl, by rw [hCase]⟩
  | comment => exact .inr ⟨rfl, by rw [hCase]; rfl, rfl, by rw [hCase]⟩
  | closingTag => exact .inr ⟨rfl, by rw [hCase]; rfl, rfl, by rw [hCase]⟩
  | tagName start name => exact .inl ⟨start, name, rfl, rfl⟩
  | attributeList => exact .inr ⟨rfl, rfl, rfl, rfl⟩
  | attributeKey key => exact .inr ⟨rfl, rfl, rfl, rfl⟩
  | awaitingValue subject detached => exact .inr ⟨rfl, rfl, extents_bind _ _ _ _, rfl⟩
  | quotedValue quote value spaced =>
    dsimp only
    split_ifs
    · exact .inr ⟨rfl, rfl, rfl, rfl⟩
    · exact .inr ⟨rfl, rfl, extents_bind _ _ _ _, rfl⟩
  | unquotedValue value => exact .inr ⟨rfl, rfl, extents_bind _ _ _ _, rfl⟩

theorem opened_passPlaceholder (m : Machine) (index place : Nat) :
    (m.passPlaceholder index place).opened = m.opened ∧
      (m.passPlaceholder index place).state.isOutside = m.state.isOutside := by
  rcases m.passPlaceholder_cases index place with
    ⟨start, name, hState, hPass⟩ | ⟨hName, hName', hExtents, hOutside⟩
  · rw [hPass, hState]
    exact ⟨opened_endTagName hState, rfl⟩
  · exact ⟨by rw [opened_eq hName, opened_eq hName', hExtents], hOutside⟩

/-- A character opens at most the tag that starts there. -/
theorem opened_react (m : Machine) (offset : Nat) (c : Char) (t : Text) :
    (m.react offset c t).1.opened = m.opened ∨
    (m.react offset c t).1.opened = offset :: m.opened := by
  by_cases h : m.state.isOutside = true
  · rcases react_of_isOutside h offset c t with ⟨-, hOpened⟩ | ⟨hReact, hText⟩
    · exact .inl hOpened
    · right
      rw [hReact, opened, opened, hText]
      rfl
  · exact .inl (staysOrLeaves_react (Bool.not_eq_true _ ▸ h) offset c t).opened

end Machine

/-- The tags that were opened stay in the list, and later ones start further on. -/
theorem exists_opened_runFrom (regions : List Region) (m : Machine) (skip offset : Nat) (t : Text) :
    ∃ later, (runFrom regions m skip offset t).opened = later ++ m.opened ∧ ∀ s ∈ later,
      offset + skip ≤ s := by
  fun_induction Tokenizer.runFrom regions m skip offset t with
  | case1 => exact ⟨[], rfl, by simp⟩
  | case2 m skip offset c t ih =>
    obtain ⟨later, hOpened, hLater⟩ := ih
    exact ⟨later, hOpened, fun s hs => by have := hLater s hs; omega⟩
  | case3 m offset c t region hRegion ih =>
    obtain ⟨later, hOpened, hLater⟩ := ih
    rw [(m.opened_passPlaceholder region.index offset).1] at hOpened
    exact ⟨later, hOpened, fun s hs => by have := hLater s hs; omega⟩
  | case4 m offset c t hRegion m' moved hMoved ih =>
    obtain ⟨later, hOpened, hLater⟩ := ih
    have hHere := m.opened_react offset c t
    rw [hMoved] at hHere
    rcases hHere with hSame | hOne
    · exact ⟨later, hSame ▸ hOpened, fun s hs => by have := hLater s hs; omega⟩
    · refine ⟨later ++ [offset], by rw [hOpened, hOne, List.append_assoc, List.singleton_append],
        fun s hs => ?_⟩
      rcases List.mem_append.mp hs with hs | hs
      · have := hLater s hs
        omega
      · rw [List.mem_singleton.mp hs, Nat.add_zero]

/-! ## Where the machine stands -/

/-- On its way over the body the machine comes to stand before an offset. -/
inductive Visits (body : Text) (placeholders : List (Int × Int)) : Nat → Machine → Prop
  | start : Visits body placeholders 0 .start
  | placeholder {offset : Nat} {m : Machine} {region : Region} {c : Char} {t : Text}
      (before : Visits body placeholders offset m)
      (here : (regions placeholders).find? (·.start = (offset : Int)) = some region)
      (text : body.drop offset = c :: t) :
      Visits body placeholders (offset + 1 + (region.stop.toNat - (offset + 1)))
        (m.passPlaceholder region.index offset)
  | character {offset : Nat} {m : Machine} {c : Char} {t : Text}
      (before : Visits body placeholders offset m)
      (here : (regions placeholders).find? (·.start = (offset : Int)) = none)
      (text : body.drop offset = c :: t) :
      Visits body placeholders (offset + (m.react offset c t).2) (m.react offset c t).1

variable {body : Text} {placeholders : List (Int × Int)} {offset : Nat} {m : Machine}

namespace Visits

theorem runFrom_eq (h : Visits body placeholders offset m) :
    runFrom (regions placeholders) m 0 offset (body.drop offset) =
      runFrom (regions placeholders) .start 0 0 body := by
  induction h with
  | start => rfl
  | @placeholder offset m region c t before here text ih =>
    rw [← ih, text, runFrom, here]
    dsimp only
    rw [runFrom_skip _ _ (region.stop.toNat - (offset + 1)), ← List.drop_drop, Text.drop_succ text]
  | @character offset m c t before here text ih =>
    have hPos := m.react_pos offset c t
    rw [← ih, text, runFrom, here]
    dsimp only
    have hMoved : offset + (m.react offset c t).2 =
        offset + 1 + ((m.react offset c t).2 - 1) := by omega
    rw [runFrom_skip _ _ ((m.react offset c t).2 - 1), hMoved, ← List.drop_drop,
      Text.drop_succ text]

theorem clear (h : Visits body placeholders offset m) (hPlaced : Placed body placeholders) :
    Clear placeholders offset := by
  induction h with
  | start => exact hPlaced.clear_zero
  | @placeholder offset m region c t before here text ih =>
    have hMem := mem_of_mem_regions (List.mem_of_find?_eq_some here)
    have hStart : region.start = offset := by simpa using List.find?_some here
    have hExtent := hPlaced.nonempty _ hMem
    refine hPlaced.clear_stop hMem ?_
    simp only at hExtent ⊢
    omega
  | @character offset m c t before here text ih =>
    exact hPlaced.clear_move ih (ne_of_find?_eq_none here) text (m.react_pos offset c t)
      (m.react_le offset c t)

theorem written (h : Visits body placeholders offset m) : m.Written body offset := by
  induction h with
  | start => exact Machine.written_start body
  | placeholder before here text ih => exact ih.passPlaceholder _ _ _
  | character before here text ih => exact ih.react text

theorem lt_of_mem_opened (h : Visits body placeholders offset m) : ∀ s ∈ m.opened, s < offset := by
  induction h with
  | start => simp [Machine.opened, Machine.extents, Machine.start, State.pending]
  | @placeholder offset m region c t before here text ih =>
    intro s hs
    rw [(m.opened_passPlaceholder region.index offset).1] at hs
    have := ih s hs
    omega
  | @character offset m c t before here text ih =>
    intro s hs
    have hPos := m.react_pos offset c t
    rcases m.opened_react offset c t with hSame | hOne
    · have := ih s (hSame ▸ hs)
      omega
    · rw [hOne] at hs
      rcases List.mem_cons.mp hs with rfl | hs
      · omega
      · have := ih s hs
        omega

end Visits

/-- The run over the rest of the body ends where the machine stands behind the body. -/
theorem Visits.exists_end {skip : Nat} {t : Text} (h : Visits body placeholders (offset + skip) m)
    (hText : body.drop offset = t) : ∃ stop, body.drop stop = [] ∧
      Visits body placeholders stop (runFrom (regions placeholders) m skip offset t) := by
  fun_induction Tokenizer.runFrom (regions placeholders) m skip offset t with
  | case1 => exact ⟨_, by rw [← List.drop_drop, hText, List.drop_nil], h⟩
  | case2 m skip offset c t ih => exact ih (by rwa [Nat.add_right_comm]) (Text.drop_succ hText)
  | case3 m offset c t region hRegion ih =>
    exact ih (.placeholder h hRegion hText) (Text.drop_succ hText)
  | case4 m offset c t hRegion m' moved hMoved ih =>
    have hPos := m.react_pos offset c t
    rw [Nat.add_zero] at h
    have hNext := Visits.character h hRegion hText
    rw [hMoved] at hPos hNext
    refine ih ?_ (Text.drop_succ hText)
    rwa [show offset + 1 + (moved - 1) = offset + moved by omega]

/-! ## Leaving a tag -/

/-- In the tag that starts at `start` the machine comes to the `>` at `stop`, which ends the tag. -/
def Leaves (body : Text) (placeholders : List (Int × Int)) (start stop : Nat) : Prop :=
  ∃ offset m c t, Visits body placeholders offset m ∧
    (regions placeholders).find? (·.start = (offset : Int)) = none ∧ body.drop offset = c :: t ∧
    m.state.isOutside = false ∧ m.opened.head? = some start ∧
    (m.react offset c t).1.state = .text ∧ stop + 1 = offset + (m.react offset c t).2

/-- A tag is left at a `>` behind its start. -/
theorem Leaves.closes {start stop : Nat} (h : Leaves body placeholders start stop) :
    body[stop]? = some '>' ∧ start < stop := by
  obtain ⟨offset, m, c, t, hVisits, -, hText, hInside, hStart, hState, hStop⟩ := h
  obtain ⟨-, hPos, -, hClose⟩ :=
    (Machine.staysOrLeaves_react hInside offset c t).state.resolve_left fun hStays => by
    rw [hState] at hStays
    cases hStays.1
  have hLt := hVisits.lt_of_mem_opened start (List.mem_of_head? hStart)
  refine ⟨?_, by omega⟩
  rw [← hText, List.getElem?_drop] at hClose
  rwa [show stop = offset + ((m.react offset c t).2 - 1) by omega]

/-- No placeholder reaches over the `>` at which a tag is left. -/
theorem Leaves.clear {start stop : Nat} (h : Leaves body placeholders start stop)
    (hPlaced : Placed body placeholders) : Clear placeholders (stop + 1) := by
  obtain ⟨offset, m, c, t, hVisits, hNone, hText, -, -, -, hStop⟩ := h
  rw [hStop]
  exact (hVisits.character hNone hText).clear hPlaced

/-- The tags that the machine is not in any more were left before the offset. -/
structure Departed (body : Text) (placeholders : List (Int × Int)) (offset : Nat)
    (m : Machine) : Prop where
  outside : m.state.isOutside = true → ∀ s ∈ m.opened, ∃ e < offset, Leaves body placeholders s e
  inside : m.state.isOutside = false → ∃ s earlier, m.opened = s :: earlier ∧
    ∀ s' ∈ earlier, ∃ e < offset, Leaves body placeholders s' e

theorem exists_leaves_mono {s offset offset' : Nat} (hOffset : offset ≤ offset')
    (h : ∃ e < offset, Leaves body placeholders s e) :
    ∃ e < offset', Leaves body placeholders s e := by
  obtain ⟨e, hLt, hLeaves⟩ := h
  exact ⟨e, Nat.lt_of_lt_of_le hLt hOffset, hLeaves⟩

theorem Visits.departed (h : Visits body placeholders offset m) :
    Departed body placeholders offset m := by
  induction h with
  | start => exact ⟨fun _ s hs => (List.not_mem_nil hs).elim, fun hInside => by cases hInside⟩
  | @placeholder offset m region c t before here text ih =>
    obtain ⟨hOpened, hOutside⟩ := m.opened_passPlaceholder region.index offset
    constructor <;> rw [hOutside, hOpened]
    · exact fun hState s hs => exists_leaves_mono (by omega) (ih.outside hState s hs)
    · intro hState
      obtain ⟨s, earlier, hSame, hLeft⟩ := ih.inside hState
      exact ⟨s, earlier, hSame, fun s' hs' => exists_leaves_mono (by omega) (hLeft s' hs')⟩
  | @character offset m c t before here text ih =>
    by_cases hState : m.state.isOutside = true
    · have hLeft : ∀ s ∈ m.opened, ∃ e < offset + (m.react offset c t).2,
          Leaves body placeholders s e :=
        fun s hs => exists_leaves_mono (by omega) (ih.outside hState s hs)
      rcases Machine.react_of_isOutside hState offset c t with ⟨hState', hOpened⟩ | ⟨hReact, hText⟩
      · refine ⟨fun _ => hOpened ▸ hLeft, fun hInside => ?_⟩
        rw [hState'] at hInside
        cases hInside
      · have hOpened : (m.react offset c t).1.opened = offset :: m.opened := by
          rw [hReact, Machine.opened, Machine.opened, hText]
          rfl
        refine ⟨fun hOutside => ?_, fun _ => ⟨offset, m.opened, hOpened, hLeft⟩⟩
        rw [hReact] at hOutside
        cases hOutside
    · have hInside : m.state.isOutside = false := Bool.not_eq_true _ ▸ hState
      obtain ⟨s, earlier, hOpened, hEarlier⟩ := ih.inside hInside
      have hStep := Machine.staysOrLeaves_react hInside offset c t
      have hLeft : ∀ s' ∈ earlier, ∃ e < offset + (m.react offset c t).2,
          Leaves body placeholders s' e :=
        fun s' hs' => exists_leaves_mono (by omega) (hEarlier s' hs')
      refine ⟨fun hOutside => ?_, fun _ => ⟨s, earlier, hStep.opened.trans hOpened, hLeft⟩⟩
      rw [hStep.opened, hOpened]
      obtain ⟨hText, hPos, -, -⟩ := hStep.state.resolve_left (by simp [hOutside])
      refine List.forall_mem_cons.mpr ⟨⟨offset + (m.react offset c t).2 - 1, by omega, ?_⟩, hLeft⟩
      exact ⟨offset, m, c, t, before, here, text, hInside, by rw [hOpened]; rfl, hText, by omega⟩

/-! ## The `>` of a tag -/

namespace State

/-- Whether a quoted value is being read. -/
def inQuotes : State → Bool
  | .quotedValue _ _ _ => true
  | _ => false

end State

/-- In a tag, and in no quoted value, the machine leaves the tag at a `>`. -/
theorem Machine.react_close {m : Machine} (hInside : m.state.isOutside = false)
    (hPlain : m.state.inQuotes = false) (offset : Nat) (t : Text) :
    (m.react offset '>' t).1.state = .text ∧ (m.react offset '>' t).2 = 1 := by
  have hBlank : isBlank '>' = false := by decide
  have hAlphanumeric : isAlphanumeric '>' = false := by decide +kernel
  cases hState : m.state with
  | text => simp [hState, State.isOutside] at hInside
  | comment => simp [hState, State.isOutside] at hInside
  | closingTag => simp [hState, State.isOutside] at hInside
  | quotedValue quote value spaced => simp [hState, State.inQuotes] at hPlain
  | tagName start name => simp [react_eq, look, hState, hAlphanumeric, hBlank, endTagName, goTo]
  | attributeList => simp [react_eq, look, hState, hBlank, goTo]
  | attributeKey key => simp [react_eq, look, hState, hBlank, goTo, endsAttribute]
  | awaitingValue subject detached => simp [react_eq, look, hState, hBlank, goTo, endsAttribute]
  | unquotedValue value =>
    simp [react_eq, look, hState, hBlank, goTo, endsAttribute, state_endValue]

/-- From an offset the machine passes over a place, with a placeholder or with the
characters of its looks. -/
inductive Reaches (body : Text) (placeholders : List (Int × Int)) (offset : Nat) (m : Machine)
    (place : Nat) : Prop
  | placeholder {region : Region}
      (here : (regions placeholders).find? (·.start = (offset : Int)) = some region)
      (lt : place < offset + 1 + (region.stop.toNat - (offset + 1)))
  | character {c : Char} {t : Text}
      (here : (regions placeholders).find? (·.start = (offset : Int)) = none)
      (text : body.drop offset = c :: t) (lt : place < offset + (m.react offset c t).2)

/-- From a place where the machine stands, it comes to pass over each place that is ahead. -/
theorem Visits.exists_reaches (h : Visits body placeholders offset m) {place : Nat}
    (hLe : offset ≤ place) (hLt : place < body.length) :
    ∃ offset' m', Visits body placeholders offset' m' ∧ m.opened ⊆ m'.opened ∧
      offset' ≤ place ∧ Reaches body placeholders offset' m' place := by
  -- A place where the machine stands is passed next.
  have hHere {offset : Nat} {m : Machine} (hLt : offset < body.length) :
      Reaches body placeholders offset m offset := by
    cases hRegion : (regions placeholders).find? (·.start = (offset : Int)) with
    | some region => exact .placeholder hRegion (by omega)
    | none =>
      have hText := List.drop_eq_getElem_cons hLt
      have hPos := m.react_pos offset body[offset] (body.drop (offset + 1))
      exact .character hRegion hText (by omega)
  induction place, hLe using Nat.le_induction with
  | base => exact ⟨offset, m, h, List.Subset.refl _, Nat.le_refl _, hHere hLt⟩
  | succ place hLe ih =>
    obtain ⟨offset', m', hVisits, hOpened, hLe', hReaches⟩ := ih (by omega)
    cases hReaches with
    | @placeholder region here lt =>
      by_cases hMore : place + 1 < offset' + 1 + (region.stop.toNat - (offset' + 1))
      · exact ⟨offset', m', hVisits, hOpened, by omega, .placeholder here hMore⟩
      · have hNext := hVisits.placeholder here (List.drop_eq_getElem_cons (by omega))
        rw [show offset' + 1 + (region.stop.toNat - (offset' + 1)) = place + 1 by omega] at hNext
        refine ⟨place + 1, _, hNext, ?_, Nat.le_refl _, hHere hLt⟩
        rwa [(m'.opened_passPlaceholder region.index offset').1]
    | @character c t here text lt =>
      by_cases hMore : place + 1 < offset' + (m'.react offset' c t).2
      · exact ⟨offset', m', hVisits, hOpened, by omega, .character here text hMore⟩
      · have hNext := hVisits.character here text
        rw [show offset' + (m'.react offset' c t).2 = place + 1 by omega] at hNext
        refine ⟨place + 1, _, hNext, ?_, Nat.le_refl _, hHere hLt⟩
        rcases m'.opened_react offset' c t with hSame | hOne
        · rwa [hSame]
        · rw [hOne]
          exact List.subset_cons_of_subset _ hOpened

/-- A `>` stands outside placeholders and quoted values. -/
structure PlainClose (body : Text) (placeholders : List (Int × Int)) (stop : Nat) : Prop where
  closes : body[stop]? = some '>'
  clear : Clear placeholders stop
  unquoted : ∀ m, Visits body placeholders stop m → m.state.inQuotes = false

/-- A tag that was opened is left at the next plain `>` at the latest. -/
theorem Visits.exists_leaves (h : Visits body placeholders offset m)
    (hPlaced : Placed body placeholders) {start stop : Nat} (hOpened : start ∈ m.opened)
    (hLe : offset ≤ stop) (hClose : PlainClose body placeholders stop) :
    ∃ e ≤ stop, Leaves body placeholders start e := by
  obtain ⟨hLt, -⟩ := List.getElem?_eq_some_iff.mp hClose.closes
  obtain ⟨offset', m', hVisits, hSubset, hLe', hReaches⟩ := h.exists_reaches hLe hLt
  by_cases hOutside : m'.state.isOutside = true
  · obtain ⟨e, hBefore, hLeaves⟩ := hVisits.departed.outside hOutside start (hSubset hOpened)
    exact ⟨e, by omega, hLeaves⟩
  have hInside : m'.state.isOutside = false := Bool.not_eq_true _ ▸ hOutside
  obtain ⟨s, earlier, hSame, hEarlier⟩ := hVisits.departed.inside hInside
  rcases List.mem_cons.mp (hSame ▸ hSubset hOpened) with rfl | hMem
  · cases hReaches with
    | @placeholder region here lt =>
      -- The `>` would stand in the placeholder.
      have hMem := mem_of_mem_regions (List.mem_of_find?_eq_some here)
      have hStart : region.start = offset' := by simpa using List.find?_some here
      have hDollar := (hPlaced.opens _ hMem).2
      have hClear := hClose.clear _ hMem
      rw [hStart, Int.toNat_natCast] at hDollar
      rcases Nat.eq_or_lt_of_le hLe' with rfl | hLt'
      · rw [hClose.closes] at hDollar
        cases hDollar
      · simp only [hStart] at hClear
        omega
    | @character c t here text lt =>
      have hHead : m'.opened.head? = some start := by rw [hSame]; rfl
      rcases Nat.eq_or_lt_of_le hLe' with rfl | hLt'
      · obtain rfl : c = '>' :=
          Option.some.inj ((Text.getElem?_of_drop text).symm.trans hClose.closes)
        obtain ⟨hState, hMoved⟩ := Machine.react_close hInside (hClose.unquoted _ hVisits) offset' t
        exact ⟨offset', Nat.le_refl _, offset', m', '>', t, hVisits, here, text, hInside, hHead,
          hState, by rw [hMoved]⟩
      · have hStep := (Machine.staysOrLeaves_react hInside offset' c t).state
        obtain ⟨hState, -, hMoved, -⟩ := hStep.resolve_left fun hStays => by omega
        exact ⟨stop, Nat.le_refl _, offset', m', c, t, hVisits, here, text, hInside, hHead,
          hState, by omega⟩
  · obtain ⟨e, hBefore, hLeaves⟩ := hEarlier start hMem
    exact ⟨e, by omega, hLeaves⟩

/-! ## The names of the tags -/

/-- The longest run of name characters behind a `<`. -/
def nameRun (body : Text) (start : Nat) : Text := (body.drop (start + 1)).takeWhile isTagNameChar

namespace Machine

/-- The tags are named by runs of name characters, and what was read of the next name is
part of one. -/
structure Named (body : Text) (m : Machine) : Prop where
  reading : ∀ start name, m.state = .tagName start name → ∀ c ∈ name, isTagNameChar c = true
  ends : ∀ e ∈ m.extents, e.2 = e.1 + 1 + (nameRun body e.1).length

namespace Named

variable {m' : Machine} {t : Text} {c : Char}

theorem keep (h : m.Named body) (hExtents : m'.extents = m.extents)
    (hState : m'.state.inName = false) :
    m'.Named body where
  reading start name hName := by simp [hName, State.inName] at hState
  ends := hExtents ▸ h.ends

theorem endTagName (h : m.Named body) (hWritten : m.Written body offset) {start : Nat} {name : Text}
    (hState : m.state = .tagName start name)
    (hEnd : ∀ c ∈ (body.drop offset).head?, isTagNameChar c = false) :
    (m.endTagName start name).Named body where
  reading := nofun
  ends := by
    rw [extents_endTagName]
    refine List.forall_mem_cons.mpr ⟨?_, h.ends⟩
    have hName := hWritten.state
    rw [hState] at hName
    have hRun : ∀ c ∈ name.reverse, isTagNameChar c = true := fun c hc =>
      h.reading start name hState c (List.mem_reverse.mp hc)
    have hRest : (body.drop offset).takeWhile isTagNameChar = [] := by
      cases hHere : body.drop offset with
      | nil => rfl
      | cons d t => exact List.takeWhile_cons_of_neg (by simp [hEnd d (by rw [hHere]; rfl)])
    rw [nameRun, Text.drop_succ hName, List.takeWhile_append_of_pos hRun, hRest, List.append_nil,
      List.length_reverse]

theorem look (h : m.Named body) (hWritten : m.Written body offset)
    (hText : body.drop offset = c :: t) :
    (m.look offset c t).1.Named body := by
  have hLooks := m.looks_look offset c t
  generalize m.look offset c t = result at hLooks ⊢
  cases hLooks with
  | outside state state' extents moves => exact h.keep extents (State.inName_of_isOutside state')
  | opens state =>
    refine ⟨fun start name hName => ?_, h.ends⟩
    obtain ⟨-, rfl⟩ := State.tagName.inj hName
    simp
  | spells state hc =>
    refine ⟨fun start name hName => ?_, h.ends⟩
    obtain ⟨rfl, rfl⟩ := State.tagName.inj hName
    exact List.forall_mem_cons.mpr ⟨hc, h.reading _ _ state⟩
  | endsName state hc =>
    refine h.endTagName hWritten state fun d hd => ?_
    rw [hText] at hd
    obtain rfl := Option.some.inj hd
    exact hc
  | stays state state' extents => exact h.keep extents (State.inName_of_inAttributes state')
  | leaves state state' extents moves closes => exact h.keep extents (by rw [state']; rfl)

theorem react (h : m.Named body) (hWritten : m.Written body offset)
    (hText : body.drop offset = c :: t) :
    (m.react offset c t).1.Named body :=
  (react_keeps (P := fun m moved => m.Written body (offset + moved) ∧ m.Named body)
    (fun m hHere => ⟨hHere.1.step hText (m.step_look offset c t), hHere.2.look hHere.1 hText⟩)
      ⟨hWritten, h⟩).2

end Named

end Machine

theorem Visits.named (h : Visits body placeholders offset m) (hPlaced : Placed body placeholders) :
    m.Named body := by
  induction h with
  | start => exact ⟨nofun, by simp [Machine.extents, Machine.start]⟩
  | @placeholder offset m region c t before here text ih =>
    have hMem := mem_of_mem_regions (List.mem_of_find?_eq_some here)
    have hStart : region.start = offset := by simpa using List.find?_some here
    have hDollar := (hPlaced.opens _ hMem).2
    rw [hStart, Int.toNat_natCast] at hDollar
    rcases m.passPlaceholder_cases region.index offset with
      ⟨start, name, hState, hPass⟩ | ⟨-, hName, hExtents, -⟩
    · rw [hPass]
      refine ih.endTagName before.written hState fun d hd => ?_
      rw [List.head?_drop] at hd
      obtain rfl := Option.some.inj (hDollar.symm.trans hd)
      decide
    · exact ih.keep hExtents hName
  | character before here text ih => exact ih.react before.written text

theorem exists_visits_end (body : Text) (placeholders : List (Int × Int)) :
    ∃ stop, body.drop stop = [] ∧
    Visits body placeholders stop (runFrom (regions placeholders) .start 0 0 body) :=
  (show Visits body placeholders (0 + 0) .start from .start).exists_end rfl

namespace Machine

theorem inName_finish (m : Machine) : m.finish.state.inName = false := by
  unfold finish
  split
  · rfl
  · rename_i hOther
    cases hState : m.state with
    | tagName start name => exact absurd hState (hOther start name)
    | _ => rfl

theorem Named.finish (h : m.Named body) (hWritten : m.Written body offset)
    (hEnd : body.drop offset = []) :
    m.finish.Named body := by
  unfold Machine.finish
  split
  · rename_i start name hState
    exact h.endTagName hWritten hState (by simp [hEnd])
  · exact h

end Machine

theorem mem_opened_iff {start : Nat} :
    start ∈ (runFrom (regions placeholders) .start 0 0 body).opened ↔
    ∃ tag ∈ (tokenize body placeholders).tags, tag.start = start := by
  rw [← Machine.opened_finish, Machine.opened_eq (Machine.inName_finish _),
    Machine.extents, List.map_map, List.mem_map]
  simp only [tokenize, List.mem_reverse]
  rfl

/-- A tag that is reported is named by the run of name characters behind its `<`. -/
theorem Placed.name_eq (h : Placed body placeholders) :
    ∀ tag ∈ (tokenize body placeholders).tags, tag.name = nameRun body tag.start := by
  intro tag hTag
  obtain ⟨stop, hEnd, hVisits⟩ := exists_visits_end body placeholders
  have hNamed := (hVisits.named h).finish hVisits.written hEnd
  have hExtent := hNamed.ends tag.extent (List.mem_map_of_mem (List.mem_reverse.mp hTag))
  have hLength : (nameRun body tag.start).length = tag.name.length := by
    simp only [Tag.extent] at hExtent
    omega
  have hRun : nameRun body tag.start =
      (body.drop (tag.start + 1)).take (nameRun body tag.start).length :=
    List.prefix_iff_eq_take.mp (List.takeWhile_prefix _)
  have hName := (tokenize_tags_written body placeholders tag hTag).name_eq
  rw [Text.slice, Nat.add_sub_cancel_left] at hName
  rw [hRun, hLength, hName]

end Tokenizer

end TemplateCheck
