import Mathlib.Data.Nat.Find
import Mathlib.Order.Monotone.Basic
import TemplateCheck.Proofs.Markup.Visits

/-!
# The loop of the tokenizer, round by round

A round passes one placeholder or looks once at one character. The loop over a body comes to its end
within three rounds for each character, whatever the regions of the placeholders are (`finishes`).

1. A round never goes back, and three rounds move on (`Stand.lt_offset_iterate`): a state that ends
   before a character leaves it to the next state, and after two such states the character is read.
2. Where the run comes to stand, the loop does too (`Visits.exists_standAfter`), so both give the
   same machine.
3. In the attributes of a tag there is a tag, whatever a round does (`Machine.HasTag.look`), and
   outside tags none is changed or bound to (`Machine.Step.eq_of_isOutside`).
-/

namespace TemplateCheck

namespace Tokenizer

/-! ## Rounds -/

/-- Where the loop over a body stands: with a machine before an offset. -/
structure Stand where
  machine : Machine
  offset : Nat
deriving DecidableEq, Repr

/-- One round of the loop: the machine passes the placeholder that starts at the offset, or looks
once at the character there. Behind the body nothing is left to do. -/
def Stand.round (body : Text) (regions : List Region) (stand : Stand) : Stand :=
  match body.drop stand.offset with
  | [] => stand
  | c :: t =>
    match regions.find? (·.start = (stand.offset : Int)) with
    | some region =>
      ⟨stand.machine.passPlaceholder region.index stand.offset,
        max region.stop.toNat (stand.offset + 1)⟩
    | none =>
      let (m, moved) := stand.machine.look stand.offset c t
      ⟨m, stand.offset + moved⟩

/-- Where the loop stands after a number of rounds. -/
def standAfter (body : Text) (placeholders : List (Int × Int)) (rounds : Nat) : Stand :=
  (Stand.round body (regions placeholders))^[rounds] ⟨.start, 0⟩

namespace Stand

variable {body t : Text} {regions : List Region} {stand : Stand} {c : Char}

theorem round_of_le (h : body.length ≤ stand.offset) : stand.round body regions = stand := by
  rw [round, List.drop_eq_nil_of_le h]

theorem round_placeholder {region : Region} (hText : body.drop stand.offset = c :: t)
    (h : regions.find? (·.start = (stand.offset : Int)) = some region) :
    stand.round body regions =
      ⟨stand.machine.passPlaceholder region.index stand.offset,
        max region.stop.toNat (stand.offset + 1)⟩ := by
  rw [round, hText]
  dsimp only
  rw [h]

theorem round_look (hText : body.drop stand.offset = c :: t)
    (h : regions.find? (·.start = (stand.offset : Int)) = none) :
    stand.round body regions =
      ⟨(stand.machine.look stand.offset c t).1,
        stand.offset + (stand.machine.look stand.offset c t).2⟩ := by
  rw [round, hText]
  dsimp only
  rw [h]

/-- A round at an offset of the body passes the placeholder there or looks at the character. -/
theorem round_cases (body : Text) (regions : List Region) (stand : Stand) :
    body.length ≤ stand.offset ∨ ∃ c t, body.drop stand.offset = c :: t ∧
      ((∃ region, regions.find? (·.start = (stand.offset : Int)) = some region) ∨
        regions.find? (·.start = (stand.offset : Int)) = none) := by
  cases hText : body.drop stand.offset with
  | nil => exact .inl (List.drop_eq_nil_iff.mp hText)
  | cons c t =>
    refine .inr ⟨c, t, rfl, ?_⟩
    cases regions.find? (·.start = (stand.offset : Int)) with
    | none => exact .inr rfl
    | some region => exact .inl ⟨region, rfl⟩

theorem offset_le_round (body : Text) (regions : List Region) (stand : Stand) :
    stand.offset ≤ (stand.round body regions).offset := by
  rcases round_cases body regions stand with hEnd | ⟨c, t, hText, ⟨region, hRegion⟩ | hNone⟩
  · rw [round_of_le hEnd]
  · rw [round_placeholder hText hRegion]
    exact Nat.le_trans (Nat.le_succ _) (Nat.le_max_right _ _)
  · rw [round_look hText hNone]
    exact Nat.le_add_right _ _

theorem offset_le_iterate (body : Text) (regions : List Region) (stand : Stand) (n : Nat) :
    stand.offset ≤ ((Stand.round body regions)^[n] stand).offset := by
  induction n with
  | zero => exact Nat.le_refl _
  | succ n ih =>
    rw [Function.iterate_succ_apply']
    exact Nat.le_trans ih (offset_le_round body regions _)

/-- All looks at one character are at most three rounds. -/
theorem exists_iterate_react (stand : Stand) (hText : body.drop stand.offset = c :: t)
    (h : regions.find? (·.start = (stand.offset : Int)) = none) :
    ∃ n ≤ 3, (Stand.round body regions)^[n] stand =
      ⟨(stand.machine.react stand.offset c t).1,
        stand.offset + (stand.machine.react stand.offset c t).2⟩ := by
  obtain ⟨m, offset⟩ := stand
  have hLook : ∀ m : Machine, (Stand.mk m offset).round body regions =
      ⟨(m.look offset c t).1, offset + (m.look offset c t).2⟩ := fun m => round_look hText h
  -- A look that moves no further leaves the loop at the offset, with the next state.
  have hAgain : ∀ {m : Machine}, (m.look offset c t).2 = 0 →
      (Stand.mk m offset).round body regions = ⟨(m.look offset c t).1, offset⟩ := by
    intro m hMoved
    rw [hLook, hMoved, Nat.add_zero]
  rw [Machine.react_eq]
  dsimp only
  split_ifs with hFirst hSecond
  · exact ⟨1, by decide, hLook m⟩
  · refine ⟨2, by decide, ?_⟩
    rw [Function.iterate_succ_apply, Function.iterate_one,
      hAgain (Decidable.not_not.mp hFirst), hLook]
  · refine ⟨3, Nat.le_refl 3, ?_⟩
    rw [Function.iterate_succ_apply, Function.iterate_succ_apply, Function.iterate_one,
      hAgain (Decidable.not_not.mp hFirst), hAgain (Decidable.not_not.mp hSecond), hLook]

/-- Three rounds move on. -/
theorem lt_offset_iterate (regions : List Region) (h : stand.offset < body.length) :
    stand.offset < ((Stand.round body regions)^[3] stand).offset := by
  -- It is enough that some of the three rounds move on.
  have hLater : ∀ n ≤ 3, stand.offset < ((Stand.round body regions)^[n] stand).offset →
      stand.offset < ((Stand.round body regions)^[3] stand).offset := by
    intro n hn hMoves
    have hRest := offset_le_iterate body regions ((Stand.round body regions)^[n] stand) (3 - n)
    rw [← Function.iterate_add_apply, Nat.sub_add_cancel hn] at hRest
    exact Nat.lt_of_lt_of_le hMoves hRest
  rcases round_cases body regions stand with hEnd | ⟨c, t, hText, ⟨region, hRegion⟩ | hNone⟩
  · omega
  · refine hLater 1 (by decide) ?_
    rw [Function.iterate_one, round_placeholder hText hRegion]
    exact Nat.lt_of_lt_of_le (Nat.lt_succ_self _) (Nat.le_max_right _ _)
  · obtain ⟨n, hn, hReact⟩ := exists_iterate_react stand hText hNone
    refine hLater n hn ?_
    rw [hReact]
    exact Nat.lt_add_of_pos_right (stand.machine.react_pos stand.offset c t)

end Stand

/-! ## The loop -/

section

variable {body : Text} {placeholders : List (Int × Int)} {offset : Nat} {m : Machine}

theorem standAfter_succ (body : Text) (placeholders : List (Int × Int)) (n : Nat) :
    standAfter body placeholders (n + 1) =
      (standAfter body placeholders n).round body (regions placeholders) :=
  Function.iterate_succ_apply' _ _ _

theorem standAfter_add (body : Text) (placeholders : List (Int × Int)) (more n : Nat) :
    standAfter body placeholders (more + n) =
      (Stand.round body (regions placeholders))^[more] (standAfter body placeholders n) :=
  Function.iterate_add_apply _ _ _ _

theorem monotone_standAfter (body : Text) (placeholders : List (Int × Int)) :
    Monotone fun n => (standAfter body placeholders n).offset := by
  refine monotone_nat_of_le_succ fun n => ?_
  rw [standAfter_succ]
  exact Stand.offset_le_round _ _ _

theorem lt_standAfter_three {n : Nat} (h : (standAfter body placeholders n).offset < body.length) :
    (standAfter body placeholders n).offset < (standAfter body placeholders (n + 3)).offset := by
  rw [Nat.add_comm n, standAfter_add]
  exact Stand.lt_offset_iterate _ h

theorem standAfter_of_le {n n' : Nat} (h : body.length ≤ (standAfter body placeholders n).offset)
    (hLe : n ≤ n') :
    standAfter body placeholders n' = standAfter body placeholders n := by
  induction n', hLe using Nat.le_induction with
  | base => rfl
  | succ n' _ ih => rw [standAfter_succ, ih, Stand.round_of_le h]

theorem length_le_standAfter (body : Text) (placeholders : List (Int × Int)) :
    body.length ≤ (standAfter body placeholders (3 * body.length)).offset := by
  have hSteps : ∀ n, min n body.length ≤ (standAfter body placeholders (3 * n)).offset := by
    intro n
    induction n with
    | zero => exact Nat.le_trans (Nat.min_le_left _ _) (Nat.zero_le _)
    | succ n ih =>
      have hLe : (standAfter body placeholders (3 * n)).offset ≤
          (standAfter body placeholders (3 * n + 3)).offset :=
        monotone_standAfter body placeholders (Nat.le_add_right _ 3)
      rw [Nat.mul_succ]
      by_cases hInside : (standAfter body placeholders (3 * n)).offset < body.length
      · have hMoves := lt_standAfter_three hInside
        omega
      · omega
  simpa using hSteps body.length

/-- Where the run comes to stand, the loop does too. -/
theorem Visits.exists_standAfter (h : Visits body placeholders offset m) :
    ∃ n, standAfter body placeholders n = ⟨m, offset⟩ := by
  induction h with
  | start => exact ⟨0, rfl⟩
  | @placeholder offset m region c t before here text ih =>
    obtain ⟨n, hStand⟩ := ih
    refine ⟨n + 1, ?_⟩
    rw [standAfter_succ, hStand, Stand.round_placeholder text here]
    simp only [Stand.mk.injEq, true_and]
    omega
  | @character offset m c t before here text ih =>
    obtain ⟨n, hStand⟩ := ih
    obtain ⟨more, -, hReact⟩ := Stand.exists_iterate_react ⟨m, offset⟩ text here
    exact ⟨more + n, by rw [standAfter_add, hStand, hReact]⟩

/-- The loop ends within three rounds for each character, with the machine of the run. -/
theorem exists_standAfter_end (body : Text) (placeholders : List (Int × Int)) :
    ∃ rounds ≤ 3 * body.length,
    (∀ n < rounds, (standAfter body placeholders n).offset < body.length) ∧
      body.length ≤ (standAfter body placeholders rounds).offset ∧
      (standAfter body placeholders rounds).machine =
        runFrom (regions placeholders) .start 0 0 body := by
  have hEnds : ∃ n, body.length ≤ (standAfter body placeholders n).offset :=
    ⟨_, length_le_standAfter body placeholders⟩
  refine ⟨Nat.find hEnds, Nat.find_min' hEnds (length_le_standAfter body placeholders),
    fun n hn => Nat.lt_of_not_le (Nat.find_min hEnds hn), Nat.find_spec hEnds, ?_⟩
  obtain ⟨stop, hStop, hVisits⟩ := exists_visits_end body placeholders
  obtain ⟨n, hStand⟩ := hVisits.exists_standAfter
  have hBehind : body.length ≤ (standAfter body placeholders n).offset := by
    rw [hStand]
    exact List.drop_eq_nil_iff.mp hStop
  rw [← standAfter_of_le (Nat.find_spec hEnds) (Nat.find_min' hEnds hBehind), hStand]

end

/-! ## The tag that is being read -/

namespace Machine

variable {m : Machine}

/-- The tag that is being read: the one whose name is not complete yet, or else the latest one. -/
def currentTag? (m : Machine) : Option Tag :=
  match m.state with
  | .tagName start name => some ⟨name.reverse, start, [], [], false⟩
  | _ => m.tags.head?

/-- In the attributes of a tag there is a tag. -/
def HasTag (m : Machine) : Prop := m.state.inAttributes = true → m.tags ≠ []

theorem HasTag.isSome_currentTag? (h : m.HasTag) (hInside : m.state.isOutside = false) :
    m.currentTag?.isSome := by
  unfold currentTag?
  split
  · rfl
  · rename_i hName
    have hAttributes : m.state.inAttributes = true := by
      unfold State.inAttributes
      cases hState : m.state with
      | tagName start name => exact absurd hState (hName start name)
      | _ => simp_all [State.isOutside, State.inName]
    exact List.isSome_head?.mpr (h hAttributes)

theorem tags_eq_nil_iff (m : Machine) : m.tags = [] ↔ m.extents = [] := by
  rw [extents, List.map_eq_nil_iff]

theorem HasTag.look (h : m.HasTag) (offset : Nat) (c : Char) (t : Text) :
    (m.look offset c t).1.HasTag := by
  have hLooks := m.looks_look offset c t
  rcases hLook : m.look offset c t with ⟨m', moved⟩
  rw [hLook] at hLooks
  intro hInside
  cases hLooks with
  | outside state state' => simp [State.isOutside_of_inAttributes hInside] at state'
  | opens => cases hInside
  | spells => cases hInside
  | endsName => exact List.cons_ne_nil _ _
  | stays state state' extents =>
    have hTags := h state
    rwa [Ne, tags_eq_nil_iff, ← extents, ← tags_eq_nil_iff] at hTags
  | leaves state state' =>
    rw [state'] at hInside
    cases hInside

theorem HasTag.passPlaceholder (h : m.HasTag) (index place : Nat) :
    (m.passPlaceholder index place).HasTag := by
  rcases m.passPlaceholder_cases index place with
    ⟨start, name, -, hPass⟩ | ⟨hName, -, hExtents, hOutside⟩
  · rw [hPass]
    exact fun _ => List.cons_ne_nil _ _
  · intro hInside
    have hBefore : m.state.inAttributes = true := by
      rw [State.inAttributes, ← hOutside, State.isOutside_of_inAttributes hInside, hName]
      rfl
    have hTags := h hBefore
    rwa [Ne, tags_eq_nil_iff, ← hExtents, ← tags_eq_nil_iff] at hTags

theorem Step.eq_of_isOutside {m' : Machine} {offset moved : Nat} {c : Char} {t : Text}
    (hStep : m.Step offset c t m' moved) (h : m.state.isOutside = true) :
    m'.tags = m.tags ∧ m'.bound = m.bound := by
  cases hStep with
  | passes | opensComment | closesComment | opensClosingTag | closesClosingTag | opensTag =>
    exact ⟨rfl, rfl⟩
  | spellsName state | endsName state | skipsBlank state | closesTag state | closesItself state
  | startsKey state | endsKey state | leavesKey state | spellsKey state | detachesValue state
  | opensQuote state | leavesValue state | startsValue state | closesQuote state | readsQuoted state
  | endsValue state | readsUnquoted state =>
    rw [state] at h
    cases h

theorem passPlaceholder_of_isOutside (h : m.state.isOutside = true) (index place : Nat) :
    m.passPlaceholder index place = m := by
  unfold Machine.passPlaceholder
  cases hState : m.state with
  | text => rfl
  | comment => rfl
  | closingTag => rfl
  | _ =>
    rw [hState] at h
    cases h

end Machine

theorem hasTag_standAfter (body : Text) (placeholders : List (Int × Int)) (n : Nat) :
    (standAfter body placeholders n).machine.HasTag := by
  induction n with
  | zero => exact fun hInside => by cases hInside
  | succ n ih =>
    rw [standAfter_succ]
    rcases Stand.round_cases body (regions placeholders) (standAfter body placeholders n) with
      hEnd | ⟨c, t, hText, ⟨region, hRegion⟩ | hNone⟩
    · rwa [Stand.round_of_le hEnd]
    · rw [Stand.round_placeholder hText hRegion]
      exact ih.passPlaceholder _ _
    · rw [Stand.round_look hText hNone]
      exact ih.look _ _ _

/-- Outside tags, a round changes no tag and binds nothing. -/
theorem round_of_isOutside {stand : Stand} (h : stand.machine.state.isOutside = true) (body : Text)
    (regions : List Region) : (stand.round body regions).machine.tags = stand.machine.tags ∧
      (stand.round body regions).machine.bound = stand.machine.bound := by
  rcases Stand.round_cases body regions stand with hEnd | ⟨c, t, hText, ⟨region, hRegion⟩ | hNone⟩
  · rw [Stand.round_of_le hEnd]
    exact ⟨rfl, rfl⟩
  · rw [Stand.round_placeholder hText hRegion, Machine.passPlaceholder_of_isOutside h]
    exact ⟨rfl, rfl⟩
  · rw [Stand.round_look hText hNone]
    exact (Machine.step_look _ _ _ _).eq_of_isOutside h

/-! ## The end of the loop -/

/-- The loop over a body comes to its end, and uses a tag only where there is one. -/
structure Finishes (body : Text) (placeholders : List (Int × Int)) : Prop where
  /-- The loop never goes back. -/
  monotone : Monotone fun n => (standAfter body placeholders n).offset
  /-- At an offset of the body there are at most three rounds. -/
  moves_on : ∀ n, (standAfter body placeholders n).offset < body.length →
    (standAfter body placeholders n).offset < (standAfter body placeholders (n + 3)).offset
  /-- After at most three rounds for each character of the body it is read, by the machine that the
  tokens are taken from. -/
  ends : ∃ rounds ≤ 3 * body.length,
    (∀ n < rounds, (standAfter body placeholders n).offset < body.length) ∧
      body.length ≤ (standAfter body placeholders rounds).offset ∧
      (standAfter body placeholders rounds).machine = runFrom (regions placeholders) .start 0 0 body
  /-- In a tag, the tag that is being read is there. -/
  isSome_currentTag? : ∀ n, (standAfter body placeholders n).machine.state.isOutside = false →
    (standAfter body placeholders n).machine.currentTag?.isSome
  /-- Outside tags, no tag is changed or bound to. -/
  outside : ∀ n, (standAfter body placeholders n).machine.state.isOutside = true →
    (standAfter body placeholders (n + 1)).machine.tags =
        (standAfter body placeholders n).machine.tags ∧
      (standAfter body placeholders (n + 1)).machine.bound =
        (standAfter body placeholders n).machine.bound

/-- Over any body, with the regions of the placeholders in any order and at any places,
the loop finishes. -/
theorem finishes (body : Text) (placeholders : List (Int × Int)) : Finishes body placeholders where
  monotone := monotone_standAfter body placeholders
  moves_on _ := lt_standAfter_three
  ends := exists_standAfter_end body placeholders
  isSome_currentTag? n := (hasTag_standAfter body placeholders n).isSome_currentTag?
  outside n hOutside := by
    rw [standAfter_succ]
    exact round_of_isOutside hOutside _ _

/-- Three rounds may be needed: behind `<a`, the name and the list of attributes end
where a key is read. -/
example : ((List.range 6).map fun n => (standAfter "<a@".toList [] n).offset) =
      [0, 1, 2, 2, 2, 3] := by decide +kernel

end Tokenizer

end TemplateCheck
