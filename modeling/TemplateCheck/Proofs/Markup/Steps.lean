import Mathlib.Tactic.Common
import TemplateCheck.Markup.Tokenizer

/-!
# What the tokenizer does at a character

`Machine.Step` names what a look can do, with what it found at the character. An invariant of the
tokenizer is proved for each of these steps, and for the looks at one character together by
`Machine.react_keeps`.

1. A look does one of these steps (`Machine.step_look`).
2. Of the looks at one character all but the last leave the machine where it stands
   (`Machine.react_eq`), so what each look keeps is kept by them together (`Machine.react_keeps`).
3. The last one moves on (`Machine.react_pos`): a step that stays ends a state before the character
   or starts a key, and a key that has just started goes on.
-/

namespace TemplateCheck

namespace Tokenizer

/-- Whether the character may stand in the name of a tag. -/
def isTagNameChar (c : Char) : Bool := isAlphanumeric c || c = '-' || c = '_'

/-- Whether no tag is being read. -/
def State.isOutside : State → Bool
  | .text => true
  | .comment => true
  | .closingTag => true
  | _ => false

namespace Machine

/-! ## Steps -/

/-- What a look at the text `c :: t` does to the machine, and how far it moves on. -/
inductive Step (m : Machine) (offset : Nat) (c : Char) (t : Text) : Machine → Nat → Prop
  | passes (state : m.state.isOutside = true) : m.Step offset c t m 1
  | opensComment (state : m.state = .text) (opening : Text.startsWith "<!--" (c :: t) = true) :
      m.Step offset c t (m.goTo .comment) 4
  | closesComment (state : m.state = .comment) (closing : Text.startsWith "-->" (c :: t) = true) :
      m.Step offset c t (m.goTo .text) 3
  | opensClosingTag (state : m.state = .text) (opening : c = '<') (slash : t.head? = some '/') :
      m.Step offset c t (m.goTo .closingTag) 2
  | closesClosingTag (state : m.state = .closingTag) (closing : c = '>') :
      m.Step offset c t (m.goTo .text) 1
  | opensTag {d : Char} (state : m.state = .text) (opening : c = '<') (next : t.head? = some d)
      (letter : isLetter d = true) : m.Step offset c t (m.goTo (.tagName offset [])) 1
  | spellsName {start : Nat} {name : Text} (state : m.state = .tagName start name)
      (spells : isTagNameChar c = true) : m.Step offset c t (m.goTo (.tagName start (c :: name))) 1
  | endsName {start : Nat} {name : Text} (state : m.state = .tagName start name)
      (ends : isTagNameChar c = false) : m.Step offset c t (m.endTagName start name) 0
  | skipsBlank (state : m.state = .attributeList) (blank : isBlank c = true) : m.Step offset c t m 1
  | closesTag (state : m.state = .attributeList) (closing : c = '>') :
      m.Step offset c t (m.goTo .text) 1
  | closesItself (state : m.state = .attributeList) (slash : c = '/')
      (closing : t.head? = some '>') :
      m.Step offset c t ((m.changeTag fun tag => { tag with selfClosing := true }).goTo .text) 2
  | startsKey (state : m.state = .attributeList) (goesOn : endsAttribute c t = false) :
      m.Step offset c t (m.goTo (.attributeKey ⟨offset, [], false⟩)) 0
  | endsKey {key : Key} (state : m.state = .attributeKey key) (equals : c = '=') :
      m.Step offset c t (m.endKey key) 1
  | leavesKey {key : Key} (state : m.state = .attributeKey key) (ends : endsAttribute c t = true) :
      m.Step offset c t (m.goTo .attributeList) 0
  | spellsKey {key : Key} (state : m.state = .attributeKey key)
      (goesOn : endsAttribute c t = false) :
      m.Step offset c t (m.goTo (.attributeKey { key with text := c :: key.text })) 1
  | detachesValue {subject : Subject} {detached : Bool}
      (state : m.state = .awaitingValue subject detached) (blank : isBlank c = true) :
      m.Step offset c t (m.goTo (.awaitingValue subject true)) 1
  | opensQuote {subject : Subject} {detached : Bool}
      (state : m.state = .awaitingValue subject detached) (quote : c = '"' ∨ c = '\'') :
      m.Step offset c t (m.goTo (.quotedValue c ⟨subject, detached, [], false⟩ false)) 1
  | leavesValue {subject : Subject} {detached : Bool}
      (state : m.state = .awaitingValue subject detached) (ends : endsAttribute c t = true) :
      m.Step offset c t (m.goTo .attributeList) 0
  | startsValue {subject : Subject} {detached : Bool}
      (state : m.state = .awaitingValue subject detached) (unquoted : ¬ (c = '"' ∨ c = '\''))
      (goesOn : endsAttribute c t = false) :
      m.Step offset c t (m.goTo (.unquotedValue ⟨subject, detached, [c], false⟩)) 1
  | closesQuote {value : Value} {spaced : Bool} (state : m.state = .quotedValue c value spaced) :
      m.Step offset c t (m.endValue value) 1
  | readsQuoted {quote : Char} {value : Value} {spaced : Bool}
      (state : m.state = .quotedValue quote value spaced) (inside : c ≠ quote) :
      m.Step offset c t
        (m.goTo (.quotedValue quote { value with text := c :: value.text } (spaced || isBlank c))) 1
  | endsValue {value : Value} (state : m.state = .unquotedValue value)
      (ends : endsAttribute c t = true) : m.Step offset c t (m.endValue value) 0
  | readsUnquoted {value : Value} (state : m.state = .unquotedValue value)
      (goesOn : endsAttribute c t = false) :
      m.Step offset c t (m.goTo (.unquotedValue { value with text := c :: value.text })) 1

variable {offset : Nat} {c : Char} {t : Text}

/-- An attribute goes on at a character that is no blank and closes no tag. -/
theorem endsAttribute_eq_false_iff : endsAttribute c t = false ↔
    isBlank c = false ∧ c ≠ '>' ∧ ¬ (c = '/' ∧ t.head? = some '>') := by
  unfold endsAttribute
  rw [Bool.or_eq_false_iff, Bool.or_eq_false_iff, and_assoc, decide_eq_false_iff_not,
    ← Bool.decide_and, decide_eq_false_iff_not]

/-- A look does one of the steps. -/
theorem step_look (m : Machine) (offset : Nat) (c : Char) (t : Text) :
    m.Step offset c t (m.look offset c t).1 (m.look offset c t).2 := by
  unfold Machine.look
  cases hState : m.state with
  | text =>
    have hOutside : m.state.isOutside = true := by rw [hState]; rfl
    dsimp only
    split_ifs with hComment hOpening
    · exact .opensComment hState hComment
    · split
      · exact .passes hOutside
      · rename_i d hNext
        split_ifs with hSlash hLetter
        · exact .opensClosingTag hState hOpening (hSlash ▸ hNext)
        · exact .opensTag hState hOpening hNext hLetter
        · exact .passes hOutside
    · exact .passes hOutside
  | comment =>
    dsimp only
    split_ifs with hClosing
    · exact .closesComment hState hClosing
    · exact .passes (by rw [hState]; rfl)
  | closingTag =>
    dsimp only
    split_ifs with hClosing
    · exact .closesClosingTag hState hClosing
    · exact .passes (by rw [hState]; rfl)
  | tagName start name =>
    dsimp only
    split_ifs with hSpells
    · exact .spellsName hState hSpells
    · exact .endsName hState (Bool.not_eq_true _ ▸ hSpells)
  | attributeList =>
    dsimp only
    split_ifs with hBlank hClosing hSlash
    · exact .skipsBlank hState hBlank
    · exact .closesTag hState hClosing
    · exact .closesItself hState hSlash.1 hSlash.2
    · exact .startsKey hState (endsAttribute_eq_false_iff.mpr ⟨Bool.not_eq_true _ ▸ hBlank,
        hClosing, hSlash⟩)
  | attributeKey key =>
    dsimp only
    split_ifs with hEquals hEnds
    · exact .endsKey hState hEquals
    · exact .leavesKey hState hEnds
    · exact .spellsKey hState (Bool.not_eq_true _ ▸ hEnds)
  | awaitingValue subject detached =>
    dsimp only
    split_ifs with hBlank hQuote hEnds
    · exact .detachesValue hState hBlank
    · exact .opensQuote hState hQuote
    · exact .leavesValue hState hEnds
    · exact .startsValue hState hQuote (Bool.not_eq_true _ ▸ hEnds)
  | quotedValue quote value spaced =>
    dsimp only
    split_ifs with hQuote
    · subst hQuote
      exact .closesQuote hState
    · exact .readsQuoted hState hQuote
  | unquotedValue value =>
    dsimp only
    split_ifs with hEnds
    · exact .endsValue hState hEnds
    · exact .readsUnquoted hState (Bool.not_eq_true _ ▸ hEnds)

/-- Ending a value leads back to the attributes. -/
theorem state_endValue (m : Machine) (value : Value) :
    (m.endValue value).state = .attributeList := by
  unfold Machine.endValue
  split
  · split_ifs <;> rfl
  · rfl

/-! ## The looks at one character -/

/-- The machine looks again as long as it stays, at most twice. -/
theorem react_eq (m : Machine) (offset : Nat) (c : Char) (t : Text) :
    m.react offset c t =
      let first := m.look offset c t
      let second := first.1.look offset c t
      if first.2 ≠ 0 then first
      else if second.2 ≠ 0 then second else second.1.look offset c t := by
  unfold react
  rcases m.look offset c t with ⟨m₁, _ | n⟩
  · rcases hSecond : m₁.look offset c t with ⟨m₂, _ | n⟩ <;> simp [hSecond]
  · simp

/-- What each look at a character keeps, the looks at it keep together; a look before the
last one has not moved. -/
theorem react_keeps {P : Machine → Nat → Prop}
    (hLook : ∀ m, P m 0 → P (m.look offset c t).1 (m.look offset c t).2) {m : Machine} (h : P m 0) :
    P (m.react offset c t).1 (m.react offset c t).2 := by
  have hFirst := hLook m h
  rw [react_eq]
  dsimp only
  split_ifs with hMoves hMoves'
  · exact hFirst
  · rw [Decidable.not_not.mp hMoves] at hFirst
    exact hLook _ hFirst
  · rw [Decidable.not_not.mp hMoves] at hFirst
    have hSecond := hLook _ hFirst
    rw [Decidable.not_not.mp hMoves'] at hSecond
    exact hLook _ hSecond

/-- A step that stays where it is ends a state before the character, or starts a key at a character
that ends no attribute. -/
theorem Step.state_of_stays {m m' : Machine} (h : m.Step offset c t m' 0) :
    m'.state = .attributeList ∧ m.state ≠ .attributeList ∨
      m'.state = .attributeKey ⟨offset, [], false⟩ ∧ endsAttribute c t = false := by
  cases h with
  | endsName state => exact .inl ⟨rfl, by rw [state]; nofun⟩
  | startsKey _ goesOn => exact .inr ⟨rfl, goesOn⟩
  | leavesKey state => exact .inl ⟨rfl, by rw [state]; nofun⟩
  | leavesValue state => exact .inl ⟨rfl, by rw [state]; nofun⟩
  | endsValue state => exact .inl ⟨state_endValue m _, by rw [state]; nofun⟩

theorem Step.pos_of_attributeKey {m m' : Machine} {moved : Nat} (h : m.Step offset c t m' moved)
    {key : Key} (hKey : m.state = .attributeKey key) (goesOn : endsAttribute c t = false) :
    0 < moved := by
  refine Nat.pos_of_ne_zero fun hStays => ?_
  subst hStays
  cases h with
  | leavesKey _ ends => exact Bool.false_ne_true (goesOn.symm.trans ends)
  | endsName state | startsKey state | leavesValue state | endsValue state =>
    cases hKey.symm.trans state

/-- The looks at one character move on. -/
theorem react_pos (m : Machine) (offset : Nat) (c : Char) (t : Text) :
    0 < (m.react offset c t).2 := by
  rw [react_eq]
  dsimp only
  split_ifs with hFirst hSecond
  · exact Nat.pos_of_ne_zero hFirst
  · exact Nat.pos_of_ne_zero hSecond
  · -- Only a state that ended before the character stays, so the second look starts a key.
    have hEnded := m.step_look offset c t
    have hStarted := (m.look offset c t).1.step_look offset c t
    have hGoes := ((m.look offset c t).1.look offset c t).1.step_look offset c t
    rw [Decidable.not_not.mp hFirst] at hEnded
    rw [Decidable.not_not.mp hSecond] at hStarted
    rcases hStarted.state_of_stays with ⟨-, hOther⟩ | ⟨hKey, goesOn⟩
    · rcases hEnded.state_of_stays with ⟨hList, -⟩ | ⟨hKey, goesOn⟩
      · exact absurd hList hOther
      · exact absurd (hStarted.pos_of_attributeKey hKey goesOn) (Nat.lt_irrefl 0)
    · exact hGoes.pos_of_attributeKey hKey goesOn

end Machine

end Tokenizer

end TemplateCheck
