import TemplateCheck.Markup.Tag
import TemplateCheck.Text.Blank
import TemplateCheck.Text.Word

/-!
# Tokenizing a template body

A machine reads the body from left to right and collects its opening tags. A placeholder is atomic:
its text is never read, and the state in which the machine reaches it decides what it is bound to.

The machine looks at a character and either moves on or, where a state ends before the character,
looks again in the next state. Three looks always suffice to move on.
-/

namespace TemplateCheck

namespace Tokenizer

/-! ## States -/

/-- An attribute key that is being read, backwards. -/
structure Key where
  start : Nat
  text : Text
  hasPlaceholder : Bool
deriving DecidableEq, Repr

/-- What a value belongs to. -/
inductive Subject where
  /-- A bound attribute. -/
  | bound (attr : Attribute)
  /-- A static attribute with its key. -/
  | static (key : Text)
  /-- An attribute whose key is partly computed. -/
  | computed
deriving DecidableEq, Repr

/-- A value that is being read, backwards. -/
structure Value where
  subject : Subject
  /-- Blanks stand between the equals sign and the value. -/
  detached : Bool
  text : Text
  hasPlaceholder : Bool
deriving DecidableEq, Repr

/-- Where the machine stands. -/
inductive State where
  | text
  | comment
  | closingTag
  /-- In the name of a tag, read backwards, whose `<` stands at `start`. -/
  | tagName (start : Nat) (name : Text)
  | attributeList
  | attributeKey (key : Key)
  | awaitingValue (subject : Subject) (detached : Bool)
  /-- In a quoted value; `spaced` says that it holds blanks so far. -/
  | quotedValue (quote : Char) (value : Value) (spaced : Bool)
  | unquotedValue (value : Value)
deriving DecidableEq, Repr

/-- A placeholder that is the value, or part of the value, of a bound attribute. -/
structure Bound where
  /-- Which placeholder. -/
  index : Nat
  /-- Place of the tag in the list of tags. -/
  tag : Nat
  attr : Attribute
  quoted : Bool
deriving DecidableEq, Repr

/-- A machine in its state, with what it collected, the latest first. -/
structure Machine where
  state : State
  tags : List Tag
  bound : List Bound
deriving DecidableEq, Repr

namespace Machine

/-- The machine before the first character. -/
def start : Machine := ⟨.text, [], []⟩

/-- The machine in another state. -/
def goTo (m : Machine) (state : State) : Machine := { m with state := state }

/-! ## Transitions -/

/-- Changes the tag that is being read. -/
def changeTag (m : Machine) (change : Tag → Tag) : Machine :=
  { m with tags := m.tags.modifyHead change }

/-- Ends the name of a tag. -/
def endTagName (m : Machine) (start : Nat) (name : Text) : Machine :=
  { m with
    state := .attributeList
    tags := { name := name.reverse, start := start, attributes := [], statics := [],
              selfClosing := false } :: m.tags }

/-- The bound attribute that a key denotes. -/
def attributeOf? (start : Nat) (key : Text) : Option Attribute :=
  match Text.dropStart? [':'] key with
  | some name =>
    if Text.isWord name then some ⟨.prop, name, start, key.length⟩ else none
  | none =>
    match Text.dropStart? "@emits:" key with
    | some name => if Text.isWord name then some ⟨.emit, name, start, key.length⟩ else none
    | none => none

/-- Ends a key at its equals sign. -/
def endKey (m : Machine) (key : Key) : Machine :=
  if key.hasPlaceholder then m.goTo (.awaitingValue .computed false)
  else
    match attributeOf? key.start key.text.reverse with
    | some attr =>
      (m.changeTag fun tag => { tag with attributes := tag.attributes ++ [attr] }).goTo
        (.awaitingValue (.bound attr) false)
    | none => m.goTo (.awaitingValue (.static key.text.reverse) false)

/-- Ends a value. A static attribute is recorded unless a part of its value is computed. -/
def endValue (m : Machine) (value : Value) : Machine :=
  let m := m.goTo .attributeList
  match value.subject with
  | .static key =>
    if key ≠ [] ∧ value.hasPlaceholder = false then
      m.changeTag fun tag =>
        { tag with statics := OrderedMap.putNew tag.statics key value.text.reverse }
    else m
  | _ => m

/-- Binds a placeholder to the attribute whose value it stands in. -/
def bind (m : Machine) (index : Nat) (value : Value) (quoted : Bool) : Machine :=
  match value.subject with
  | .bound attr =>
    if value.detached then m
    else { m with bound := ⟨index, m.tags.length - 1, attr, quoted⟩ :: m.bound }
  | _ => m

/-! ## Looking at a character -/

/-- Whether an attribute ends before a text: at a blank, at `>` or at `/>`. -/
def endsAttribute (c : Char) (t : Text) : Bool :=
  isBlank c || c = '>' || (c = '/' && t.head? = some '>')

/-- Looks once at the text `c :: t` at `offset`; the number tells how far to move on. -/
def look (m : Machine) (offset : Nat) (c : Char) (t : Text) : Machine × Nat :=
  match m.state with
  | .text =>
    if Text.startsWith "<!--" (c :: t) then (m.goTo .comment, 4)
    else if c = '<' then
      match t.head? with
      | none => (m, 1)
      | some d =>
        if d = '/' then (m.goTo .closingTag, 2)
        else if isLetter d then (m.goTo (.tagName offset []), 1)
        else (m, 1)
    else (m, 1)
  | .comment => if Text.startsWith "-->" (c :: t) then (m.goTo .text, 3) else (m, 1)
  | .closingTag => if c = '>' then (m.goTo .text, 1) else (m, 1)
  | .tagName start name =>
    if isAlphanumeric c || c = '-' || c = '_' then (m.goTo (.tagName start (c :: name)), 1)
    else (m.endTagName start name, 0)
  | .attributeList =>
    if isBlank c then (m, 1)
    else if c = '>' then (m.goTo .text, 1)
    else if c = '/' ∧ t.head? = some '>' then
      ((m.changeTag fun tag => { tag with selfClosing := true }).goTo .text, 2)
    else (m.goTo (.attributeKey ⟨offset, [], false⟩), 0)
  | .attributeKey key =>
    if c = '=' then (m.endKey key, 1)
    else if endsAttribute c t then (m.goTo .attributeList, 0)
    else (m.goTo (.attributeKey { key with text := c :: key.text }), 1)
  | .awaitingValue subject detached =>
    if isBlank c then (m.goTo (.awaitingValue subject true), 1)
    else if c = '"' ∨ c = '\'' then
      (m.goTo (.quotedValue c ⟨subject, detached, [], false⟩ false), 1)
    else if endsAttribute c t then (m.goTo .attributeList, 0)
    else (m.goTo (.unquotedValue ⟨subject, detached, [c], false⟩), 1)
  | .quotedValue quote value spaced =>
    if c = quote then (m.endValue value, 1)
    else
      (m.goTo (.quotedValue quote { value with text := c :: value.text } (spaced || isBlank c)), 1)
  | .unquotedValue value =>
    if endsAttribute c t then (m.endValue value, 0)
    else (m.goTo (.unquotedValue { value with text := c :: value.text }), 1)

/-- Looks at the text `c :: t` at `offset` until the machine moves on. -/
def react (m : Machine) (offset : Nat) (c : Char) (t : Text) : Machine × Nat :=
  match m.look offset c t with
  | (m, 0) =>
    match m.look offset c t with
    | (m, 0) => m.look offset c t
    | moved => moved
  | moved => moved

/-- Passes a placeholder at `offset`. -/
def passPlaceholder (m : Machine) (index offset : Nat) : Machine :=
  match m.state with
  | .text | .comment | .closingTag => m
  | .tagName start name => m.endTagName start name
  | .attributeList => m.goTo (.attributeKey ⟨offset, [], true⟩)
  | .attributeKey key => m.goTo (.attributeKey { key with hasPlaceholder := true })
  | .awaitingValue subject detached =>
    let value : Value := ⟨subject, detached, [], true⟩
    (m.bind index value false).goTo (.unquotedValue value)
  | .quotedValue quote value spaced =>
    let m := if spaced then m else m.bind index value true
    m.goTo (.quotedValue quote { value with hasPlaceholder := true } spaced)
  | .unquotedValue value =>
    (m.bind index value false).goTo (.unquotedValue { value with hasPlaceholder := true })

/-- The machine after the last character. -/
def finish (m : Machine) : Machine :=
  match m.state with
  | .tagName start name => m.endTagName start name
  | _ => m

end Machine

/-! ## Running -/

/-- A region of the body that holds a placeholder; it may lie anywhere. -/
structure Region where
  index : Nat
  start : Int
  stop : Int

/-- Numbers the regions; the later ones come first, so that they win over earlier ones. -/
def regions (placeholders : List (Int × Int)) : List Region :=
  (placeholders.zipIdx.map fun ((start, stop), index) => ⟨index, start, stop⟩).reverse

/-- Runs the machine over the text at `offset`, after `skip` more characters. -/
def runFrom (regions : List Region) : Machine → (skip : Nat) → (offset : Nat) → Text → Machine
  | m, _, _, [] => m
  | m, skip + 1, offset, _ :: t => runFrom regions m skip (offset + 1) t
  | m, 0, offset, c :: t =>
    match regions.find? (·.start = (offset : Int)) with
    | some region =>
      runFrom regions (m.passPlaceholder region.index offset) (region.stop.toNat - (offset + 1))
        (offset + 1) t
    | none =>
      let (m, moved) := m.react offset c t
      runFrom regions m (moved - 1) (offset + 1) t

/-- What was found in a template body. -/
structure Tokens where
  tags : List Tag
  /-- The bound placeholders by increasing index. -/
  bound : List Bound
  /-- The state in which the body ends. -/
  state : State

/-- Tokenizes a template body with the given placeholder regions. -/
def tokenize (body : Text) (placeholders : List (Int × Int)) : Tokens :=
  let m := (runFrom (regions placeholders) .start 0 0 body).finish
  ⟨m.tags.reverse, m.bound.mergeSort fun a b => a.index ≤ b.index, m.state⟩

end Tokenizer

end TemplateCheck
