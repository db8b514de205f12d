import TemplateCheck.Markup.Tokenizer

/-!
# Documents

A document is a template body as an author means it: text, comments, closing tags and opening tags
with their attributes. Placeholders may stand in text and in values.

`body` writes a document down and `placeholders` says where its placeholders stand in it. `tags` and
`bound` say, from the document alone, which opening tags it has and to which attribute each
placeholder is bound; a tokenizer should find just these.
-/

namespace TemplateCheck

namespace Document

/-! ## Pieces -/

/-- A character, or a placeholder with the code between its braces. -/
inductive Piece where
  | char (c : Char)
  | hole (code : Text)

/-- A piece as it is written. -/
def Piece.print : Piece → Text
  | char c => [c]
  | hole code => '$' :: '{' :: (code ++ ['}'])

/-- The pieces of a text without placeholders. -/
def chars (t : Text) : List Piece := t.map .char

/-- Pieces as they are written one after another. -/
def print (pieces : List Piece) : Text := pieces.flatMap Piece.print

/-- The number of characters of pieces. -/
def width (pieces : List Piece) : Nat := (print pieces).length

/-- The number of placeholders among pieces. -/
def holes : List Piece → Nat
  | [] => 0
  | .char _ :: rest => holes rest
  | .hole _ :: rest => holes rest + 1

/-- Where the placeholders stand among pieces whose first character stands at `offset`. -/
def regionsFrom : (offset : Nat) → List Piece → List (Int × Int)
  | _, [] => []
  | offset, .char _ :: rest => regionsFrom (offset + 1) rest
  | offset, .hole code :: rest =>
    let stop := offset + (code.length + 3)
    ((offset : Int), (stop : Int)) :: regionsFrom stop rest

/-- The text of pieces without placeholders. -/
def plain? : List Piece → Option Text
  | [] => some []
  | .char c :: rest => (plain? rest).map (c :: ·)
  | .hole _ :: _ => none

/-! ## Attributes -/

/-- The value of an attribute. -/
inductive Value where
  /-- There is no equals sign. -/
  | missing
  /-- The value stands between two quotes and holds none of the same kind. -/
  | quoted (quote : Char) (pieces : List Piece) (isQuote : quote = '"' ∨ quote = '\'')
      (fits : ∀ c, .char c ∈ pieces → c ≠ quote)
  /-- The value has a first piece, and no blank, `>` or slash. -/
  | unquoted (first : Piece) (rest : List Piece)
      (noQuote : first ≠ .char '"' ∧ first ≠ .char '\'')
      (fits : ∀ c, .char c ∈ first :: rest → isBlank c = false ∧ c ≠ '>' ∧ c ≠ '/')

/-- A value as it is written, with the equals sign. -/
def Value.pieces : Value → List Piece
  | missing => []
  | quoted quote pieces _ _ => .char '=' :: .char quote :: (pieces ++ [.char quote])
  | unquoted first rest _ _ => .char '=' :: first :: rest

/-- An attribute: blanks, a key and a value. -/
structure Setting where
  gap : Text
  key : Text
  value : Value
  gap_ne_nil : gap ≠ []
  gap_blank : ∀ c ∈ gap, isBlank c = true
  key_ne_nil : key ≠ []
  key_fits : ∀ c ∈ key, isBlank c = false ∧ c ≠ '=' ∧ c ≠ '>' ∧ c ≠ '/'

/-- An attribute as it is written. -/
def Setting.pieces (setting : Setting) : List Piece :=
  chars setting.gap ++ (chars setting.key ++ setting.value.pieces)

/-! ## Items -/

/-- An opening tag. -/
structure Opening where
  initial : Char
  others : Text
  settings : List Setting
  selfClosing : Bool
  initial_isLetter : isLetter initial = true
  others_fit : ∀ c ∈ others, isAlphanumeric c = true ∨ c = '-' ∨ c = '_'

namespace Opening

def name (opening : Opening) : Text := opening.initial :: opening.others

/-- An opening tag as it is written. -/
def pieces (opening : Opening) : List Piece :=
  chars ('<' :: opening.name) ++ (opening.settings.flatMap Setting.pieces ++
    chars (if opening.selfClosing then ['/', '>'] else ['>']))

end Opening

/-- A part of a document. -/
inductive Item where
  | text (pieces : List Piece) (fits : ∀ c, .char c ∈ pieces → c ≠ '<')
  /-- The first `-->` after the start of the comment closes it. -/
  | comment (inside : Text)
      (closes : Text.find? "-->" (inside ++ "-->".toList) = some inside.length)
  | closing (inside : Text) (fits : ∀ c ∈ inside, c ≠ '>')
  | opening (tag : Opening)

/-- A part of a document as it is written. -/
def Item.pieces : Item → List Piece
  | text pieces _ => pieces
  | comment inside _ => chars ("<!--".toList ++ (inside ++ "-->".toList))
  | closing inside _ => chars ('<' :: '/' :: (inside ++ ['>']))
  | opening tag => tag.pieces

end Document

/-- A template body, part by part. -/
abbrev Document := List Document.Item

namespace Document

/-- A document as pieces. -/
def pieces (document : Document) : List Piece := document.flatMap Item.pieces

/-- A document as it is written. -/
def body (document : Document) : Text := print document.pieces

/-- Where the placeholders of a document stand in its body. -/
def placeholders (document : Document) : List (Int × Int) := regionsFrom 0 document.pieces

/-! ## What a key stands for -/

/-- The kind and the word of a key that binds: `:word` a prop and `@emits:word` an emit. -/
def bindingOf? : (key : Text) → Option (BindingKind × Text)
  | ':' :: word => if Text.isWord word then some (.prop, word) else none
  | '@' :: 'e' :: 'm' :: 'i' :: 't' :: 's' :: ':' :: word =>
    if Text.isWord word then some (.emit, word) else none
  | _ => none

namespace Setting

/-- The bound attribute of a valued key that binds, where the blanks before it start at `offset`. -/
def attribute? (offset : Nat) (setting : Setting) : Option Attribute :=
  match setting.value with
  | .missing => none
  | _ =>
    (bindingOf? setting.key).map fun (kind, word) =>
      ⟨kind, word, offset + setting.gap.length, setting.key.length⟩

/-- The key and the value of a key that does not bind and whose value has no placeholder. -/
def static? (setting : Setting) : Option (Text × Text) :=
  if bindingOf? setting.key = none then
    match setting.value with
    | .missing => none
    | .quoted _ pieces _ _ => (plain? pieces).map (setting.key, ·)
    | .unquoted first rest _ _ => (plain? (first :: rest)).map (setting.key, ·)
  else none

end Setting

/-- The bound attributes of settings in a row. -/
def attributesFrom : (offset : Nat) → List Setting → List Attribute
  | _, [] => []
  | offset, setting :: rest =>
    (setting.attribute? offset).toList ++ attributesFrom (offset + width setting.pieces) rest

/-- Of entries with one key, the first. -/
def firstOfEachKey : List (Text × Text) → OrderedMap Text Text
  | [] => []
  | entry :: rest => entry :: (firstOfEachKey rest).filter (·.1 ≠ entry.1)

/-! ## Tags -/

/-- The tag whose `<` stands at `offset`. -/
def Opening.tag (offset : Nat) (opening : Opening) : Tag where
  name := opening.name
  start := offset
  attributes := attributesFrom (offset + 1 + opening.name.length) opening.settings
  statics := firstOfEachKey (opening.settings.filterMap Setting.static?)
  selfClosing := opening.selfClosing

/-- The tag of a part that opens one. -/
def Item.tags (offset : Nat) : Item → List Tag
  | opening tag => [tag.tag offset]
  | _ => []

/-- The tags of parts in a row. -/
def tagsFrom : (offset : Nat) → Document → List Tag
  | _, [] => []
  | offset, item :: rest => item.tags offset ++ tagsFrom (offset + width item.pieces) rest

/-- The tags of a document. -/
def tags (document : Document) : List Tag := tagsFrom 0 document

/-! ## Bound placeholders -/

/-- Binds every placeholder among pieces, the first of which has the given index. -/
def bindAll (tag : Nat) (attr : Attribute) (quoted : Bool) :
    (index : Nat) → List Piece → List Tokenizer.Bound
  | _, [] => []
  | index, .char _ :: rest => bindAll tag attr quoted index rest
  | index, .hole _ :: rest => ⟨index, tag, attr, quoted⟩ :: bindAll tag attr quoted (index + 1) rest

/-- Whether the piece is a blank. -/
def Piece.isBlank : Piece → Bool
  | char c => TemplateCheck.isBlank c
  | hole _ => false

/-- The placeholders of a value that are bound: all of an unquoted value, and those of a quoted
value before its first blank. -/
def Value.bound (tag : Nat) (attr : Attribute) (index : Nat) : Value → List Tokenizer.Bound
  | missing => []
  | quoted _ pieces _ _ => bindAll tag attr true index (pieces.takeWhile (!·.isBlank))
  | unquoted first rest _ _ => bindAll tag attr false index (first :: rest)

/-- The bound placeholders of an attribute. -/
def Setting.bound (tag index offset : Nat) (setting : Setting) : List Tokenizer.Bound :=
  match setting.attribute? offset with
  | some attr => setting.value.bound tag attr index
  | none => []

/-- The bound placeholders of settings in a row. -/
def settingsBound (tag : Nat) : (index offset : Nat) → List Setting → List Tokenizer.Bound
  | _, _, [] => []
  | index, offset, setting :: rest =>
    setting.bound tag index offset ++
      settingsBound tag (index + holes setting.pieces) (offset + width setting.pieces) rest

/-- The bound placeholders of a part. -/
def Item.bound (tag index offset : Nat) : Item → List Tokenizer.Bound
  | opening o => settingsBound tag index (offset + 1 + o.name.length) o.settings
  | _ => []

/-- The bound placeholders of parts in a row; `tag` counts the tags before them. -/
def boundFrom : (tag index offset : Nat) → Document → List Tokenizer.Bound
  | _, _, _, [] => []
  | tag, index, offset, item :: rest =>
    item.bound tag index offset ++
      boundFrom (tag + (item.tags offset).length) (index + holes item.pieces)
        (offset + width item.pieces) rest

/-- The bound placeholders of a document. -/
def bound (document : Document) : List Tokenizer.Bound := boundFrom 0 0 0 document

/-- A prop with two placeholders, of which the second stands after a blank and is not bound. -/
example :
    let value : Value :=
      .quoted '"' [.char 'x', .hole ['y'], .char ' ', .hole ['z']] (.inl rfl) (by simp)
    let setting : Setting :=
      ⟨[' '], ":b".toList, value, by simp, by simp [isBlank], by simp, by simp [isBlank]⟩
    let document : Document := [.opening ⟨'A', [], [setting], true, rfl, by simp⟩]
    document.body = "<A :b=\"x${y} ${z}\"/>".toList ∧
      document.placeholders = [(8, 12), (13, 17)] ∧
      document.bound = [⟨0, 0, ⟨.prop, ['b'], 3, 2⟩, true⟩] := by
  decide

end Document

end TemplateCheck
