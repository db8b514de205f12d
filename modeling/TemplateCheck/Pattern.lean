import TemplateCheck.Text.Blank
import TemplateCheck.Text.Word

/-!
# Patterns

Ordered-choice patterns over characters, with named captures. A pattern reads a text from a place
and proposes the ends of its readings one after the other, in a fixed order of preference; the
first proposal that lets the rest of the pattern succeed is taken. Repetition proposes the longest
reading first, `spanLazy` the shortest.

Each repetition of an item must consume a character, so a loop repeats at most once for every
character left: the text that is left bounds the recursion.
-/

namespace TemplateCheck

/-- A pattern whose captures are named by `ι`. -/
inductive Pattern (ι : Type) where
  /-- Reads nothing. -/
  | empty
  /-- Reads one character of a class. -/
  | char (accepts : Char → Bool)
  /-- Reads exactly the given text. -/
  | lit (t : Text)
  /-- Reads as many characters of a class as possible. -/
  | span (accepts : Char → Bool)
  /-- Reads as few characters of a class as possible. -/
  | spanLazy (accepts : Char → Bool)
  /-- Reads nothing where the previous character and the text ahead pass a test. -/
  | look (test : Option Char → Text → Bool)
  /-- Reads the first, then the second. -/
  | seq (first second : Pattern ι)
  /-- Reads the first or, failing that, the second. -/
  | either (first second : Pattern ι)
  /-- Reads the item as often as possible. -/
  | loop (item : Pattern ι)
  /-- Reads the body and records what it read. -/
  | capture (name : ι) (body : Pattern ι)

namespace Pattern

variable {ι : Type}

/-- What a capture recorded, and where. -/
structure Capture (ι : Type) where
  name : ι
  start : Nat
  /-- The text from the start of the capture to the end of everything. -/
  ahead : Text
  length : Nat

/-- What a capture read. -/
def Capture.text (capture : Capture ι) : Text := capture.ahead.take capture.length

/-- A place in a text, with the captures recorded on the way to it, the latest first. -/
structure Cursor (ι : Type) where
  previous : Option Char
  offset : Nat
  rest : Text
  captures : List (Capture ι)

/-- What remains to be done with the end of a reading. -/
abbrev Next (ι : Type) := Cursor ι → Option (Cursor ι)

/-! ## Reading -/

/-- Repeats an item, more repetitions first, at most once for every character of `bound`. -/
def repeatMost (item : Cursor ι → Next ι → Option (Cursor ι)) :
    (bound : Text) → Cursor ι → Next ι → Option (Cursor ι)
  | [], cursor, next => next cursor
  | _ :: bound, cursor, next =>
    match item cursor fun later => repeatMost item bound later next with
    | some last => some last
    | none => next cursor

/-- Reads characters of a class, more of them first. -/
def spanMost (accepts : Char → Bool) (next : Next ι) (captures : List (Capture ι)) :
    (previous : Option Char) → (offset : Nat) → Text → Option (Cursor ι)
  | previous, offset, [] => next ⟨previous, offset, [], captures⟩
  | previous, offset, c :: rest =>
    if accepts c then
      match spanMost accepts next captures (some c) (offset + 1) rest with
      | some last => some last
      | none => next ⟨previous, offset, c :: rest, captures⟩
    else next ⟨previous, offset, c :: rest, captures⟩

/-- Reads characters of a class, fewer of them first. -/
def spanLeast (accepts : Char → Bool) (next : Next ι) (captures : List (Capture ι)) :
    (previous : Option Char) → (offset : Nat) → Text → Option (Cursor ι)
  | previous, offset, [] => next ⟨previous, offset, [], captures⟩
  | previous, offset, c :: rest =>
    match next ⟨previous, offset, c :: rest, captures⟩ with
    | some last => some last
    | none =>
      if accepts c then spanLeast accepts next captures (some c) (offset + 1) rest else none

/-- Reads the pattern from a place and hands its ends to `next`, in order of preference, until
one is accepted. -/
def run : Pattern ι → Cursor ι → Next ι → Option (Cursor ι)
  | empty, cursor, next => next cursor
  | char accepts, cursor, next =>
    match cursor.rest with
    | [] => none
    | c :: rest =>
      if accepts c then next ⟨some c, cursor.offset + 1, rest, cursor.captures⟩ else none
  | lit t, cursor, next =>
    match Text.dropStart? t cursor.rest with
    | none => none
    | some rest =>
      next ⟨t.getLast?.or cursor.previous, cursor.offset + t.length, rest, cursor.captures⟩
  | span accepts, cursor, next =>
    spanMost accepts next cursor.captures cursor.previous cursor.offset cursor.rest
  | spanLazy accepts, cursor, next =>
    spanLeast accepts next cursor.captures cursor.previous cursor.offset cursor.rest
  | look test, cursor, next => if test cursor.previous cursor.rest then next cursor else none
  | seq first second, cursor, next => first.run cursor fun later => second.run later next
  | either first second, cursor, next =>
    match first.run cursor next with
    | some last => some last
    | none => second.run cursor next
  | loop item, cursor, next => repeatMost item.run cursor.rest cursor next
  | capture name body, cursor, next =>
    body.run cursor fun later =>
      next { later with
        captures := ⟨name, cursor.offset, cursor.rest, later.offset - cursor.offset⟩ ::
          later.captures }

/-! ## Matches -/

/-- One reading of a pattern in a text. -/
structure Match (ι : Type) where
  start : Nat
  stop : Nat
  captures : List (Capture ι)

/-- The preferred reading at one place. -/
def readAt (p : Pattern ι) (previous : Option Char) (offset : Nat) (rest : Text) :
    Option (Match ι) :=
  (p.run ⟨previous, offset, rest, []⟩ some).map fun last => ⟨offset, last.offset, last.captures⟩

/-- The preferred reading at the start of a text. -/
def readStart (p : Pattern ι) (t : Text) : Option (Match ι) := p.readAt none 0 t

/-- The preferred reading at an offset of a text. -/
def readFrom (p : Pattern ι) (t : Text) (offset : Nat) : Option (Match ι) :=
  p.readAt (if offset = 0 then none else t[offset - 1]?) offset (t.drop offset)

/-- Whether the pattern reads something at the start of a text. -/
def accepts (p : Pattern ι) (t : Text) : Bool := (p.readStart t).isSome

/-- The readings in the text `t` at `offset`, leftmost first and without overlap, that start after
the next `skip` characters. -/
def readAllFrom (p : Pattern ι) : (skip : Nat) → Option Char → Nat → Text → List (Match ι)
  | _, _, _, [] => []
  | skip + 1, _, offset, c :: t => readAllFrom p skip (some c) (offset + 1) t
  | 0, previous, offset, c :: t =>
    match p.readAt previous offset (c :: t) with
    | some found => found :: readAllFrom p (found.stop - offset - 1) (some c) (offset + 1) t
    | none => readAllFrom p 0 (some c) (offset + 1) t

/-- All readings in a text, leftmost first and without overlap. -/
def readAll (p : Pattern ι) (t : Text) : List (Match ι) := p.readAllFrom 0 none 0 t

/-- Whether the pattern reads something somewhere in a text. -/
def occursIn (p : Pattern ι) (t : Text) : Bool := !(p.readAll t).isEmpty

/-- The text with each reading replaced. -/
def replaceAll (p : Pattern ι) (replacement t : Text) : Text :=
  go 0 (p.readAll t)
where
  /-- Replaces the readings from an offset on. -/
  go (offset : Nat) : List (Match ι) → Text
    | [] => t.drop offset
    | found :: later => Text.slice t offset found.start ++ replacement ++ go found.stop later

/-- The parts of a text between the readings. -/
def splitAll (p : Pattern ι) (t : Text) : List Text :=
  go 0 (p.readAll t)
where
  /-- Splits from an offset on. -/
  go (offset : Nat) : List (Match ι) → List Text
    | [] => [t.drop offset]
    | found :: later => Text.slice t offset found.start :: go found.stop later

namespace Match

variable [DecidableEq ι]

/-- The record of a capture, if the reading went through it. -/
def capture? (found : Match ι) (name : ι) : Option (Capture ι) :=
  found.captures.find? fun record => record.name = name

/-- What a capture read, if the reading went through it. -/
def text? (found : Match ι) (name : ι) : Option Text := (found.capture? name).map (·.text)

/-- What a capture read, and nothing if the reading avoided it. -/
def text (found : Match ι) (name : ι) : Text := (found.text? name).getD []

/-- Where a capture began, and where the reading did if it avoided the capture. -/
def startOf (found : Match ι) (name : ι) : Nat :=
  ((found.capture? name).map (·.start)).getD found.start

end Match

/-! ## Building blocks -/

/-- Reads the patterns one after the other. -/
def all (ps : List (Pattern ι)) : Pattern ι := ps.foldr seq empty

/-- Reads the first of the patterns that leads to success. -/
def any : List (Pattern ι) → Pattern ι
  | [] => char fun _ => false
  | [p] => p
  | p :: ps => either p (any ps)

/-- Reads the pattern if it leads to success, and nothing otherwise. -/
def opt (p : Pattern ι) : Pattern ι := either p empty

/-- Reads one of the given characters. -/
def oneOf (t : Text) : Pattern ι := char (· ∈ t)

/-- The characters other than the given ones. -/
def noneOf (t : Text) (c : Char) : Bool := c ∉ t

/-- All characters. -/
def anyChar (_ : Char) : Bool := true

/-- All characters but the line feed. -/
def inLine (c : Char) : Bool := c ≠ '\n'

/-- Reads one or more characters of a class, as many as possible. -/
def span1 (accepts : Char → Bool) : Pattern ι := seq (char accepts) (span accepts)

/-- Reads one or more characters of a class, as few as possible. -/
def spanLazy1 (accepts : Char → Bool) : Pattern ι := seq (char accepts) (spanLazy accepts)

/-- Reads blanks. -/
def blanks : Pattern ι := span isBlank

/-- Reads at least one blank. -/
def blanks1 : Pattern ι := span1 isBlank

/-- Reads an identifier. -/
def identifier : Pattern ι := seq (char isNameStart) (span isNameChar)

/-- Reads identifiers joined by points. -/
def dottedName : Pattern ι := seq identifier (loop (seq (lit ['.']) identifier))

/-- Whether the optional character stands in a word. -/
def inWord (c : Option Char) : Bool := c.any isWordChar

/-- Holds between a character of a word and one that is not, or an end of the text. -/
def wordEdge : Pattern ι := look fun previous rest => inWord previous != inWord rest.head?

/-- Holds at the end of the text and before a line feed that ends it. -/
def atEnd : Pattern ι := look fun _ rest => rest = [] || rest = ['\n']

/-- Holds unless one of the given characters comes next. -/
def unlessNext (t : Text) : Pattern ι := look fun _ rest => !rest.head?.any (· ∈ t)

end Pattern

end TemplateCheck
