import TemplateCheck.Text.Basic

/-!
# Lines and characters

A place in a text is shown to people as a zero-based line and a zero-based character in that line.
Lines end at line feeds only. There are two readings of an offset: `position` keeps the offset
inside the text, and `positionIn` looks it up in the list of line starts without a bound.
-/

namespace TemplateCheck

/-- A zero-based line and a zero-based character in it. -/
structure Position where
  line : Int
  character : Int
deriving DecidableEq, Repr

namespace Text

/-- Offsets at which the lines begin that start after `offset`, the offset of the text `t`. -/
def laterLineStarts (offset : Nat) : Text → List Nat
  | [] => []
  | c :: t =>
    if c = '\n' then (offset + 1) :: laterLineStarts (offset + 1) t
    else laterLineStarts (offset + 1) t

/-- Offsets at which the lines of the text begin. -/
def lineStarts (t : Text) : List Nat := 0 :: laterLineStarts 0 t

/-- The position of an offset, found by counting the line starts up to it. An offset before the
text lies on line `-1` and is measured from the start of the last line. -/
def positionIn (starts : List Nat) (offset : Int) : Position :=
  let line : Nat := starts.countP fun (start : Nat) => decide ((start : Int) ≤ offset)
  match line with
  | 0 => ⟨-1, offset - (starts.getLastD 0 : Nat)⟩
  | n + 1 => ⟨n, offset - (starts.getD n 0 : Nat)⟩

/-- The offset brought into the text: at least zero and at most its length. -/
def clamp (t : Text) (offset : Int) : Nat := min offset.toNat t.length

/-- The position of an offset after it is brought into the text. -/
def position (t : Text) (offset : Int) : Position :=
  let before := t.take (clamp t offset)
  ⟨(before.count '\n' : Nat), ((before.reverse.takeWhile (· ≠ '\n')).length : Nat)⟩

end Text

end TemplateCheck
