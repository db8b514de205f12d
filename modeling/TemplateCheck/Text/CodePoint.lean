import TemplateCheck.Text.Basic

/-!
# Code points

An escape can spell a surrogate that has no partner. It is no character, so what is spelled that way
is a list of code points rather than a text.
-/

namespace TemplateCheck

/-- A character, or a surrogate on its own. -/
inductive CodePoint where
  | char (c : Char)
  | surrogate (unit : Nat)
deriving DecidableEq, Repr

/-- The number of a code point. -/
def CodePoint.code : CodePoint → Nat
  | char c => c.toNat
  | surrogate unit => unit

/-- Code points in a row. -/
abbrev WideText := List CodePoint

namespace WideText

/-- A text as code points. -/
def ofText (t : Text) : WideText := t.map .char

/-- The text of code points, with a replacement character for each surrogate. -/
def toText (t : WideText) : Text :=
  t.map fun
    | .char c => c
    | .surrogate _ => '\ufffd'

/-- The text of code points that are all characters. -/
def toText? : WideText → Option Text
  | [] => some []
  | .char c :: t => (toText? t).map (c :: ·)
  | .surrogate _ :: _ => none

@[simp] theorem toText_ofText (t : Text) : toText (ofText t) = t := by
  induction t with
  | nil => rfl
  | cons c t ih => exact congrArg (c :: ·) ih

@[simp] theorem toText?_ofText (t : Text) : toText? (ofText t) = some t := by
  induction t with
  | nil => rfl
  | cons c t ih =>
    show (toText? (ofText t)).map (c :: ·) = some (c :: t)
    rw [ih]
    rfl

/-- Different texts have different code points. -/
@[simp] theorem ofText_inj {s t : Text} : ofText s = ofText t ↔ s = t := by
  constructor
  · intro h
    have := congrArg toText h
    rwa [toText_ofText, toText_ofText] at this
  · exact congrArg ofText

end WideText

end TemplateCheck
