import TemplateCheck.Text.Blank

/-!
# Brackets

Depth counting over a text. Most questions about types and declarations are of the form "where is
this outside all brackets": the functions here answer them in one pass from left to right.
-/

namespace TemplateCheck

namespace Text

/-- How much deeper a character leads: an opening bracket by one, a closing one back by one. The
tip of an arrow `=>` is no bracket. -/
def nesting (previous : Option Char) (c : Char) : Int :=
  if c ∈ ['{', '(', '[', '<'] then 1
  else if c = '>' ∧ previous = some '=' then 0
  else if c ∈ ['}', ')', ']', '>'] then -1
  else 0

/-! ## Splitting outside brackets -/

/-- Splits the text after `previous` at the separators outside brackets; `current` is the part
read so far, backwards, and `skip` counts the characters left of a separator. -/
def splitTopLevelFrom (separator : Text) (previous : Option Char) (depth : Int) (current : Text) :
    (skip : Nat) → Text → List Text
  | _, [] => [current.reverse]
  | skip + 1, c :: t => splitTopLevelFrom separator (some c) depth current skip t
  | 0, c :: t =>
    let depth := depth + nesting previous c
    if startsWith separator (c :: t) ∧ depth = 0 then
      current.reverse :: splitTopLevelFrom separator (some c) depth [] (separator.length - 1) t
    else splitTopLevelFrom separator (some c) depth (c :: current) 0 t

/-- The parts of a text between the separators that stand outside all brackets. -/
def splitTopLevel (separator t : Text) : List Text := splitTopLevelFrom separator none 0 [] 0 t

/-- The parts outside brackets, trimmed, without the blank ones. -/
def topLevelParts (separator t : Text) : List Text :=
  ((splitTopLevel separator t).map trim).filter (· ≠ [])

/-! ## Parentheses -/

/-- The offset of the parenthesis that brings the count of open ones back to zero. -/
def parenCloseFrom (depth : Int) (offset : Nat) : Text → Option Nat
  | [] => none
  | c :: t =>
    if c = '(' then parenCloseFrom (depth + 1) (offset + 1) t
    else if c = ')' then
      if depth = 1 then some offset else parenCloseFrom (depth - 1) (offset + 1) t
    else parenCloseFrom depth (offset + 1) t

/-- The offset of the parenthesis that closes the first group. -/
def parenClose? (t : Text) : Option Nat := parenCloseFrom 0 0 t

/-- Whether one pair of parentheses encloses the whole text. -/
def isParenthesized (t : Text) : Bool :=
  t.head? = some '(' && t.getLast? = some ')' && parenClose? t = some (t.length - 1)

/-- Takes off at most `bound` pairs of enclosing parentheses. -/
def stripParensUpTo : (bound : Nat) → Text → Text
  | 0, t => t
  | bound + 1, t => if isParenthesized t then stripParensUpTo bound (trim (inner t)) else t

/-- The trimmed text without the parentheses that enclose all of it. -/
def stripParens (t : Text) : Text := stripParensUpTo t.length (trim t)

/-! ## Balance -/

/-- Whether no bracket closes more than `depth` and the open ones, and all are closed. -/
def balancedFrom (depth : Nat) : Text → Bool
  | [] => depth = 0
  | c :: t =>
    if c ∈ ['(', '[', '{'] then balancedFrom (depth + 1) t
    else if c ∈ [')', ']', '}'] then
      match depth with
      | 0 => false
      | depth + 1 => balancedFrom depth t
    else balancedFrom depth t

/-- Whether parentheses, square brackets and braces are balanced, whatever their kind. -/
def balanced (t : Text) : Bool := balancedFrom 0 t

/-- Replaces by spaces what stands in brackets or in quotes; `quote` is the open quote. -/
def surfaceFrom (quote : Option Char) (depth : Int) : Text → Text
  | [] => []
  | c :: t =>
    match quote with
    | some q => ' ' :: surfaceFrom (if c = q then none else some q) depth t
    | none =>
      if c ∈ ['"', '\'', '`'] then ' ' :: surfaceFrom (some c) depth t
      else
        let depth :=
          if c ∈ ['(', '[', '{'] then depth + 1
          else if c ∈ [')', ']', '}'] then depth - 1
          else depth
        (if depth = 0 then c else ' ') :: surfaceFrom none depth t

/-- The text with everything in brackets or in quotes replaced by spaces. -/
def surface (t : Text) : Text := surfaceFrom none 0 t

end Text

end TemplateCheck
