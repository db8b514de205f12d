import TemplateCheck.Text.Basic
import TemplateCheck.Text.Letter
import TemplateCheck.Text.Numeral

/-!
# Words and names

A word is made of letters, numerals and underscores of any script. A name may also hold `$`, and
an identifier is a name that starts with an ASCII letter, an underscore or `$`.
-/

namespace TemplateCheck

/-- Whether the character is a letter or a numeral. -/
def isAlphanumeric (c : Char) : Bool := isLetter c || isNumeral c

/-- Whether the character may stand in a word. -/
def isWordChar (c : Char) : Bool := isAlphanumeric c || c = '_'

/-- Whether the character may stand in a name. -/
def isNameChar (c : Char) : Bool := isAlphanumeric c || c = '_' || c = '$'

/-- Whether an identifier may start with the character. -/
def isNameStart (c : Char) : Bool := isAsciiLetter c || c = '_' || c = '$'

theorem isNameChar_of_isNameStart {c : Char} (h : isNameStart c = true) : isNameChar c = true := by
  simp only [isNameStart, isNameChar, isAlphanumeric, isLetter, Bool.or_eq_true] at *
  rcases h with (h | h) | h <;> simp [h]

namespace Text

/-- Whether the whole text is one identifier. -/
def isIdentifier : Text → Bool
  | [] => false
  | c :: t => isNameStart c && t.all isNameChar

/-- Whether the whole text is one non-empty word. -/
def isWord (t : Text) : Bool := !t.isEmpty && t.all isWordChar

end Text

end TemplateCheck
