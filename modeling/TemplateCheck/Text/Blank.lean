import TemplateCheck.Text.Basic

/-!
# Blanks

A blank is a space, a control character that moves the cursor or separates records, or one of the
spaces and separators beyond ASCII. Trimming and collapsing are stated for this class.
-/

namespace TemplateCheck

/-- Whether the character is white space. -/
def isBlank (c : Char) : Bool :=
  let n := c.toNat
  if n < 0x80 then n ≤ 32 && ((9 ≤ n && n ≤ 13) || 28 ≤ n)
  else
    n == 0x85 || n == 0xa0 || n == 0x1680 || (0x2000 ≤ n && n ≤ 0x200a) || n == 0x2028 ||
      n == 0x2029 || n == 0x202f || n == 0x205f || n == 0x3000

namespace Text

/-- The text without the blanks at its start. -/
def trimStart (t : Text) : Text := t.dropWhile isBlank

/-- The text without the blanks at its end. -/
def trimEnd (t : Text) : Text := dropRightWhile isBlank t

/-- The text without the blanks at its two ends. -/
def trim (t : Text) : Text := trimEnd (trimStart t)

/-- The number of blanks at the start. -/
def indent (t : Text) : Nat := (t.takeWhile isBlank).length

/-- Whether the text holds nothing but blanks. -/
def allBlank (t : Text) : Bool := t.all isBlank

theorem trimStart_eq_nil {t : Text} (h : allBlank t = true) : trimStart t = [] := by
  induction t with
  | nil => rfl
  | cons c t ih =>
    simp only [allBlank, List.all_cons, Bool.and_eq_true] at h
    simp only [trimStart, List.dropWhile_cons, h.1, if_true]
    exact ih h.2

/-- Replaces each run of blanks by one space; `pending` says that a run has just been replaced. -/
def collapseFrom (pending : Bool) : Text → Text
  | [] => []
  | c :: t =>
    if isBlank c then
      if pending then collapseFrom true t else ' ' :: collapseFrom true t
    else c :: collapseFrom false t

/-- Replaces each run of blanks by one space. -/
def collapse (t : Text) : Text := collapseFrom false t

/-- The text without its blanks. -/
def dropBlanks (t : Text) : Text := t.filter (fun c => !isBlank c)

/-- A character hidden from the reader of code: line breaks stay and all else becomes a space. -/
def hide (c : Char) : Char := if c = '\n' ∨ c = '\r' then c else ' '

theorem hide_eq (c : Char) : hide c = c ∨ hide c = ' ' := by
  unfold hide
  split
  · exact .inl rfl
  · exact .inr rfl

end Text

end TemplateCheck
