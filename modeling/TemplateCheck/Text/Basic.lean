/-!
# Texts

A text is a list of characters, and an offset counts the characters before a place in it. Every
offset of the library, from the lexer to the diagnostics, is in this unit.
-/

namespace TemplateCheck

/-- A sequence of characters. -/
abbrev Text := List Char

instance : Coe String Text := ⟨String.toList⟩

/-- Whether a text is one of a list is decided text by text. -/
instance (t : Text) (ts : List Text) : Decidable (t ∈ ts) :=
  decidable_of_iff (ts.any (· = t) = true) (by simp)

namespace Text

/-! ## Cutting -/

/-- The characters at the offsets from `start` up to, but not including, `stop`. -/
def slice (t : Text) (start stop : Nat) : Text := (t.drop start).take (stop - start)

theorem length_slice_le (t : Text) (start stop : Nat) :
    (slice t start stop).length ≤ stop - start := by
  simp only [slice, List.length_take]
  omega

/-- The text without its first and its last character. -/
def inner (t : Text) : Text := t.tail.dropLast

/-- The text without the longest run at its end of characters that satisfy `p`. -/
def dropRightWhile (p : Char → Bool) (t : Text) : Text := (t.reverse.dropWhile p).reverse

/-- What stands before the first `c`, the whole text when there is none. -/
def upTo (c : Char) (t : Text) : Text := t.takeWhile (· ≠ c)

/-- What stands after the last `c`, the whole text when there is none. -/
def afterLast (c : Char) (t : Text) : Text := (t.reverse.takeWhile (· ≠ c)).reverse

/-- What stands before the last `c`, if there is one. -/
def beforeLast? (c : Char) (t : Text) : Option Text :=
  match t.reverse.dropWhile (· ≠ c) with
  | [] => none
  | _ :: before => some before.reverse

/-- What follows `start` in a text that begins with it. -/
def dropStart? : (start t : Text) → Option Text
  | [], t => some t
  | _ :: _, [] => none
  | a :: start, c :: t => if a = c then dropStart? start t else none

theorem dropStart?_append (start t : Text) : dropStart? start (start ++ t) = some t := by
  induction start with
  | nil => rfl
  | cons a start ih => simp [dropStart?, ih]

/-- Whether `t` begins with `start`. -/
def startsWith (start t : Text) : Bool := (dropStart? start t).isSome

/-- What stands before `ending` in a text that closes with it. -/
def dropEnd? (ending t : Text) : Option Text :=
  (dropStart? ending.reverse t.reverse).map List.reverse

/-- Whether `t` closes with `ending`. -/
def endsWith (ending t : Text) : Bool := (dropEnd? ending t).isSome

/-! ## Searching -/

/-- The offset of the first occurrence of `part`. -/
def find? (part : Text) : Text → Option Nat
  | [] => if part = [] then some 0 else none
  | c :: t => if startsWith part (c :: t) then some 0 else (find? part t).map (· + 1)

/-- The offset of the last occurrence of `part`. -/
def findLast? (part : Text) : Text → Option Nat
  | [] => if part = [] then some 0 else none
  | c :: t =>
    match findLast? part t with
    | some n => some (n + 1)
    | none => if startsWith part (c :: t) then some 0 else none

/-- Whether `part` occurs in the text. -/
def contains (part t : Text) : Bool := (find? part t).isSome

/-! ## Splitting and joining -/

/-- The parts between the occurrences of `c`; one more than there are occurrences. -/
def splitOn {α : Type} [DecidableEq α] (c : α) : List α → List (List α)
  | [] => [[]]
  | d :: t =>
    if d = c then [] :: splitOn c t
    else
      match splitOn c t with
      | [] => [[d]]
      | part :: parts => (d :: part) :: parts

/-- The parts with `separator` between neighbours. -/
def join (separator : Text) : List Text → Text
  | [] => []
  | [part] => part
  | part :: parts => part ++ separator ++ join separator parts

/-- The decimal digits of an integer, after a minus sign when it is negative. -/
def ofInt (n : Int) : Text :=
  match n with
  | .ofNat m => Nat.toDigits 10 m
  | .negSucc m => '-' :: Nat.toDigits 10 (m + 1)

/-- The decimal digits of a natural number. -/
def ofNat (n : Nat) : Text := Nat.toDigits 10 n

/-- Whether `s` comes before or at `t` in the order by character code. -/
def le : (s t : Text) → Bool
  | [], _ => true
  | _ :: _, [] => false
  | c :: s, d :: t => c.toNat < d.toNat || (c = d && le s t)

end Text

/-- The elements without repetitions, each at the place of its first occurrence. -/
def distinct {α : Type} [DecidableEq α] (xs : List α) : List α :=
  xs.foldl (fun seen x => if x ∈ seen then seen else seen ++ [x]) []

end TemplateCheck
