import TemplateCheck.Json.Value
import TemplateCheck.Text.Hex

/-!
# Reading JSON

A strict reader: one value with blanks around it, no trailing commas, no control characters in
strings. The words `NaN`, `Infinity` and `-Infinity` are numbers. Of two fields with one key the
later value counts, in the place of the earlier. The length of the text bounds the recursion.

A text is read from left to right, so what is wrong first is the error: that it is malformed, or
that it goes beyond one of two limits, on the digits of an integer and on the depth of nesting.
-/

namespace TemplateCheck

/-- A limit that a text goes beyond. -/
inductive JsonLimit where
  /-- An integer has too many digits. -/
  | digits (count : Nat)
  /-- Arrays are nested too deep. -/
  | arrays
  /-- Objects are nested too deep. -/
  | objects
deriving DecidableEq, Repr

/-- Why a text is not read. -/
inductive JsonError where
  | malformed
  | limit (limit : JsonLimit)
deriving DecidableEq, Repr

namespace Json

/-- The most digits of an integer. -/
def digitLimit : Nat := 4300

/-- How deep arrays and objects may be nested at most. -/
def nestingLimit : Nat := 989

/-- What was read, or else the text is malformed. -/
def orMalformed {α : Type} : Option α → Except JsonError α
  | some a => .ok a
  | none => .error .malformed

/-- The text after its blanks; only these four characters are blanks. -/
def skipBlanks (t : Text) : Text := t.dropWhile (· ∈ [' ', '\t', '\n', '\r'])

/-! ## Strings -/

/-- The character behind a backslash and a letter. -/
def shortEscape? (c : Char) : Option Char :=
  match c with
  | '"' => some '"'
  | '\\' => some '\\'
  | '/' => some '/'
  | 'b' => some '\x08'
  | 'f' => some '\x0c'
  | 'n' => some '\n'
  | 'r' => some '\r'
  | 't' => some '\t'
  | _ => none

/-- The code point of a code unit on its own. -/
def pointOfUnit (unit : Nat) : CodePoint :=
  if 0xd800 ≤ unit ∧ unit < 0xe000 then .surrogate unit else .char (Char.ofNat unit)

/-- Reads a code unit of four digits after `\u`. -/
def readUnit? (t : Text) : Option (Nat × Text) :=
  if t.length < 4 then none else (Text.readHex? (t.take 4)).map (·, t.drop 4)

/-- Reads the code point of an escape after `\u`; two surrogates make one character. -/
def readUnicode? (t : Text) : Option (CodePoint × Text) := do
  let (unit, rest) ← readUnit? t
  let pair := do
    let (low, rest) ← readUnit? (← Text.dropStart? ['\\', 'u'] rest)
    if 0xd800 ≤ unit ∧ unit < 0xdc00 ∧ 0xdc00 ≤ low ∧ low < 0xe000 then
      some (CodePoint.char (Char.ofNat (0x10000 + (unit - 0xd800) * 0x400 + (low - 0xdc00))), rest)
    else none
  return pair.getD (pointOfUnit unit, rest)

/-- Reads the code points of a string after its opening quote, and what follows the closing one. -/
def readString? : (bound : Nat) → Text → Option (WideText × Text)
  | 0, _ => none
  | _ + 1, [] => none
  | bound + 1, c :: t =>
    if c = '"' then some ([], t)
    else if c.toNat < 0x20 then none
    else if c = '\\' then
      match t with
      | [] => none
      | 'u' :: t => do
        let (point, t) ← readUnicode? t
        let (text, rest) ← readString? bound t
        return (point :: text, rest)
      | d :: t => do
        let c ← shortEscape? d
        let (text, rest) ← readString? bound t
        return (.char c :: text, rest)
    else do
      let (text, rest) ← readString? bound t
      return (.char c :: text, rest)

/-! ## Numbers -/

/-- The digits at the start of a text, if there are any, and what follows. -/
def readDigits? (t : Text) : Option (Text × Text) :=
  let digits := t.takeWhile Char.isDigit
  if digits = [] then none else some (digits, t.drop digits.length)

/-- The fraction at the start of a text, empty if there is none, and what follows. -/
def readFraction (t : Text) : Text × Text :=
  match t with
  | '.' :: rest =>
    match readDigits? rest with
    | some (digits, rest) => ('.' :: digits, rest)
    | none => ([], t)
  | _ => ([], t)

/-- The exponent at the start of a text, empty if there is none, and what follows. -/
def readExponent (t : Text) : Text × Text :=
  match t with
  | e :: rest =>
    if e = 'e' ∨ e = 'E' then
      let (sign, rest) :=
        match rest with
        | '+' :: rest => (['+'], rest)
        | '-' :: rest => (['-'], rest)
        | _ => ([], rest)
      match readDigits? rest with
      | some (digits, rest) => (e :: sign ++ digits, rest)
      | none => ([], t)
    else ([], t)
  | [] => ([], t)

/-- Reads a number without a sign; a zero at its start is its whole integral part. -/
def readUnsigned? (t : Text) : Option (Text × Text) := do
  let (whole, rest) ←
    match t with
    | '0' :: rest => some (['0'], rest)
    | _ => readDigits? t
  let (fraction, rest) := readFraction rest
  let (exponent, rest) := readExponent rest
  return (whole ++ fraction ++ exponent, rest)

/-- Reads a number. -/
def readNumber? (t : Text) : Option (Text × Text) :=
  match t with
  | '-' :: rest => (readUnsigned? rest).map fun (digits, rest) => ('-' :: digits, rest)
  | _ => readUnsigned? t

/-! ## Values -/

/-- The words that stand for values. -/
def words : List (Text × Json) :=
  [("null", null), ("true", bool true), ("false", bool false), ("NaN", number "NaN"),
    ("Infinity", number "Infinity"), ("-Infinity", number "-Infinity")]

/-- The number with the given digits. An integer is refused if it has too many of them. -/
def ofDigits (digits : Text) : Except JsonError Json :=
  let count := (digits.filter Char.isDigit).length
  if digits.all (fun c => c.isDigit || c = '-') && digitLimit < count then
    .error (.limit (.digits count))
  else .ok (number digits)

/-- Reads a word or a number. -/
def readAtom (t : Text) : Except JsonError (Json × Text) :=
  let word := words.findSome? fun (word, value) =>
    (Text.dropStart? word t).map (value, ·)
  match word with
  | some found => .ok found
  | none => do
    let (digits, rest) ← orMalformed (readNumber? t)
    return (← ofDigits digits, rest)

mutual

/-- Reads a value, in which arrays and objects are nested at most `depth` deep, and what follows
it. -/
def readValue : (bound depth : Nat) → Text → Except JsonError (Json × Text)
  | 0, _, _ => .error .malformed
  | bound + 1, depth, t =>
    match t with
    | '"' :: t => do
      let (text, rest) ← orMalformed (readString? (t.length + 1) t)
      return (string text, rest)
    | '[' :: t =>
      if depth = 0 then .error (.limit .arrays)
      else
        match skipBlanks t with
        | ']' :: rest => .ok (array [], rest)
        | t => do
          let (items, rest) ← readItems bound (depth - 1) t
          return (array items, rest)
    | '{' :: t =>
      if depth = 0 then .error (.limit .objects)
      else
        match skipBlanks t with
        | '}' :: rest => .ok (object [], rest)
        | t => do
          let (fields, rest) ← readFields bound (depth - 1) t
          return (object (fields.foldl (fun m field => OrderedMap.put m field.1 field.2) []), rest)
    | t => readAtom t

/-- Reads the items of an array up to its closing bracket. -/
def readItems : (bound depth : Nat) → Text → Except JsonError (List Json × Text)
  | 0, _, _ => .error .malformed
  | bound + 1, depth, t => do
    let (item, rest) ← readValue bound depth t
    match skipBlanks rest with
    | ']' :: rest => return ([item], rest)
    | ',' :: rest =>
      let (items, rest) ← readItems bound depth (skipBlanks rest)
      return (item :: items, rest)
    | _ => .error .malformed

/-- Reads the fields of an object up to its closing brace. -/
def readFields : (bound depth : Nat) → Text → Except JsonError (List (WideText × Json) × Text)
  | 0, _, _ => .error .malformed
  | bound + 1, depth, t => do
    let t ← orMalformed (Text.dropStart? ['"'] t)
    let (key, rest) ← orMalformed (readString? (t.length + 1) t)
    let rest ← orMalformed (Text.dropStart? [':'] (skipBlanks rest))
    let (value, rest) ← readValue bound depth (skipBlanks rest)
    match skipBlanks rest with
    | '}' :: rest => return ([(key, value)], rest)
    | ',' :: rest =>
      let (fields, rest) ← readFields bound depth (skipBlanks rest)
      return ((key, value) :: fields, rest)
    | _ => .error .malformed

end

/-- Reads a text that holds one value, nested at most `depth` deep. -/
def read (depth : Nat) (t : Text) : Except JsonError Json := do
  let (value, rest) ← readValue (t.length + 1) depth (skipBlanks t)
  if skipBlanks rest = [] then return value else .error .malformed

end Json

end TemplateCheck
