import TemplateCheck.Text.Basic

/-!
# UTF-8

Texts as bytes. Decoding goes byte by byte and accepts exactly the shortest form of each character,
no surrogates and nothing beyond the last code point. It stops at the first byte that no character
can hold in its place; bytes that end within a character are no such place, but are no text either.
-/

namespace TemplateCheck

/-- A character of which the first bytes have been read. -/
structure Unfinished where
  /-- The bits read so far. -/
  code : Nat
  /-- How many bytes are missing besides the next one. -/
  missing : Nat
  /-- The least next byte. -/
  least : Nat
  /-- The greatest next byte. -/
  greatest : Nat
deriving DecidableEq, Repr

namespace Unfinished

/-- The character that a byte starts, if a longer one. The second byte is bounded where the shortest
form, the surrogates or the last code point ask for it. -/
def ofLead? (lead : Nat) : Option Unfinished :=
  if lead < 0xc2 then none
  else if lead < 0xe0 then some ⟨lead - 0xc0, 0, 0x80, 0xbf⟩
  else if lead < 0xf0 then
    some ⟨lead - 0xe0, 1, if lead = 0xe0 then 0xa0 else 0x80, if lead = 0xed then 0x9f else 0xbf⟩
  else if lead < 0xf5 then
    some ⟨lead - 0xf0, 2, if lead = 0xf0 then 0x90 else 0x80, if lead = 0xf4 then 0x8f else 0xbf⟩
  else none

/-- The bits of a character with those of its next byte, none when the byte is out of bounds. -/
def extend? (u : Unfinished) (byte : Nat) : Option Nat :=
  if u.least ≤ byte ∧ byte ≤ u.greatest then some (u.code * 0x40 + (byte - 0x80)) else none

end Unfinished

namespace Text

/-- Decodes bytes that follow the given beginning of a character. The result is the text and the
beginning of a character that stands at its end, none when a byte is out of place. -/
def decode? : Option Unfinished → List UInt8 → Option (Text × Option Unfinished)
  | begun, [] => some ([], begun)
  | none, byte :: bytes =>
    if byte.toNat < 0x80 then do
      let (text, begun) ← decode? none bytes
      return (Char.ofNat byte.toNat :: text, begun)
    else do decode? (some (← Unfinished.ofLead? byte.toNat)) bytes
  | some begun, byte :: bytes => do
    let code ← begun.extend? byte.toNat
    match begun.missing with
    | 0 =>
      let (text, begun) ← decode? none bytes
      return (Char.ofNat code :: text, begun)
    | missing + 1 => decode? (some ⟨code, missing, 0x80, 0xbf⟩) bytes

/-- The text of a sequence of bytes, none when it is not well formed. -/
def ofUtf8? (bytes : List UInt8) : Option Text :=
  match decode? none bytes with
  | some (text, none) => some text
  | _ => none

/-- The text of a sequence of bytes that may end within a character. -/
def openUtf8? (bytes : List UInt8) : Option Text := (decode? none bytes).map (·.1)

/-- The bytes of a text. -/
def toUtf8 (t : Text) : List UInt8 := t.flatMap String.utf8EncodeChar

/-- The text with every line end written as one line feed. -/
def unixLines : Text → Text
  | [] => []
  | '\r' :: '\n' :: t => '\n' :: unixLines t
  | '\r' :: t => '\n' :: unixLines t
  | c :: t => c :: unixLines t

/-- The lines of a text that have ended. A carriage return at the end of the text may be half of a
line end. -/
def endedLines (t : Text) : List Text :=
  (splitOn '\n' (unixLines (if t.getLast? = some '\r' then t.dropLast else t))).dropLast

end Text

end TemplateCheck
