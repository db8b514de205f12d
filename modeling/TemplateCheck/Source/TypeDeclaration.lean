import TemplateCheck.Source.Class

/-!
# Type declarations

Interfaces and type aliases by name. An interface is recorded as the intersection of its bases and
its body, an alias as its right-hand side. The first declaration of a name counts, and interfaces
come before aliases.
-/

namespace TemplateCheck

namespace TypeDeclaration

/-- The parts of a declaration. -/
inductive Part where
  | name
  | bases
deriving DecidableEq

open Pattern in
/-- An optional word and the blanks after it. -/
def modifier (word : Text) : Pattern Part := opt (seq (lit word) blanks1)

open Pattern in
/-- An interface up to the brace that opens its body. -/
def interfaceHeader : Pattern Part :=
  all [wordEdge, modifier "export", modifier "declare", lit "interface", blanks1,
    capture .name identifier, blanks,
    opt (all [lit ['<'], spanLazy (noneOf ['{']), lit ['>'], blanks]),
    opt (all [lit "extends", blanks1, capture .bases (spanLazy1 (noneOf ['{'])), blanks]),
    lit ['{']]

open Pattern in
/-- A type alias up to its right-hand side. -/
def aliasHeader : Pattern Part :=
  all [wordEdge, modifier "export", modifier "declare", lit "type", blanks1,
    capture .name identifier, blanks,
    opt (all [lit ['<'], spanLazy (noneOf ['=']), lit ['>'], blanks]), lit ['='], blanks]

/-- The offset at which a type expression ends: at a semicolon outside brackets, or at a line feed
outside brackets unless the line ends, or the next one starts, with an operator. `last` is the last
character read of the expression that is not blank. -/
def typeStopFrom (previous last : Option Char) (depth : Int) (offset : Nat) : Text → Nat
  | [] => offset
  | c :: t =>
    let step := Text.nesting previous c
    let goesOn :=
      last.all (· ∈ ['|', '&', '=', ',']) || (Text.trimStart t).head?.any (· ∈ ['|', '&'])
    if c = ';' ∧ depth ≤ 0 then offset
    else if c = '\n' ∧ depth ≤ 0 ∧ goesOn = false then offset
    else typeStopFrom (some c) (if isBlank c then last else some c) (depth + step) (offset + 1) t

/-- The name and the text of an interface. -/
def ofInterface (text mask : Text) (found : Pattern.Match Part) : Text × Text :=
  let brace := found.stop - 1
  let body := Text.slice text brace (ClassDeclaration.braceStop mask brace)
  let bases := Text.topLevelParts [','] (found.text .bases)
  (found.text .name, Text.join " & " (bases ++ [body]))

/-- The name and the text of an alias. -/
def ofAlias (text mask : Text) (found : Pattern.Match Part) : Text × Text :=
  let stop := typeStopFrom (mask[found.stop - 1]?) none 0 found.stop (mask.drop found.stop)
  (found.text .name, Text.trim (Text.slice text found.stop stop))

/-- The type declarations of a source text by name. -/
def readAll (text mask : Text) : OrderedMap Text Text :=
  let interfaces := (interfaceHeader.readAll mask).map (ofInterface text mask)
  let aliases := (aliasHeader.readAll mask).map (ofAlias text mask)
  (interfaces ++ aliases).foldl
    (fun declarations entry => OrderedMap.putNew declarations entry.1 entry.2) []

end TypeDeclaration

end TemplateCheck
