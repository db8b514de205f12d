import TemplateCheck.Text.CodePoint

/-!
# Globs

Patterns for names and paths: `*` stands for any characters, `?` for one character, and brackets
for one of a set, or with `!` for one outside it. A slash is a character like any other. Matching
covers the whole text and minds the case. A pattern may hold surrogates, a text does not.

A set is read in chunks. A hyphen between two chunks makes a range of the last character before it
and the first one after it, and a range that runs backwards is void. The first character of a set
and the two characters after a range's hyphen are never such hyphens.
-/

namespace TemplateCheck

/-- One unit of a glob. -/
inductive GlobItem where
  | star
  | any
  | point (p : CodePoint)
  | set (negated : Bool) (ranges : List (CodePoint × CodePoint))
deriving DecidableEq, Repr

namespace GlobItem

/-- Whether the unit stands for a character; a star is not about one character. -/
def accepts (c : Char) : GlobItem → Bool
  | star => false
  | any => true
  | point p => .char c = p
  | set negated ranges =>
    ranges.any (fun range => range.1.code ≤ c.toNat && c.toNat ≤ range.2.code) != negated

end GlobItem

namespace Glob

/-! ## Sets -/

/-- What stands between the brackets of a set, in the pattern after the opening one. A closing
bracket at the start of a set is a member of it. -/
def setBody? (t : WideText) : Option WideText :=
  let sign := if t.head? = some (.char '!') then 1 else 0
  let lead := if (t.drop sign).head? = some (.char ']') then sign + 1 else sign
  if .char ']' ∈ t.drop lead then some (t.take lead ++ (t.drop lead).takeWhile (· ≠ .char ']'))
  else none

/-- Cuts a set at its hyphens; the next `keep` code points are not cut at. The chunk so far comes
with its last code point first. -/
def chunks (keep : Nat) (chunk : WideText) : WideText → List WideText
  | [] => [chunk.reverse]
  | p :: t =>
    if keep = 0 ∧ p = .char '-' then chunk.reverse :: chunks 2 [] t
    else chunks (keep - 1) (p :: chunk) t

/-- Gives a hyphen at the end of a set back to the chunk before it. -/
def mendHyphen : List WideText → List WideText
  | [] => []
  | [chunk] => [chunk]
  | chunk :: next :: rest =>
    if next = [] ∧ rest = [] then [chunk ++ [.char '-']] else chunk :: mendHyphen (next :: rest)

/-- Takes out the ranges that run backwards, with both of their ends. -/
def dropInverted : List WideText → List WideText
  | [] => []
  | chunk :: rest =>
    match dropInverted rest with
    | [] => [chunk]
    | next :: rest =>
      match chunk.getLast?, next with
      | some low, high :: next' =>
        if high.code < low.code then (chunk.dropLast ++ next') :: rest else chunk :: next :: rest
      | _, _ => chunk :: next :: rest

/-- The ranges of a chunk and those after it. A hyphen with nothing before it is a member. -/
def ranges (chunk : WideText) : List WideText → List (CodePoint × CodePoint)
  | [] => chunk.map fun p => (p, p)
  | next :: rest =>
    match chunk.getLast?, next with
    | some low, high :: next' =>
      chunk.dropLast.map (fun p => (p, p)) ++ (low, high) :: ranges next' rest
    | _, _ => (.char '-', .char '-') :: ranges next rest

/-- Reads a set from what stands between its brackets. -/
def readSet (body : WideText) : GlobItem :=
  let keep := if body.head? = some (.char '!') then 2 else 1
  match dropInverted (mendHyphen (chunks keep [] body)) with
  | (.char '!' :: chunk) :: rest => .set true (ranges chunk rest)
  | chunk :: rest => .set false (ranges chunk rest)
  | [] => .set false []

/-! ## Patterns -/

/-- Reads the units of a pattern; the next `skip` code points have been read with a set. A bracket
that is never closed stands for itself. -/
def readFrom (skip : Nat) : WideText → List GlobItem
  | [] => []
  | p :: t =>
    match skip with
    | skip + 1 => readFrom skip t
    | 0 =>
      if p = .char '*' then .star :: readFrom 0 t
      else if p = .char '?' then .any :: readFrom 0 t
      else if p = .char '[' then
        match setBody? t with
        | some body => readSet body :: readFrom (body.length + 1) t
        | none => .point p :: readFrom 0 t
      else .point p :: readFrom 0 t

/-- Reads the units of a pattern. -/
def read (pattern : WideText) : List GlobItem := readFrom 0 pattern

/-! ## Matching

What units stand for is said by `accepts`, which tries every place for the end of a star. To decide
it, `table` tells at once for a text and all of its suffixes whether the units stand for them, from
the same table for the units after the first. -/

/-- A text and all of its suffixes, down to the empty one. -/
def suffixes : Text → List Text
  | [] => [[]]
  | c :: t => (c :: t) :: suffixes t

/-- Whether the units together stand for the text. -/
def accepts : List GlobItem → Text → Bool
  | [], t => t.isEmpty
  | .star :: items, t => (suffixes t).any (accepts items)
  | _ :: _, [] => false
  | item :: items, c :: t => item.accepts c && accepts items t

/-- For each place of a list, whether it or a later one holds. -/
def anyFrom : List Bool → List Bool
  | [] => []
  | b :: bs =>
    let rest := anyFrom bs
    (b || rest.headD false) :: rest

/-- The table of units that begin with one for a single character, given the table of the units
after it without its first place. -/
def extend (item : GlobItem) : Text → List Bool → List Bool
  | c :: t, b :: bs => (item.accepts c && b) :: extend item t bs
  | _, _ => [false]

/-- For a text and all of its suffixes, whether the units stand for it. -/
def table : List GlobItem → Text → List Bool
  | [], t => t.map (fun _ => false) ++ [true]
  | .star :: items, t => anyFrom (table items t)
  | item :: items, t => extend item t (table items t).tail

theorem headD_anyFrom (bs : List Bool) : (anyFrom bs).headD false = bs.any id := by
  induction bs with
  | nil => rfl
  | cons b bs ih =>
    show (b || (anyFrom bs).headD false) = (b :: bs).any id
    rw [ih, List.any_cons]
    rfl

theorem anyFrom_suffixes (f : Text → Bool) (t : Text) :
    anyFrom ((suffixes t).map f) = (suffixes t).map fun s => (suffixes s).any f := by
  induction t with
  | nil => simp [suffixes, anyFrom]
  | cons c t ih =>
    simp only [suffixes, List.map_cons, anyFrom, ih, List.any_cons]
    rw [← ih, headD_anyFrom, List.any_map]
    rfl

theorem extend_suffixes {item : GlobItem} (h : item ≠ .star) (items : List GlobItem) (t : Text) :
    extend item t ((suffixes t).map (accepts items)).tail =
      (suffixes t).map (accepts (item :: items)) := by
  induction t with
  | nil => cases item <;> simp_all [suffixes, extend, accepts]
  | cons c t ih =>
    have step : accepts (item :: items) (c :: t) = (item.accepts c && accepts items t) := by
      cases item <;> simp_all [accepts]
    cases t with
    | nil => cases item <;> simp_all [suffixes, extend, accepts]
    | cons d t =>
      simp only [suffixes, List.map_cons, List.tail_cons, extend] at ih ⊢
      rw [ih, step]

/-- The table holds what the units stand for. -/
theorem table_eq (items : List GlobItem) (t : Text) :
    table items t = (suffixes t).map (accepts items) := by
  induction items with
  | nil =>
    induction t with
    | nil => rfl
    | cons c t ih => simpa [table, suffixes, accepts] using ih
  | cons item items ih =>
    cases item with
    | star => simp only [table, ih, anyFrom_suffixes, accepts]
    | any => simp only [table, ih]; exact extend_suffixes (by simp) items t
    | point p => simp only [table, ih]; exact extend_suffixes (by simp) items t
    | set negated ranges => simp only [table, ih]; exact extend_suffixes (by simp) items t

end Glob

/-- Whether a text as a whole has the shape of a pattern. -/
def Text.hasShape (pattern : WideText) (t : Text) : Bool :=
  (Glob.table (Glob.read pattern) t).headD false

theorem Text.hasShape_eq (pattern : WideText) (t : Text) :
    Text.hasShape pattern t = Glob.accepts (Glob.read pattern) t := by
  cases t <;> simp [Text.hasShape, Glob.table_eq, Glob.suffixes]

end TemplateCheck
