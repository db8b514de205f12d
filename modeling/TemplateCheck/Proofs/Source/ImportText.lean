import TemplateCheck.Proofs.Path
import TemplateCheck.Proofs.Pattern.Preference
import TemplateCheck.Proofs.Pattern.Replace
import TemplateCheck.Proofs.Source.Script
import TemplateCheck.Proofs.Text.Blank
import TemplateCheck.Proofs.Text.Slice
import TemplateCheck.Source.Import

/-!
# Import statements as they are written

An import statement as an author means it, how it is written down (`ImportText.print`) and what it
binds (`ImportText.bindings`).
-/

namespace TemplateCheck

/-! ## Statements -/

/-- A name that an import statement can bind: an identifier that is no word of the
statement itself. -/
structure BoundName where
  text : Text
  isIdentifier : text.isIdentifier = true
  no_word : text ∉ ["type".toList, "as".toList, "from".toList]

/-- An entry in the list of an import statement. -/
structure ListedText where
  isType : Bool
  renamedFrom : Option BoundName
  name : BoundName

/-- What an import statement binds besides a default name. -/
inductive GroupText where
  /-- All exports, as a namespace. -/
  | star (name : BoundName)
  /-- Exports by name. -/
  | list (entries : List ListedText)

/-- What an import statement binds. -/
inductive ClauseText where
  | default (name : BoundName)
  | group (others : GroupText)
  | both (name : BoundName) (others : GroupText)

/-- An import statement. -/
structure ImportText where
  isType : Bool
  clause : ClauseText
  specifier : Script.Quoted
  specifier_ne_nil : specifier.inside ≠ []
  specifier_fits : ∀ c ∈ specifier.inside, c ∉ ['"', '\'']
  /-- Whether a semicolon ends the statement. -/
  closed : Bool

/-! ## How statements are written -/

/-- The word `type` and a space in front of what it marks. -/
def typeMark (isType : Bool) : Text := if isType then "type " else []

/-- The name in an entry, with the exported one before it if it is another. -/
def ListedText.names (entry : ListedText) : Text :=
  match entry.renamedFrom with
  | some exported => exported.text ++ (" as " ++ entry.name.text)
  | none => entry.name.text

/-- An entry as it is written. -/
def ListedText.print (entry : ListedText) : Text := typeMark entry.isType ++ entry.names

/-- What an entry says. -/
def ListedText.listed (entry : ListedText) : Import.ListedName :=
  ⟨entry.name.text, entry.renamedFrom.map (·.text), entry.isType⟩

/-- What stands between the braces of a list. -/
def ListedText.printAll : List ListedText → Text
  | [] => []
  | entry :: entries => ' ' :: (Text.join ", " ((entry :: entries).map print) ++ [' '])

/-- A group as it is written. -/
def GroupText.print : GroupText → Text
  | star name => "* as " ++ name.text
  | list entries => '{' :: (ListedText.printAll entries ++ ['}'])

/-- A clause as it is written. -/
def ClauseText.print : ClauseText → Text
  | .default name => name.text
  | .group others => others.print
  | .both name others => name.text ++ (", " ++ others.print)

/-- The semicolon after a statement, if there is one. -/
def ImportText.semicolon (statement : ImportText) : Text := if statement.closed then [';'] else []

/-- A statement as it is written. -/
def ImportText.print (statement : ImportText) : Text :=
  "import" ++ ' ' :: (typeMark statement.isType ++ (statement.clause.print ++ ' ' :: ("from" ++
    ' ' :: (statement.specifier.print ++ statement.semicolon))))

/-! ## What statements bind -/

/-- A name that a statement binds, in which way, and the exported name, where it is renamed. -/
structure BindingText where
  name : Text
  kind : ImportKind
  renamedFrom : Option Text
deriving DecidableEq, Repr

/-- What an entry binds. -/
def ListedText.binding (isType : Bool) (entry : ListedText) : BindingText :=
  ⟨entry.name.text, if isType || entry.isType then .type else .named,
    entry.renamedFrom.map (·.text)⟩

/-- What a group binds. -/
def GroupText.bindings (isType : Bool) : GroupText → List BindingText
  | star name => [⟨name.text, .star, none⟩]
  | list entries => entries.map (ListedText.binding isType)

/-- What is captured of a group. -/
def GroupText.captured : GroupText → List (Import.Part × Text)
  | star name => [(.starName, name.text)]
  | list entries => [(.nameList, ListedText.printAll entries)]

/-- What is captured of a clause, the group first. -/
def ClauseText.captured : ClauseText → List (Import.Part × Text)
  | .default name => [(.defaultName, name.text)]
  | .group others => others.captured
  | .both name others => others.captured ++ [(.defaultName, name.text)]

/-- What is captured of a statement, from its end to its start. -/
def ImportText.captured (statement : ImportText) : List (Import.Part × Text) :=
  (.source, statement.specifier.inside) ::
    (statement.clause.captured ++ if statement.isType then [(.typeOnly, "type ".toList)] else [])

/-- What a default name binds. -/
def BoundName.defaultBinding (isType : Bool) (name : BoundName) : BindingText :=
  ⟨name.text, if isType then .type else .default, none⟩

/-- What a statement binds: the default name, then the group. -/
def ImportText.bindings (statement : ImportText) : List BindingText :=
  match statement.clause with
  | .default name => [name.defaultBinding statement.isType]
  | .group others => others.bindings statement.isType
  | .both name others => name.defaultBinding statement.isType :: others.bindings statement.isType

/-- The imports that stand for a statement at a place. -/
def ImportText.imports (statement : ImportText) (filePath : Text) (line : Int) (start stop : Nat) :
    List Import :=
  statement.bindings.map fun binding =>
    { name := binding.name, source := statement.specifier.inside, filePath :=
      filePath, line := line, kind := binding.kind, renamedFrom := binding.renamedFrom, start :=
        start, stop := stop }

/-- Where a statement ends that starts at an offset: behind its semicolon, or else behind the blanks
after it, of which there are `gap`. -/
def ImportText.stop (statement : ImportText) (start gap : Nat) : Nat :=
  start + statement.print.length + if statement.closed then 0 else gap

namespace BoundName

variable (name : BoundName)

theorem isNameChar_text : ∀ c ∈ name.text, isNameChar c = true :=
  isNameChar_of_isIdentifier name.isIdentifier

theorem not_mem_text {c : Char} (hc : isNameChar c = false) : c ∉ name.text :=
  fun hMem => ne_of_class (name.isNameChar_text c hMem) hc rfl

theorem isBlank_text : ∀ c ∈ name.text, isBlank c = false :=
  fun c hc => isBlank_of_isNameChar (name.isNameChar_text c hc)

theorem text_ne_nil : name.text ≠ [] := by
  obtain ⟨c, later, hText, -, -⟩ := exists_cons_of_isIdentifier name.isIdentifier
  rw [hText]
  exact List.cons_ne_nil c later

theorem trimmed_text : name.text.Trimmed :=
  ⟨fun c hc => name.isBlank_text c (List.mem_of_mem_head? hc),
    fun c hc => name.isBlank_text c (List.mem_of_getLast? hc)⟩

theorem isNameStart_head? (t : Text) : ∀ c ∈ (name.text ++ t).head?, isNameStart c = true := by
  obtain ⟨c, later, hText, hc, -⟩ := exists_cons_of_isIdentifier name.isIdentifier
  rw [hText]
  rintro d ⟨⟩
  exact hc

theorem isBlank_head? (t : Text) : ∀ c ∈ (name.text ++ t).head?, isBlank c = false :=
  fun c hc => isBlank_of_isNameChar (isNameChar_of_isNameStart (name.isNameStart_head? t c hc))

theorem text_append_ne {s t : Text} (hs : ∀ c ∈ s.head?, isNameChar c = false)
    (ht : ∀ c ∈ t.head?, isNameChar c = false) : name.text ++ s ≠ "type".toList ++ t := by
  intro h
  obtain ⟨hText, -⟩ := append_inj_of_class name.isNameChar_text (by decide) hs ht h
  exact name.no_word (by simp [hText])

end BoundName

namespace Import

/-! ## Lists of names -/

theorem readAll_listComment {t : Text} (h : '/' ∉ t) : listComment.readAll t = [] := by
  refine Pattern.readAllFrom_eq_nil (fun before c after hEq => ?_) none 0
  have hSlash : ∀ d ∈ (c :: after).head?, d ≠ '/' := by
    rintro d ⟨⟩ rfl
    exact h (by simp [hEq])
  exact (Pattern.Rejects.seq (.lit ['*'] hSlash) _).either (.seq (.lit ['/'] hSlash) _)

theorem prefers_blanks {ι : Type} {rest : Text} (hRest : ∀ c ∈ rest.head?, isBlank c = false) :
    (Pattern.blanks : Pattern ι).Prefers (' ' :: rest) rest [] :=
  .span (s := [' ']) (by decide) hRest

theorem prefers_blanks1 {ι : Type} {rest : Text} (hRest : ∀ c ∈ rest.head?, isBlank c = false) :
    (Pattern.blanks1 : Pattern ι).Prefers (' ' :: rest) rest [] :=
  .span1 (s := [' ']) (by decide) (by decide) hRest

theorem rejects_asWord {t : Text} (h : ∀ c ∈ t.head?, isBlank c = false) : asWord.Rejects t :=
  .seq (.seq (.char h) _) _

/-- A text without blanks is not split. -/
theorem splitAll_asWord_eq_self {t : Text} (h : ∀ c ∈ t, isBlank c = false) :
    asWord.splitAll t = [t] := by
  have hNone : asWord.readAll t = [] := by
    refine Pattern.readAllFrom_eq_nil (fun before c after hEq => rejects_asWord ?_) none 0
    rintro d ⟨⟩
    exact h c (by simp [hEq])
  rw [Pattern.splitAll, hNone]
  rfl

/-- The names on both sides of the word are told apart. -/
theorem splitAll_asWord {s t : Text} (hs : ∀ c ∈ s, isBlank c = false)
    (ht : ∀ c ∈ t, isBlank c = false) :
    asWord.splitAll (s ++ (" as ".toList ++ t)) = [s, t] := by
  have hHead : ∀ c ∈ t.head?, isBlank c = false := fun c hc => ht c (List.mem_of_mem_head? hc)
  have hWord : asWord.Prefers (" as ".toList ++ t) t [] :=
    (prefers_blanks1 (by rintro c ⟨⟩; decide)).seq
      ((Pattern.Prefers.lit "as" _).seq ((prefers_blanks1 hHead).seq (.empty t)))
  have hBefore : ∀ before c after, s = before ++ c :: after →
      asWord.Rejects (c :: (after ++ (" as ".toList ++ t))) := by
    intro before c after hEq
    refine rejects_asWord ?_
    rintro d ⟨⟩
    exact hs c (by simp [hEq])
  have hBehind : ∀ previous offset, asWord.readAllFrom 0 previous offset t = [] := by
    refine Pattern.readAllFrom_eq_nil fun before c after hEq => rejects_asWord ?_
    rintro d ⟨⟩
    exact ht c (by simp [hEq])
  obtain ⟨captures, -, hFound⟩ :=
    hWord.readAllFrom_eq (d := ' ') rfl (s.getLast?.or none) (0 + s.length)
  rw [Nat.zero_add] at hFound
  rw [Pattern.splitAll, Pattern.readAll, Pattern.readAllFrom_append hBefore, Nat.zero_add,
    hFound, hBehind, Pattern.splitAll.go, Pattern.splitAll.go, ← List.append_assoc,
    List.drop_left' List.length_append]
  rw [Text.slice, List.drop_zero, Nat.sub_zero, List.append_assoc, List.take_left]

theorem splitAll_names (entry : ListedText) : asWord.splitAll entry.names =
    match entry.renamedFrom with
    | some exported => [exported.text, entry.name.text]
    | none => [entry.name.text] := by
  rw [ListedText.names]
  cases entry.renamedFrom with
  | none => exact splitAll_asWord_eq_self entry.name.isBlank_text
  | some exported => exact splitAll_asWord exported.isBlank_text entry.name.isBlank_text

theorem exists_names_eq (entry : ListedText) : ∃ (name : BoundName) (tail : Text),
    entry.names = name.text ++ tail ∧ ∀ c ∈ tail.head?, isNameChar c = false := by
  rw [ListedText.names]
  cases entry.renamedFrom with
  | none => exact ⟨entry.name, [], (List.append_nil _).symm, by simp⟩
  | some exported => exact ⟨exported, _, rfl, by rintro c ⟨⟩; decide⟩

theorem trimmed_names (entry : ListedText) : entry.names.Trimmed ∧ entry.names ≠ [] := by
  rw [ListedText.names]
  cases entry.renamedFrom with
  | none => exact ⟨entry.name.trimmed_text, entry.name.text_ne_nil⟩
  | some exported =>
    exact ⟨exported.trimmed_text.append entry.name.trimmed_text exported.text_ne_nil
      entry.name.text_ne_nil _, List.append_ne_nil_of_left_ne_nil exported.text_ne_nil _⟩

theorem trimmed_print (entry : ListedText) : entry.print.Trimmed ∧ entry.print ≠ [] := by
  obtain ⟨hTrimmed, hNonempty⟩ := trimmed_names entry
  rw [ListedText.print, typeMark]
  cases entry.isType with
  | true =>
    have hMark : Text.Trimmed "type".toList := ⟨by decide, by decide⟩
    exact ⟨hMark.append hTrimmed (by decide) hNonempty [' '], List.cons_ne_nil _ _⟩
  | false => exact ⟨hTrimmed, hNonempty⟩

theorem dropStart?_print (entry : ListedText) :
    Text.dropStart? "type ".toList entry.print =
      if entry.isType then some entry.names else none := by
  rw [ListedText.print, typeMark]
  cases entry.isType with
  | true => exact Text.dropStart?_append _ _
  | false =>
    obtain ⟨name, tail, hNames, hTail⟩ := exists_names_eq entry
    cases hStart : Text.dropStart? "type ".toList entry.names with
    | none => exact hStart
    | some rest =>
      have hText := hNames.symm.trans (Text.eq_append_of_dropStart? hStart)
      exact absurd hText (name.text_append_ne (t := ' ' :: rest) hTail (by rintro c ⟨⟩; decide))

theorem not_mem_print (entry : ListedText) {c : Char} (hc : isNameChar c = false)
    (hSpace : c ≠ ' ') :
    c ∉ entry.print := by
  have hWord : ∀ word : Text, (∀ d ∈ word, isNameChar d = true ∨ d = ' ') → c ∉ word := by
    intro word hChars hMem
    rcases hChars c hMem with hName | hEq
    · exact ne_of_class hName hc rfl
    · exact hSpace hEq
  have hNames : c ∉ entry.names := by
    rw [ListedText.names]
    cases entry.renamedFrom with
    | none => exact entry.name.not_mem_text hc
    | some exported =>
      simp only [List.mem_append, not_or]
      exact ⟨exported.not_mem_text hc, hWord _ (by decide), entry.name.not_mem_text hc⟩
  rw [ListedText.print, typeMark, List.mem_append, not_or]
  refine ⟨?_, hNames⟩
  cases entry.isType with
  | true => exact hWord _ (by decide)
  | false => exact List.not_mem_nil

/-- An entry between blanks is read as it is meant. -/
theorem ofEntry?_print (entry : ListedText) {before after : Text} (hBefore : ∀ c ∈ before, c = ' ')
    (hAfter : ∀ c ∈ after, c = ' ') : ListedName.ofEntry? (before ++ (entry.print ++ after)) =
      some entry.listed := by
  obtain ⟨hTrimmed, hNonempty⟩ := trimmed_print entry
  have hSlash : '/' ∉ before ++ (entry.print ++ after) := by
    simp only [List.mem_append, not_or]
    exact ⟨fun h => absurd (hBefore _ h) (by decide), not_mem_print entry (by decide) (by decide),
      fun h => absurd (hAfter _ h) (by decide)⟩
  have hBlank : ∀ c : Char, c = ' ' → isBlank c = true := by
    rintro c rfl
    rfl
  have hTrim : Text.trim (before ++ (entry.print ++ after)) = entry.print := by
    rw [Text.trim_blanks_append fun c hc => hBlank c (hBefore c hc),
      Text.trim_append_blanks fun c hc => hBlank c (hAfter c hc), hTrimmed.trim_eq]
  have hNames := (trimmed_names entry).1.trim_eq
  have hSplit := splitAll_names entry
  rw [ListedName.ofEntry?, Pattern.replaceAll_eq_self (readAll_listComment hSlash), hTrim,
    dropStart?_print]
  dsimp only
  rw [if_neg hNonempty, ListedText.listed]
  cases hRenamed : entry.renamedFrom with
  | none =>
    rw [hRenamed] at hSplit
    have hName : entry.names = entry.name.text := by rw [ListedText.names, hRenamed]
    cases hType : entry.isType with
    | true =>
      rw [if_pos rfl]
      dsimp only
      rw [hNames, hSplit, hName]
      rfl
    | false =>
      rw [if_neg Bool.false_ne_true, ListedText.print, hType]
      dsimp only [typeMark]
      rw [if_neg Bool.false_ne_true, List.nil_append, hSplit, hName]
      rfl
  | some exported =>
    rw [hRenamed] at hSplit
    cases hType : entry.isType with
    | true =>
      rw [if_pos rfl]
      dsimp only
      rw [hNames, hSplit]
      dsimp only
      rw [entry.name.trimmed_text.trim_eq, exported.trimmed_text.trim_eq]
      rfl
    | false =>
      rw [if_neg Bool.false_ne_true, ListedText.print, hType]
      dsimp only [typeMark]
      rw [if_neg Bool.false_ne_true, List.nil_append, hSplit]
      dsimp only
      rw [entry.name.trimmed_text.trim_eq, exported.trimmed_text.trim_eq]
      rfl

theorem printAll_cons_cons (entry next : ListedText) (entries : List ListedText) :
    ListedText.printAll (entry :: next :: entries) =
      ' ' :: (entry.print ++ ',' :: ListedText.printAll (next :: entries)) := by
  simp only [ListedText.printAll, List.map_cons, Text.join, List.append_assoc]
  rfl

theorem not_mem_printAll (entries : List ListedText) {c : Char} (hc : isNameChar c = false)
    (hNot : c ∉ [' ', ',']) :
    c ∉ ListedText.printAll entries := by
  have hSpace : c ≠ ' ' := fun h => hNot (by simp [h])
  have hComma : c ≠ ',' := fun h => hNot (by simp [h])
  cases entries with
  | nil => exact List.not_mem_nil
  | cons entry entries =>
    induction entries generalizing entry with
    | nil => simp [ListedText.printAll, Text.join, hSpace, not_mem_print entry hc hSpace]
    | cons next entries ih =>
      rw [printAll_cons_cons]
      simp [hSpace, hComma, not_mem_print entry hc hSpace, ih next]

theorem listedNames_append (entry : ListedText) {s : Text} (hs : ∀ c ∈ s, c = ' ') {t : Text}
    {parts : List Text} (ht : Text.splitOn ',' t = [] :: parts) :
    listedNames (' ' :: (entry.print ++ (s ++ t))) =
      entry.listed :: parts.filterMap ListedName.ofEntry? := by
  have hComma : ',' ∉ [' '] ++ (entry.print ++ s) := by
    have hPrint := not_mem_print entry (c := ',') (by decide) (by decide)
    simp only [List.mem_append, not_or]
    exact ⟨by decide, hPrint, fun h => absurd (hs _ h) (by decide)⟩
  have hSplit := Text.splitOn_append hComma ht
  rw [List.append_nil, List.append_assoc, List.append_assoc] at hSplit
  show (Text.splitOn ',' ([' '] ++ (entry.print ++ (s ++ t)))).filterMap ListedName.ofEntry? = _
  rw [hSplit, List.filterMap_cons_some (ofEntry?_print entry (by decide) hs)]

theorem listedNames_printAll (entries : List ListedText) :
    listedNames (ListedText.printAll entries) = entries.map ListedText.listed := by
  cases entries with
  | nil => rfl
  | cons entry entries =>
    induction entries generalizing entry with
    | nil =>
      exact listedNames_append entry (s := [' ']) (t := []) (by decide) rfl
    | cons next entries ih =>
      have hRest : Text.splitOn ',' (',' :: ListedText.printAll (next :: entries)) =
          [] :: Text.splitOn ',' (ListedText.printAll (next :: entries)) :=
            Text.splitOn_cons_self ',' _
      rw [printAll_cons_cons, ← List.nil_append (',' :: _),
        listedNames_append entry (by simp) hRest]
      exact congrArg (entry.listed :: ·) (ih next)

/-! ## Statements -/

/-- The word that marks a statement whose names are all types. -/
def typeWord : Pattern Part := .capture .typeOnly (.seq (.lit "type") .blanks1)

/-- A default name, with the comma after it. -/
def defaultPart : Pattern Part :=
  .all [.capture .defaultName .identifier, .blanks, .opt (.seq (.lit [',']) .blanks)]

/-- A list of names or a namespace. -/
def groupPart : Pattern Part :=
  .either (.all [.lit ['{'], .capture .nameList (.span (Pattern.noneOf ['{', '}'])),
    .lit ['}'], .blanks])
    (.all [.lit ['*'], .blanks, .lit "as", .blanks1, .capture .starName .identifier, .blanks])

/-- Where the names come from. -/
def originPart : Pattern Part :=
  .all [.lit "from", .blanks, .either (specifier '"') (specifier '\''), .blanks, .opt (.lit [';'])]

/-- A statement behind the edge at which it begins. -/
def bodyPart : Pattern Part :=
  .seq (.lit "import") (.seq .blanks1
    (.seq (.opt typeWord) (.seq (.opt defaultPart) (.seq (.opt groupPart) originPart))))

theorem statement_eq : statement = .seq .wordEdge bodyPart := rfl

theorem prefers_name (part : Part) (name : BoundName) {rest : Text}
    (hRest : ∀ c ∈ rest.head?, isNameChar c = false) :
    (Pattern.capture part .identifier).Prefers (name.text ++ rest) rest [(part, name.text)] :=
  .capture part (.identifier name.isIdentifier hRest)

theorem prefers_groupPart (group : GroupText) {rest : Text}
    (hRest : ∀ c ∈ rest.head?, isBlank c = false) :
    groupPart.Prefers (group.print ++ ' ' :: rest) rest group.captured := by
  cases group with
  | star name =>
    show groupPart.Prefers (("* as ".toList ++ name.text) ++ ' ' :: rest) rest _
    rw [List.append_assoc]
    have hNone : ∀ c ∈ ("* as ".toList ++ (name.text ++ ' ' :: rest)).head?, c ≠ '{' := by
      rintro c ⟨⟩
      decide
    refine .right (.seq (.lit [] hNone) _) ?_
    exact (Pattern.Prefers.lit ['*'] _).seq ((prefers_blanks (by rintro c ⟨⟩; decide)).seq
      ((Pattern.Prefers.lit "as" _).seq ((prefers_blanks1 (name.isBlank_head? _)).seq
        ((prefers_name .starName name (by rintro c ⟨⟩; decide)).seq
          ((prefers_blanks hRest).seq (.empty rest))))))
  | list entries =>
    have hInside : ∀ c ∈ ListedText.printAll entries, Pattern.noneOf ['{', '}'] c = true := by
      intro c hc
      refine decide_eq_true fun hBrace => not_mem_printAll entries ?_ ?_ hc
      · rcases List.mem_pair.mp hBrace with rfl | rfl <;> decide
      · rcases List.mem_pair.mp hBrace with rfl | rfl <;> decide
    show groupPart.Prefers ('{' :: (ListedText.printAll entries ++ ['}']) ++ ' ' :: rest) rest _
    rw [List.cons_append, List.append_assoc]
    exact .left ((Pattern.Prefers.lit ['{'] _).seq ((Pattern.Prefers.capture Part.nameList
      (.span hInside (by rintro c ⟨⟩; decide))).seq ((Pattern.Prefers.lit ['}'] _).seq
        ((prefers_blanks hRest).seq (.empty rest))))) _

/-- Before the group of a statement or the word `from` no default name is read. -/
theorem rejects_defaultPart {t : Text} (h : ∀ c ∈ t.head?, isNameStart c = false) :
    defaultPart.Rejects t :=
  Pattern.Rejects.seq (.capture Part.defaultName (.seq (.char h) _)) _

/-- A default name is read up to the word `from`. -/
theorem prefers_defaultPart (name : BoundName) {rest : Text}
    (hRest : ∀ c ∈ rest.head?, isBlank c = false ∧ c ≠ ',') :
    defaultPart.Prefers (name.text ++ ' ' :: rest) rest [(.defaultName, name.text)] := by
  have hBlank : ∀ c ∈ rest.head?, isBlank c = false := fun c hc => (hRest c hc).1
  have hComma : ∀ c ∈ rest.head?, c ≠ ',' := fun c hc => (hRest c hc).2
  exact (prefers_name .defaultName name (by rintro c ⟨⟩; decide)).seq ((prefers_blanks hBlank).seq
    ((Pattern.Prefers.opt_of_rejects (.seq (.lit [] hComma) _)).seq (.empty rest)))

theorem prefers_defaultPart_comma (name : BoundName) {rest : Text}
    (hRest : ∀ c ∈ rest.head?, isBlank c = false) :
    defaultPart.Prefers (name.text ++ (", ".toList ++ rest)) rest [(.defaultName, name.text)] := by
  have hNoBlank :
      (Pattern.blanks : Pattern Part).Prefers (", ".toList ++ rest) (", ".toList ++ rest) [] :=
    .span (s := []) (by simp) (by rintro c ⟨⟩; decide)
  have hComma :
      (Pattern.seq (.lit [',']) .blanks : Pattern Part).Prefers (", ".toList ++ rest) rest [] :=
    (Pattern.Prefers.lit [','] (' ' :: rest)).seq (prefers_blanks hRest)
  exact (prefers_name .defaultName name (by rintro c ⟨⟩; decide)).seq
    (hNoBlank.seq (hComma.opt.seq (.empty rest)))

theorem rejects_groupPart {t : Text} (h : ∀ c ∈ t.head?, c ≠ '{' ∧ c ≠ '*') : groupPart.Rejects t :=
  .either (.seq (.lit [] fun c hc => (h c hc).1) _) (.seq (.lit [] fun c hc => (h c hc).2) _)

theorem head?_groupText (group : GroupText) (t : Text) :
    ∀ c ∈ (group.print ++ t).head?, c = '{' ∨ c = '*' := by
  cases group with
  | star name =>
    rintro c ⟨⟩
    exact .inr rfl
  | list entries =>
    rintro c ⟨⟩
    exact .inl rfl

theorem isBlank_head?_group (group : GroupText) (t : Text) :
    ∀ c ∈ (group.print ++ t).head?, isBlank c = false := by
  intro c hc
  rcases head?_groupText group t c hc with rfl | rfl <;> decide

theorem prefers_clause (clause : ClauseText) {q : Pattern Part} {rest t : Text}
    {found : List (Part × Text)} (hFrom : rest.head? = some 'f') (h : q.Prefers rest t found) :
    (Pattern.seq (.opt defaultPart) (.seq (.opt groupPart) q)).Prefers
      (clause.print ++ ' ' :: rest) t
      (found ++ clause.captured) := by
  have hHead : ∀ c ∈ rest.head?, c = 'f' := by
    rw [hFrom]
    rintro c ⟨⟩
    rfl
  have hBlank : ∀ c ∈ rest.head?, isBlank c = false := fun c hc => hHead c hc ▸ by decide
  cases clause with
  | default name =>
    have hDefault := prefers_defaultPart name fun c hc => show isBlank c = false ∧
      c ≠ ',' from hHead c hc ▸ by decide
    have hGroup : groupPart.Rejects rest := rejects_groupPart fun c hc => hHead c hc ▸ by decide
    have hBoth := hDefault.opt.seq ((Pattern.Prefers.opt_of_rejects hGroup).seq h)
    rwa [List.append_nil] at hBoth
  | group others =>
    have hDefault : defaultPart.Rejects (others.print ++ ' ' :: rest) := by
      refine rejects_defaultPart fun c hc => ?_
      rcases head?_groupText others _ c hc with rfl | rfl <;> decide
    have hBoth := (Pattern.Prefers.opt_of_rejects hDefault).seq
      ((prefers_groupPart others hBlank).opt.seq h)
    rwa [List.append_nil] at hBoth
  | both name others =>
    have hDefault := prefers_defaultPart_comma name (isBlank_head?_group others (' ' :: rest))
    have hBoth := hDefault.opt.seq ((prefers_groupPart others hBlank).opt.seq h)
    rw [List.append_assoc] at hBoth
    rw [ClauseText.print, ClauseText.captured, List.append_assoc, List.append_assoc]
    exact hBoth

theorem rejects_typeWord (clause : ClauseText) (t : Text) :
    typeWord.Rejects (clause.print ++ ' ' :: t) := by
  have hGroup (group : GroupText) : typeWord.Rejects (group.print ++ ' ' :: t) := by
    refine Pattern.Rejects.capture Part.typeOnly (.seq (.lit "ype" fun c hc => ?_) _)
    rcases head?_groupText group _ c hc with rfl | rfl <;> decide
  have hName (name : BoundName) (s : Text) (hs : ∀ c ∈ s.head?, isNameChar c = false) :
      typeWord.Rejects (name.text ++ s) := by
    refine .of_not_reads fun a b hRest hReads => ?_
    obtain ⟨inside, -, -, hInside, -⟩ := hReads.capture_inv
    obtain ⟨middle, hWord, hGap⟩ := hInside.seq_inv
    obtain ⟨hText, -⟩ := hWord.lit_inv
    obtain ⟨gap, hNonempty, hGapRest, hBlank, -⟩ := hGap.span1_inv
    rw [hRest, hGapRest] at hText
    refine name.text_append_ne hs ?_ hText
    obtain ⟨c, gap, rfl⟩ := List.exists_cons_of_ne_nil hNonempty
    rintro d ⟨⟩
    exact isNameChar_of_isBlank (hBlank c List.mem_cons_self)
  cases clause with
  | default name => exact hName name _ (by rintro c ⟨⟩; decide)
  | group others => exact hGroup others
  | both name others =>
    rw [ClauseText.print, List.append_assoc]
    exact hName name _ (by rintro c ⟨⟩; decide)

theorem isBlank_head?_clause (clause : ClauseText) (t : Text) :
    ∀ c ∈ (clause.print ++ t).head?, isBlank c = false := by
  cases clause with
  | default name => exact name.isBlank_head? t
  | group others => exact isBlank_head?_group others t
  | both name others =>
    rw [ClauseText.print, List.append_assoc]
    exact name.isBlank_head? _

theorem isBlank_head?_typeMark (isType : Bool) (clause : ClauseText) (t : Text) :
    ∀ c ∈ (typeMark isType ++ (clause.print ++ t)).head?, isBlank c = false := by
  cases isType with
  | true =>
    rintro c ⟨⟩
    decide
  | false => exact isBlank_head?_clause clause t

theorem prefers_typeMark (isType : Bool) (clause : ClauseText) (t : Text) :
    (Pattern.opt typeWord).Prefers (typeMark isType ++ (clause.print ++ ' ' :: t))
      (clause.print ++ ' ' :: t)
      (if isType then [(.typeOnly, "type ".toList)] else []) := by
  cases isType with
  | true =>
    have hMark : (Pattern.seq (.lit "type") .blanks1 : Pattern Part).Prefers
        ("type ".toList ++ (clause.print ++ ' ' :: t)) (clause.print ++ ' ' :: t) [] :=
      (Pattern.Prefers.lit "type" _).seq (prefers_blanks1 (isBlank_head?_clause clause _))
    exact (Pattern.Prefers.capture Part.typeOnly hMark).opt
  | false => exact .opt_of_rejects (rejects_typeWord clause t)

theorem prefers_quoted {quote : Char} (hQuote : quote = '"' ∨ quote = '\'') {inside : Text}
    (hNonempty : inside ≠ []) (hInside : ∀ c ∈ inside, Pattern.noneOf ['"', '\'', '\n'] c = true)
    (rest : Text) :
    (Pattern.either (specifier '"') (specifier '\'')).Prefers
      (quote :: (inside ++ quote :: rest)) rest
      [(.source, inside)] := by
  have hQuoted (hEnds : Pattern.noneOf ['"', '\'', '\n'] quote = false) :
      (specifier quote).Prefers (quote :: (inside ++ quote :: rest)) rest [(.source, inside)] := by
    have hEnd : ∀ c ∈ (quote :: rest).head?, Pattern.noneOf ['"', '\'', '\n'] c = false := by
      rintro c ⟨⟩
      exact hEnds
    exact (Pattern.Prefers.lit [quote] _).seq ((Pattern.Prefers.capture Part.source
      (.span1 hNonempty hInside hEnd)).seq ((Pattern.Prefers.lit [quote] rest).seq (.empty rest)))
  rcases hQuote with rfl | rfl
  · exact (hQuoted (by decide)).left _
  · refine .right (.seq (.lit [] ?_) _) (hQuoted (by decide))
    rintro c ⟨⟩
    decide

theorem prefers_specifier (statement : ImportText) (rest : Text) :
    (Pattern.either (specifier '"') (specifier '\'')).Prefers
      (statement.specifier.print ++ rest) rest
      [(.source, statement.specifier.inside)] := by
  have hPrint : statement.specifier.print ++ rest = statement.specifier.quote ::
      (statement.specifier.inside ++ (statement.specifier.quote :: rest)) := by
    simp [Script.Quoted.print]
  have hInside : ∀ c ∈ statement.specifier.inside, Pattern.noneOf ['"', '\'', '\n'] c = true := by
    intro c hc
    refine decide_eq_true fun hMem => ?_
    rcases List.mem_cons.mp hMem with rfl | hMem
    · exact statement.specifier_fits _ hc (by decide)
    · rcases List.mem_pair.mp hMem with rfl | rfl
      · exact statement.specifier_fits _ hc (by decide)
      · exact (statement.specifier.fits _ hc).2.1 rfl
  rw [hPrint]
  exact prefers_quoted statement.specifier.isQuote statement.specifier_ne_nil hInside rest

/-- What a statement without a semicolon leaves of the text behind it starts behind the blanks. -/
def rest (statement : ImportText) (gap t : Text) : Text := if statement.closed then gap ++ t else t

theorem prefers_originPart (statement : ImportText) {gap t : Text}
    (hGap : ∀ c ∈ gap, isBlank c = true) (ht : ∀ c ∈ t.head?, isBlank c = false ∧ c ≠ ';') :
    originPart.Prefers ("from".toList ++
      ' ' :: (statement.specifier.print ++ (statement.semicolon ++ (gap ++ t))))
      (rest statement gap t) [(.source, statement.specifier.inside)] := by
  have hQuote : ∀ s : Text, ∀ c ∈ (statement.specifier.print ++ s).head?, isBlank c = false := by
    rintro s c ⟨⟩
    rcases statement.specifier.isQuote with h | h <;> rw [h] <;> decide
  have hEnd : (Pattern.all [.blanks, .opt (.lit [';'])] : Pattern Part).Prefers
      (statement.semicolon ++ (gap ++ t)) (rest statement gap t) [] := by
    rw [ImportText.semicolon, rest]
    cases statement.closed with
    | true =>
      have hNoBlank :
          (Pattern.blanks : Pattern Part).Prefers (';' :: (gap ++ t)) (';' :: (gap ++ t)) [] :=
        .span (s := []) (by simp) (by rintro c ⟨⟩; decide)
      exact hNoBlank.seq ((Pattern.Prefers.lit [';'] (gap ++ t)).opt.seq (.empty (gap ++ t)))
    | false =>
      have hBlanks : (Pattern.blanks : Pattern Part).Prefers (gap ++ t) t [] :=
        .span hGap fun c hc => (ht c hc).1
      have hNone : (Pattern.lit [';'] : Pattern Part).Rejects t := .lit [] fun c hc => (ht c hc).2
      exact hBlanks.seq ((Pattern.Prefers.opt_of_rejects hNone).seq (.empty t))
  exact (Pattern.Prefers.lit "from" _).seq ((prefers_blanks (hQuote _)).seq
    ((prefers_specifier statement _).seq hEnd))

/-- A statement is read up to its end, with the blanks behind it if no semicolon ends it. -/
theorem prefers_bodyPart (statement : ImportText) {gap t : Text}
    (hGap : ∀ c ∈ gap, isBlank c = true) (ht : ∀ c ∈ t.head?, isBlank c = false ∧ c ≠ ';') :
    bodyPart.Prefers (statement.print ++ (gap ++ t)) (rest statement gap t) statement.captured := by
  have hClause := prefers_clause statement.clause rfl (prefers_originPart statement hGap ht)
  have hPrint : statement.print ++ (gap ++ t) =
      "import".toList ++ ' ' :: (typeMark statement.isType ++
      (statement.clause.print ++ ' ' :: ("from".toList ++ ' ' :: (statement.specifier.print ++
        (statement.semicolon ++ (gap ++ t)))))) := by
    unfold ImportText.print
    simp only [List.append_assoc, List.cons_append]
  rw [hPrint]
  generalize "from".toList ++
    ' ' :: (statement.specifier.print ++ (statement.semicolon ++ (gap ++ t))) = origin
    at hClause ⊢
  have hMark := prefers_typeMark statement.isType statement.clause origin
  have hBody := (Pattern.Prefers.lit "import" _).seq
    ((prefers_blanks1 (isBlank_head?_typeMark _ _ _)).seq
    (hMark.seq hClause))
  rwa [List.append_nil, List.append_nil] at hBody

/-! ## Matches -/

theorem rejects_statement_of_ne {t : Text} (h : ∀ c ∈ t.head?, c ≠ 'i') : statement.Rejects t := by
  rw [statement_eq]
  exact .look _ (.seq (.lit _ h) _)

theorem rejects_statement {t : Text} (h : ∀ c ∈ t.head?, isBlank c = true) : statement.Rejects t :=
  rejects_statement_of_ne fun c hc => ne_of_class (h c hc) (by decide)

theorem inWord_getLast?_print (statement : ImportText) {gap : Text}
    (hGap : ∀ c ∈ gap, isBlank c = true) :
    ∃ d, (statement.print ++ gap).getLast? = some d ∧ Pattern.inWord (some d) = false := by
  have hPrint : ∃ d, statement.print.getLast? = some d ∧ Pattern.inWord (some d) = false := by
    have hEnd : ∃ d, (statement.specifier.print ++ statement.semicolon).getLast? = some d ∧
        Pattern.inWord (some d) = false := by
      rw [ImportText.semicolon]
      cases statement.closed with
      | true => exact ⟨';', List.getLast?_concat, by decide⟩
      | false =>
        refine ⟨statement.specifier.quote, ?_, ?_⟩
        · simp [Script.Quoted.print, List.getLast?_cons]
        · rcases statement.specifier.isQuote with h | h <;> rw [h] <;> decide
    obtain ⟨front, hFront⟩ : ∃ front, statement.print =
        front ++ (statement.specifier.print ++ statement.semicolon) := by
      refine ⟨"import".toList ++ ' ' :: (typeMark statement.isType ++ (statement.clause.print ++
        ' ' :: ("from".toList ++ [' ']))), ?_⟩
      unfold ImportText.print
      simp only [List.append_assoc, List.cons_append, List.nil_append]
    obtain ⟨d, hd, hWord⟩ := hEnd
    exact ⟨d, by rw [hFront, List.getLast?_append, hd, Option.some_or], hWord⟩
  obtain ⟨d, hd, hWord⟩ := hPrint
  rw [List.getLast?_append]
  cases hLast : gap.getLast? with
  | none => exact ⟨d, hd, hWord⟩
  | some c => exact ⟨c, rfl, isWordChar_of_isBlank (hGap c (List.mem_of_getLast? hLast))⟩

/-- Where no word comes before it, a run goes from a statement to what it leaves. -/
theorem exists_run_statement (statement : ImportText) {gap t : Text}
    (hGap : ∀ c ∈ gap, isBlank c = true) (ht : ∀ c ∈ t.head?, isBlank c = false ∧ c ≠ ';')
    {previous : Option Char} (hPrevious : Pattern.inWord previous = false) (offset : Nat) :
    ∃ last, Import.statement.run ⟨previous, offset, statement.print ++ (gap ++ t), []⟩ some =
      some last ∧
      last.offset = statement.stop offset gap.length ∧
      Pattern.recorded last.captures = statement.captured := by
  obtain ⟨last, -, hOffset, hRecorded, hRun⟩ :=
    prefers_bodyPart statement hGap ht ⟨previous, offset, statement.print ++ (gap ++ t), []⟩ rfl
  refine ⟨last, ?_, ?_, hRecorded.trans (List.append_nil _)⟩
  · have hEdge : (Pattern.inWord previous != Pattern.inWord (some 'i')) = true := by
      rw [hPrevious]
      decide
    exact (if_pos hEdge).trans (hRun some last rfl)
  · have hWhole : last.offset + (rest statement gap t).length =
        offset + (statement.print ++ (gap ++ t)).length := hOffset
    rw [ImportText.stop]
    rw [rest, List.length_append, List.length_append] at hWhole
    cases hClosed : statement.closed with
    | true =>
      rw [hClosed, if_pos rfl, List.length_append] at hWhole
      rw [if_pos rfl]
      omega
    | false =>
      rw [hClosed, if_neg Bool.false_ne_true] at hWhole
      rw [if_neg Bool.false_ne_true]
      omega

/-- A statement is matched where it stands, and the next one is looked for behind the
blanks after it. -/
theorem exists_readAllFrom_print (statement : ImportText) {gap t : Text}
    (hGap : ∀ c ∈ gap, isBlank c = true) (ht : ∀ c ∈ t.head?, isBlank c = false ∧ c ≠ ';')
    {previous : Option Char} (hPrevious : Pattern.inWord previous = false) (offset : Nat) :
    ∃ captures previous',
      Pattern.recorded captures = statement.captured ∧ Pattern.inWord previous' = false ∧
      Import.statement.readAllFrom 0 previous offset (statement.print ++ (gap ++ t)) =
        ⟨offset, statement.stop offset gap.length, captures⟩ ::
          Import.statement.readAllFrom 0 previous'
            (offset + statement.print.length + gap.length) t := by
  obtain ⟨last, hRun, hOffset, hCaptured⟩ := exists_run_statement statement hGap ht hPrevious offset
  rw [← hOffset]
  rw [ImportText.stop] at hOffset
  cases hClosed : statement.closed with
  | true =>
    have hNoGap : ∀ c ∈ ([] : Text), isBlank c = true := by simp
    obtain ⟨d, hd, hWord⟩ := inWord_getLast?_print statement hNoGap
    rw [List.append_nil] at hd
    have hStop : last.offset = offset + statement.print.length := by
      rw [hOffset, hClosed, if_pos rfl, Nat.add_zero]
    have hBlanks : ∀ before c after, gap = before ++ c :: after →
        Import.statement.Rejects (c :: (after ++ t)) := by
      intro before c after hEq
      refine rejects_statement ?_
      rintro d ⟨⟩
      exact hGap c (by simp [hEq])
    refine ⟨last.captures, gap.getLast?.or (some d), hCaptured, ?_, ?_⟩
    · cases hLast : gap.getLast? with
      | none => exact hWord
      | some c => exact isWordChar_of_isBlank (hGap c (List.mem_of_getLast? hLast))
    · rw [Pattern.readAllFrom_of_run hd hRun hStop, Pattern.readAllFrom_append hBlanks, hStop]
  | false =>
    obtain ⟨d, hd, hWord⟩ := inWord_getLast?_print statement hGap
    have hStop : last.offset = offset + (statement.print ++ gap).length := by
      rw [hOffset, hClosed, if_neg Bool.false_ne_true, List.length_append, Nat.add_assoc]
    refine ⟨last.captures, some d, hCaptured, hWord, ?_⟩
    rw [← List.append_assoc] at hRun ⊢
    rw [Pattern.readAllFrom_of_run hd hRun hStop, hStop, List.length_append, Nat.add_assoc]

/-! ## Bindings -/

theorem map_listedNames (isType : Bool) (entries : List ListedText)
    (bind : Text → ImportKind → Option Text → Import) :
    ((listedNames (ListedText.printAll entries)).map fun entry =>
        bind entry.name (if isType || entry.isType then .type else .named) entry.renamedFrom) =
      ((GroupText.list entries).bindings isType).map fun binding =>
        bind binding.name binding.kind binding.renamedFrom := by
  rw [listedNames_printAll, GroupText.bindings, List.map_map, List.map_map]
  rfl

/-- What is captured of a statement tells what it binds. -/
theorem ofStatement_eq (statement : ImportText) (filePath : Text) (lineStarts : List Nat)
    {found : Pattern.Match Part}
    (hCaptured : Pattern.recorded found.captures = statement.captured) :
    ofStatement filePath lineStarts found =
      statement.imports filePath ((Text.positionIn lineStarts found.start).line + 1)
        found.start found.stop := by
  have hText (part : Part) : found.text? part =
      (statement.captured.find? (·.1 = part)).map (·.2) := by
    rw [Pattern.Match.text?_eq, hCaptured]
  have hSource : found.text .source = statement.specifier.inside := by
    rw [Pattern.Match.text, hText]
    rfl
  have hType : (found.text? .typeOnly).isSome = statement.isType := by
    rw [hText, ImportText.captured]
    rcases statement with ⟨isType, clause, specifier, -, -, closed⟩
    cases clause with
    | default name => cases isType <;> rfl
    | group others => cases others <;> cases isType <;> rfl
    | both name others => cases others <;> cases isType <;> rfl
  rw [ofStatement, hType, hSource, ImportText.imports, ImportText.bindings, Pattern.Match.text,
    hText, hText, hText, ImportText.captured]
  let bind (name : Text) (kind : ImportKind) (renamedFrom : Option Text) : Import :=
    ⟨name, statement.specifier.inside, filePath, (Text.positionIn lineStarts found.start).line + 1,
      kind, renamedFrom, found.start, found.stop⟩
  cases statement.clause with
  | default name => cases statement.isType <;> rfl
  | group others =>
    cases others with
    | star name => cases statement.isType <;> rfl
    | list entries =>
      cases statement.isType with
      | true => exact map_listedNames true entries bind
      | false => exact map_listedNames false entries bind
  | both name others =>
    cases others with
    | star star => cases statement.isType <;> rfl
    | list entries =>
      cases statement.isType with
      | true => exact congrArg (_ :: ·) (map_listedNames true entries bind)
      | false => exact congrArg (_ :: ·) (map_listedNames false entries bind)

end Import

end TemplateCheck
