import TemplateCheck.Proofs.Text.BracketKind
import TemplateCheck.Proofs.TypeText.Members

/-!
# Members that are functions

A member that is a function is written as a method or as a property with a function type, and has
the same type either way: its parameters in parentheses, an arrow and its result
(`FunctionText.declaredBy?_print`).

Whether a member is optional is seen in the parts of its type, and a bar in the result of a function
parts the whole type (`mem_unionParts_arrow`). So without a question mark a function is optional if
`undefined` stands behind a bar in its result, but not if it stands before the first one
(`members_function`).
-/

namespace TemplateCheck

namespace TypeText

open Text

/-! ## Functions as they are written -/

/-- How a member that is a function is written. -/
inductive FunctionForm where
  | method
  | property
deriving DecidableEq

namespace FunctionForm

/-- What stands between the name of a function and its parameters. -/
def mark : FunctionForm → Text
  | method => []
  | property => ": "

/-- What stands between the parameters of a function and its result. -/
def arrow : FunctionForm → Text
  | method => ": "
  | property => " => "

/-- The text of a function up to its result. -/
def signature (form : FunctionForm) (name params : Text) : Text :=
  name ++ (form.mark ++ (('(' :: params ++ [')']) ++ form.arrow))

end FunctionForm

/-- A function type up to its result. -/
def arrowHead (params : Text) : Text := ('(' :: params ++ [')']) ++ " => ".toList

/-- A member that is a function, without a question mark: its parameters and its result are
balanced, hold no comment, and the result can stand in a member. -/
structure FunctionText where
  form : FunctionForm
  name : Text
  params : Text
  result : Text
  isIdentifier : name.isIdentifier = true
  balanced : params.Balanced
  closes : ClosesKind isParenthesis params
  no_line_comment : contains "//" params = false
  no_block_comment : contains "/*" params = false
  isResult : MemberType result

/-- What stands behind the bars of a type that stand outside brackets. -/
def laterParts (t : Text) : List Text := (splitTopLevel ['|'] t).tail.map trim

namespace FunctionText

variable (function : FunctionText)

/-- The text of a function. -/
def print : Text := function.form.signature function.name function.params ++ function.result

/-- The member that is declared in a file. -/
def member (file : Option Text) : Member where
  name := function.name
  type := ⟨arrowHead (collapse function.params) ++ trim (collapse function.result), file⟩
  optional := "undefined".toList ∈ laterParts (trim (collapse function.result))

end FunctionText

/-! ## Functions as entries -/

theorem MemberType.getLast?_ne {t : Text} (h : MemberType t) :
    (trim (Text.collapse t)).getLast? ≠ some ';' := by
  intro hLast
  obtain ⟨before, hBefore⟩ := List.getLast?_eq_some_iff.mp hLast
  obtain ⟨blanks, -, hStart⟩ := exists_trimEnd_eq (Text.collapse t)
  obtain ⟨after, hAfter, hText⟩ := exists_trimEnd_append (Text.collapse t)
  -- At the semicolon the brackets of the type are all closed.
  have hSplit : Text.collapse t = (blanks ++ before) ++ (';' :: after) := by
    rw [← hText, hStart, hBefore]
    simp only [List.append_assoc, List.singleton_append]
  have hUncut := h.collapse.uncut
  have hDepth := h.collapse.balanced.depth_eq
  have hBlank : ∀ c ∈ after, ∀ previous, nesting previous c = 0 :=
    fun c hc => nesting_of_isBlank (hAfter c hc)
  have hNesting : nesting ((blanks ++ before).getLast?.or none) ';' = 0 :=
    nesting_of_class (p := fun c => c = ';') (by decide) (by decide) _
  rw [hSplit, uncut_append] at hUncut
  rw [hSplit, depthFrom_append, depthFrom, depthFrom_of_forall hBlank] at hDepth
  exact hUncut.2.1 ⟨by decide, hDepth⟩

theorem collapseFrom_group (pending : Bool) (params rest : Text) :
    collapseFrom pending (('(' :: params ++ [')']) ++ rest) =
      ('(' :: collapse params ++ [')']) ++ collapseFrom false rest := by
  have hText : ('(' :: params ++ [')']) ++ rest = '(' :: (params ++ ')' :: rest) := by simp
  rw [hText, collapseFrom, if_neg (by decide), collapseFrom_append, collapseFrom,
    if_neg (by decide)]
  simp [collapse]

namespace FunctionForm

variable (form : FunctionForm) {name params : Text} (hName : name.isIdentifier = true)

theorem balanced_mark : form.mark.Balanced := by
  cases form with
  | method => exact .nil
  | property => exact .of_forall (by decide) (by decide)

theorem balanced_arrow : form.arrow.Balanced := by
  cases form with
  | method => exact .of_forall (by decide) (by decide)
  | property => decide

theorem plain_words : ∀ c ∈ ['/', ';', ','], isNameChar c = false ∧ c ∉ form.mark ∧
    c ∉ form.arrow := by
  cases form <;> decide

include hName

theorem balanced_name : name.Balanced := by
  have hChars := isNameChar_of_isIdentifier hName
  exact .of_forall (fun c hc => nesting_of_class (hChars c hc) (by decide) none)
    (not_mem_of_isIdentifier hName (by decide))

theorem balanced_signature (hParams : params.Balanced) : (form.signature name params).Balanced :=
  (balanced_name hName).append
    (form.balanced_mark.append ((hParams.enclosed rfl rfl).append form.balanced_arrow))

theorem uncut_signature (hParams : params.Balanced) :
    Uncut isMemberSeparator none 0 (form.signature name params) := by
  have hPlain : ∀ {word : Text}, (∀ c ∈ [';', ','], c ∉ word) →
      Uncut isMemberSeparator none 0 word :=
    fun hWord => uncut_of_forall (fun c hc => decide_eq_false fun hMem => hWord c hMem hc) none 0
  have hWords : ∀ c ∈ [';', ','], isNameChar c = false ∧ c ∉ form.mark ∧ c ∉ form.arrow :=
    fun c hc => form.plain_words c (List.mem_cons_of_mem _ hc)
  have hGroup : Uncut isMemberSeparator none 0 ('(' :: params ++ [')']) :=
    uncut_enclosed hParams rfl ⟨rfl, rfl⟩ (Option.some_ne_none _).symm
  refine (balanced_name hName).uncut_append (hPlain fun c hc => ?_) ?_
  · exact not_mem_of_isIdentifier hName (hWords c hc).1
  · exact form.balanced_mark.uncut_append (hPlain fun c hc => (hWords c hc).2.1)
      ((hParams.enclosed rfl rfl).uncut_append hGroup (hPlain fun c hc => (hWords c hc).2.2))

theorem contains_signature {second : Char} (hSecond : second ≠ ')')
    (hParams : contains ['/', second] params = false) {result : Text}
    (hResult : contains ['/', second] result = false) :
    contains ['/', second] (form.signature name params ++ result) = false := by
  obtain ⟨hNone, hBefore, hAfter⟩ := form.plain_words '/' List.mem_cons_self
  have hText : form.signature name params ++ result =
      (name ++ (form.mark ++ ['('])) ++ (params ++ ((')' :: form.arrow) ++ result)) := by
    simp [signature]
  have hStart : '/' ∉ name ++ (form.mark ++ ['(']) := by
    simp only [List.mem_append, List.mem_singleton, not_or]
    exact ⟨not_mem_of_isIdentifier hName hNone, hBefore, by decide⟩
  have hEnd : '/' ∉ ')' :: form.arrow := List.mem_cons.not.mpr (not_or.mpr ⟨by decide, hAfter⟩)
  rw [hText, contains_append_of_not_mem hStart]
  refine contains_pair_append hParams ((contains_append_of_not_mem hEnd _).trans hResult) ?_
  rintro c ⟨⟩
  exact hSecond.symm

theorem collapse_signature : collapse (form.signature name params) =
      form.signature name (collapse params) := by
  have hStart := collapseFrom_eq_self (isBlank_of_isIdentifier hName) false
  unfold signature
  rw [collapse, collapseFrom_append, hStart]
  cases form with
  | method => exact congrArg (name ++ ·) (collapseFrom_group _ params _)
  | property =>
    show name ++ (": ".toList ++ collapseFrom true (('(' :: params ++ [')']) ++ " => ".toList)) = _
    rw [collapseFrom_group]
    rfl

theorem isNameStart_signature : ∀ c ∈ (form.signature name params).head?, isNameStart c = true := by
  obtain ⟨c, later, rfl, hc, -⟩ := exists_cons_of_isIdentifier hName
  rintro d ⟨⟩
  exact hc

omit hName in
theorem getLast?_signature : (form.signature name params).getLast? = some ' ' := by
  have hText : form.signature name params =
      (name ++ (form.mark ++ ('(' :: params ++ [')']))) ++ form.arrow := by
    simp [signature]
  rw [hText, List.getLast?_append]
  cases form <;> rfl

end FunctionForm

namespace FunctionText

variable (function : FunctionText)

theorem trim_collapse_print : trim (collapse function.print) =
    function.form.signature function.name (collapse function.params) ++
      trim (collapse function.result) := by
  have hVisible : ∀ c ∈ (function.form.signature function.name function.params).head?,
      isBlank c = false :=
    fun c hc => isBlank_of_isNameChar (isNameChar_of_isNameStart
      (function.form.isNameStart_signature function.isIdentifier c hc))
  have hLast :
      pendingAfter false (function.form.signature function.name function.params) = true := by
    rw [pendingAfter, function.form.getLast?_signature]
    rfl
  rw [print, trim_collapse_append hVisible hLast function.isResult.ne_blank,
    function.form.collapse_signature function.isIdentifier]

theorem entryText : EntryText function.print where
  balanced := (function.form.balanced_signature function.isIdentifier function.balanced).append
    function.isResult.balanced
  uncut := (function.form.balanced_signature function.isIdentifier function.balanced).uncut_append
    (function.form.uncut_signature function.isIdentifier function.balanced) function.isResult.uncut
  no_line_comment := function.form.contains_signature function.isIdentifier (by decide)
    function.no_line_comment function.isResult.no_line_comment
  no_block_comment := function.form.contains_signature function.isIdentifier (by decide)
    function.no_block_comment function.isResult.no_block_comment
  starts := by
    obtain ⟨c, later, hName, hc, -⟩ := exists_cons_of_isIdentifier function.isIdentifier
    refine ⟨c, ?_, isBlank_of_isNameChar (isNameChar_of_isNameStart hc), fun hMem => ?_⟩
    · rw [print, FunctionForm.signature, hName]
      rfl
    · rcases List.mem_pair.mp hMem with rfl | rfl
      · cases hc
      · cases hc
  complete := by
    rw [function.trim_collapse_print, goesOn_append function.isResult.ne_blank]
    · exact function.isResult.complete
    · rw [function.form.getLast?_signature]
      decide

end FunctionText

/-! ## Types of functions -/

/-- The colon behind the parameters of a method stands for the arrow. -/
theorem memberType?_method {params result : Text} (hParams : ClosesKind isParenthesis params)
    (hResult : result.Trimmed) (hNonempty : result ≠ []) :
    memberType? (('(' :: params ++ [')']) ++ (": ".toList ++ result)) =
      some (arrowHead params ++ result) := by
  have hClose := parenClose?_group hParams.closesParens (": ".toList ++ result)
  have hLength : params.length + 1 + 1 = ('(' :: params ++ [')']).length := by simp
  have hDrop : trim (": ".toList ++ result) = ": ".toList ++ result :=
    Trimmed.trim_eq ⟨by rintro c ⟨⟩; decide, hResult.isBlank_getLast?_append hNonempty _⟩
  have hSpace : trim (' ' :: result) = result :=
    (trim_cons (by decide) result).trans hResult.trim_eq
  show (parenClose? (('(' :: params ++ [')']) ++ (": ".toList ++ result))).map _ = _
  rw [hClose, Option.map_some, hLength, List.drop_left, List.take_left, hDrop]
  show some ((('(' :: params ++ [')']) ++ " => ".toList) ++ trim (' ' :: result)) = _
  rw [hSpace]
  rfl

theorem balanced_arrowHead {params : Text} (h : params.Balanced) : (arrowHead params).Balanced :=
  (h.enclosed rfl rfl).append (FunctionForm.balanced_arrow .property)

theorem collapse_arrowHead (params : Text) :
    collapse (arrowHead params) = arrowHead (collapse params) :=
  collapseFrom_group false params _

theorem trim_collapse_arrow {result : Text} (h : MemberType result) (params : Text) :
    trim (collapse (arrowHead params ++ result)) =
      arrowHead (collapse params) ++ trim (collapse result) := by
  have hLast : pendingAfter false (arrowHead params) = true := by
    rw [pendingAfter, arrowHead, List.getLast?_append]
    rfl
  rw [trim_collapse_append (by rintro c ⟨⟩; decide) hLast h.ne_blank, collapse_arrowHead]

/-- A collapsed function type is its own normal form. -/
theorem normalize_arrow {result : Text} (h : MemberType result) (params : Text) :
    normalize (' ' :: (arrowHead (collapse params) ++ trim (collapse result))) =
      arrowHead (collapse params) ++ trim (collapse result) := by
  have hType := trim_collapse_arrow h params
  have hSpace : normalize (' ' :: trim (collapse (arrowHead params ++ result))) =
      normalize (arrowHead params ++ result) := by
    rw [← normalize_trim, trim_cons (by decide), normalize_trim, normalize_trim, normalize_collapse]
  rw [← hType, hSpace]
  refine normalize_eq_of_trim_collapse rfl ?_ ?_
  · rw [hType, List.getLast?_append_of_ne_nil _ h.ne_blank]
    exact h.getLast?_ne
  · rw [hType]
    exact nofun

/-- A bar in the result of a function parts its type. -/
theorem mem_unionParts_arrow {params : Text} (hParams : params.Balanced) {word : Text}
    (hNonempty : word ≠ []) (hHead : word.head? ≠ some '(') (result : Text) :
    word ∈ unionParts (arrowHead params ++ result) ↔ word ∈ laterParts result := by
  have hUncut : Uncut (· = '|') none 0 (arrowHead params) :=
    (hParams.enclosed rfl rfl).uncut_append
      (uncut_enclosed hParams rfl ⟨rfl, rfl⟩ (Option.some_ne_none _).symm)
      (uncut_of_forall (by decide) none 0)
  obtain ⟨first, hSplit⟩ := exists_splitTopLevel_append (balanced_arrowHead hParams) hUncut result
  have hFirst : word ≠ trim (arrowHead params ++ first) := by
    rintro rfl
    exact hHead (head?_trim_cons (by decide) _)
  unfold unionParts topLevelParts laterParts
  rw [hSplit, List.mem_filter, List.map_cons, List.mem_cons, or_iff_right hFirst,
    and_iff_left (decide_eq_true hNonempty)]

/-- Written either way, what follows the name of a function says that it has the function type. -/
theorem FunctionForm.exists_memberType?_eq (form : FunctionForm) {params result : Text}
    (hParams : ClosesKind isParenthesis params) (hResult : MemberType result) :
    ∃ next rest, next ∈ [':', '('] ∧
      (form.mark ++ (('(' :: collapse params ++ [')']) ++ form.arrow)) ++ trim (collapse result) =
        next :: rest ∧
        memberType? (next :: rest) =
          some (arrowHead (collapse params) ++ trim (collapse result)) := by
  cases form with
  | method =>
    have hType := memberType?_method hParams.collapse (trimmed_trim (collapse result))
      hResult.ne_blank
    rw [← List.append_assoc] at hType
    exact ⟨_, _, List.mem_cons_of_mem _ List.mem_cons_self, rfl, hType⟩
  | property =>
    exact ⟨_, _, List.mem_cons_self, rfl, congrArg some (normalize_arrow hResult params)⟩

namespace FunctionText

variable (function : FunctionText)

/-- A function declares its member. -/
theorem declaredBy?_print (file : Option Text) :
    declaredBy? file function.print = some (function.member file) := by
  have hBalanced : (collapse function.params).Balanced := function.balanced.collapseFrom false
  have hOptional : "undefined".toList ∈ unionParts
      (arrowHead (collapse function.params) ++ trim (collapse function.result)) ↔
        "undefined".toList ∈ laterParts (trim (collapse function.result)) :=
    mem_unionParts_arrow hBalanced (by decide) (by decide) _
  obtain ⟨next, rest, hNext, hText, hType⟩ :=
    function.form.exists_memberType?_eq function.closes function.isResult
  have hTrimmed : Trimmed (next :: rest) := by
    refine ⟨?_, hText ▸ (trimmed_trim _).isBlank_getLast?_append function.isResult.ne_blank _⟩
    rintro c ⟨⟩
    rcases List.mem_pair.mp hNext with rfl | rfl <;> decide
  have hEntry : trim (collapse function.print) =
      (function.name ++ markText false) ++ next :: rest := by
    rw [trim_collapse_print, FunctionForm.signature, List.append_assoc, hText]
    exact congrArg (· ++ next :: rest) (List.append_nil function.name).symm
  rw [declaredBy?, hEntry, memberOf?_eq function.isIdentifier false hNext rest hTrimmed hType]
  simp only [Bool.false_or, hOptional]
  rfl

end FunctionText

/-! ## Functions among members -/

/-- In an object type a function without a question mark is optional if `undefined` stands behind a
bar in its result, however the function and what stands beside it are written. -/
theorem members_function (function : FunctionText) {before after : List Text} {body : Text}
    (h : IsLayout (IsFiller isBlank) (before ++ function.print :: after) body) (program : Program)
    (file : Option Text)
    (hLast : ∀ entry ∈ after, ∀ later ∈ declaredBy? file entry, later.name ≠ function.name) :
    (TypeText.members program ⟨objectText body, file⟩).filter (·.name = function.name) =
      [function.member file] := by
  have hMembers : TypeText.members program ⟨objectText body, file⟩ =
      Member.merge ((before ++ function.print :: after).filterMap (declaredBy? file)) :=
    h.membersUpTo_eq program 8 file
  have hAfter : (after.filterMap (declaredBy? file)).filter (·.name = function.name) = [] := by
    refine List.filter_eq_nil_iff.mpr fun later hLater => ?_
    obtain ⟨entry, hEntry, hDeclared⟩ := List.mem_filterMap.mp hLater
    exact fun hName => hLast entry hEntry later hDeclared (of_decide_eq_true hName)
  have hName : decide ((function.member file).name = function.name) = true := decide_eq_true rfl
  rw [hMembers, Member.filter_merge, List.filterMap_append, List.filterMap_cons,
    function.declaredBy?_print, List.filter_append]
  dsimp only
  rw [List.filter_cons, if_pos hName, hAfter, List.getLast?_concat]
  rfl

theorem members_function_callback :
    let text : Text :=
      "{ m(f: (n: number) => void): string | undefined; n: () => undefined | string }"
  (TypeText.members (.empty {}) ⟨text, none⟩).filter (·.name = "m".toList) =
      [⟨"m", ⟨"(f: (n: number) => void) => string | undefined", none⟩, true⟩] := by
  intro text
  let method : FunctionText :=
    ⟨.method, "m", "f: (n: number) => void", "string | undefined", by decide, by decide,
    by decide, by decide, by decide, by decide⟩
  let property : FunctionText :=
    ⟨.property, "n", "", "undefined | string", by decide, by decide, by decide,
    by decide, by decide, by decide⟩
  have hSpace : IsFiller isBlank [' '] := .gap (by decide) .nil
  let body : Text := [' '] ++ (method.print ++ ([] ++ ';' :: ([' '] ++ (property.print ++ [' ']))))
  have hLayout : IsLayout (IsFiller isBlank) ([] ++ method.print :: [property.print]) body :=
    .cons method.entryText hSpace .nil (by decide) (.last property.entryText hSpace hSpace)
  have hOther : ∀ entry ∈ [property.print], ∀ later ∈ declaredBy? none entry,
      later.name ≠ method.name := by
    rintro entry hEntry later hLater
    rw [List.mem_singleton.mp hEntry, property.declaredBy?_print] at hLater
    rw [← Option.some.inj hLater]
    decide
  have hMember : method.member none =
      ⟨"m", ⟨"(f: (n: number) => void) => string | undefined", none⟩, true⟩ := by
    decide +kernel
  have hText : text = objectText body := by decide +kernel
  have hMembers := members_function method hLayout (.empty {}) none hOther
  rw [hMember, ← hText] at hMembers
  exact hMembers

/-- No question mark is written here: `undefined` at the end of the result makes a function
optional, and at its start it does not. -/
theorem members_function_optional :
    let read (t : Text) : List Member := TypeText.members (.empty {}) ⟨t, none⟩
    read "{ m(): string | undefined }" = [⟨"m", ⟨"() => string | undefined", none⟩, true⟩] ∧
      read "{ m: () => string | undefined }" = [⟨"m", ⟨"() => string | undefined", none⟩, true⟩] ∧
      read "{ m(): undefined | string }" = [⟨"m", ⟨"() => undefined | string", none⟩, false⟩] := by
  decide +kernel

end TypeText

end TemplateCheck
