import TemplateCheck.Proofs.Markup.Passing
import TemplateCheck.Proofs.Text.Classes

/-!
# Passing over attributes

An attribute without a value and an unquoted value end only at the character after them, in whatever
state the machine is then. `Settles` names what these states have in common: at a character that
ends an attribute, the machine acts as if it stood between attributes.

The machine settles after every attribute with the bound attribute, the static attribute and the
bound placeholders that the document gives it (`Setting.passes`), and so after any number of them
(`passes_settings`).
-/

namespace TemplateCheck

namespace Document

open Tokenizer

/-! ## Where an attribute ends -/

/-- At a character that ends an attribute, `m` does what `m'`, which stands between
attributes, does. -/
structure Settles (m m' : Machine) : Prop where
  between : m'.state = .attributeList
  react_eq : ∀ offset c t, Machine.endsAttribute c t = true →
    m.react offset c t = m'.look offset c t

/-- Between attributes the machine moves over what ends an attribute. -/
theorem look_pos_of_endsAttribute {m : Machine} (h : m.state = .attributeList) (offset : Nat)
    {c : Char} {t : Text} (hEnds : Machine.endsAttribute c t = true) :
    0 < (m.look offset c t).2 := by
  simp only [Machine.look, h]
  simp only [Machine.endsAttribute, Bool.or_eq_true, Bool.and_eq_true, decide_eq_true_eq] at hEnds
  split_ifs with hBlank hClose hSelf
  · exact Nat.one_pos
  · exact Nat.one_pos
  · exact Nat.two_pos
  · simp_all

namespace Settles

variable {regions : List Region} {tags : List Tag} {bound : List Bound} {m m' : Machine}
  {index offset : Nat}

theorem of_look (hBetween : m'.state = .attributeList)
    (hLook : ∀ offset c t, Machine.endsAttribute c t = true → m.look offset c t = (m', 0)) :
    Settles m m' where
  between := hBetween
  react_eq offset c t hEnds :=
    react_of_look_zero (hLook offset c t hEnds) (look_pos_of_endsAttribute hBetween offset hEnds)

theorem of_between (hBetween : m.state = .attributeList) : Settles m m where
  between := hBetween
  react_eq offset c t hEnds := by
    have hPos := look_pos_of_endsAttribute hBetween offset hEnds
    rw [Machine.react_eq]
    simp [Nat.ne_of_gt hPos]

theorem tagName {start : Nat} {name : Text} :
    Settles ⟨.tagName start name.reverse, tags, bound⟩
      ⟨.attributeList, ⟨name, start, [], [], false⟩ :: tags, bound⟩ := by
  refine .of_look rfl fun offset c t hEnds => ?_
  have hName : (isAlphanumeric c || c = '-' || c = '_') = false := by
    simp only [Machine.endsAttribute, Bool.or_eq_true, Bool.and_eq_true,
      decide_eq_true_eq] at hEnds
    rcases hEnds with (hBlank | rfl) | ⟨rfl, -⟩
    · have hDash : c ≠ '-' := by
        rintro rfl
        cases hBlank
      have hUnderscore : c ≠ '_' := by
        rintro rfl
        cases hBlank
      simp [isAlphanumeric_of_isBlank hBlank, hDash, hUnderscore]
    · decide
    · decide
  simp [Machine.look, hName, Machine.endTagName]

theorem attributeKey {key : Key} :
    Settles ⟨.attributeKey key, tags, bound⟩ ⟨.attributeList, tags, bound⟩ := by
  refine .of_look rfl fun offset c t hEnds => ?_
  have hEquals : c ≠ '=' := by
    rintro rfl
    cases hEnds
  simp only [Machine.look, hEquals, hEnds]
  rfl

theorem unquotedValue {value : Tokenizer.Value} :
    Settles ⟨.unquotedValue value, tags, bound⟩
      (Machine.endValue ⟨.unquotedValue value, tags, bound⟩ value) := by
  refine .of_look ?_ fun offset c t hEnds => ?_
  · unfold Machine.endValue
    dsimp only
    split
    · split_ifs <;> rfl
    · rfl
  · simp only [Machine.look, hEnds]
    rfl

theorem passes_gap (h : Settles m m') {gap : Text} (hGap : gap ≠ [])
    (hBlank : ∀ c ∈ gap, isBlank c = true) (hMarked : Marked regions index offset (chars gap)) :
    Passes regions m offset (chars gap) m' := by
  induction gap generalizing m offset with
  | nil => cases hGap rfl
  | cons c gap ih =>
    obtain ⟨hc, hRest⟩ := List.forall_mem_cons.mp hBlank
    have hOver (t : Text) : m.react offset c t = (m', 1) := by
      rw [h.react_eq _ _ _ (by simp [Machine.endsAttribute, hc])]
      simp [Machine.look, h.between, hc]
    refine .char hMarked.1 (fun later => hOver _) ?_
    cases gap with
    | nil => exact .refl _ _ _
    | cons d gap => exact ih (.of_between h.between) (List.cons_ne_nil _ _) hRest hMarked.2

theorem passes_close {tag : Tag} (h : Settles m ⟨.attributeList, tag :: tags, bound⟩)
    (selfClosing : Bool) (hTag : tag.selfClosing = false)
    (hMarked : Marked regions index offset
      (chars (if selfClosing then ['/', '>'] else ['>']))) :
    Passes regions m offset (chars (if selfClosing then ['/', '>'] else ['>']))
      ⟨.text, { tag with selfClosing := selfClosing } :: tags, bound⟩ := by
  cases selfClosing with
  | false =>
    refine .char hMarked.1 (fun later => ?_) (.refl _ _ _)
    rw [h.react_eq _ _ _ rfl, ← hTag]
    rfl
  | true =>
    refine .jump (t := ['>']) hMarked.1 (fun later => ?_) (.refl _ _ _)
    rw [h.react_eq _ _ _ rfl]
    rfl

end Settles

/-! ## Keys -/

section Settings

variable {regions : List Region} {tag : Tag} {tags : List Tag} {bound : List Bound}
  {index offset : Nat}

theorem endsAttribute_eq_false {c : Char} (h : isBlank c = false ∧ c ≠ '>' ∧ c ≠ '/') (t : Text) :
    Machine.endsAttribute c t = false := by
  simp [Machine.endsAttribute, h]

theorem passes_keyRest {start : Nat} {read key : Text}
    (hFits : ∀ c ∈ key, isBlank c = false ∧ c ≠ '=' ∧ c ≠ '>' ∧ c ≠ '/')
    (hMarked : Marked regions index offset (chars key)) :
    Passes regions ⟨.attributeKey ⟨start, read, false⟩, tags, bound⟩ offset (chars key)
      ⟨.attributeKey ⟨start, key.reverse ++ read, false⟩, tags, bound⟩ := by
  induction key generalizing offset read with
  | nil => exact .refl _ _ _
  | cons c key ih =>
    obtain ⟨⟨hBlank, hEquals, hEnds⟩, hRest⟩ := List.forall_mem_cons.mp hFits
    rw [List.reverse_cons, List.append_assoc]
    refine .char hMarked.1 (fun later => react_of_look ?_) (ih hRest hMarked.2)
    simp only [Machine.look, hEquals, endsAttribute_eq_false ⟨hBlank, hEnds⟩]
    rfl

theorem passes_key {key : Text} (hKey : key ≠ [])
    (hFits : ∀ c ∈ key, isBlank c = false ∧ c ≠ '=' ∧ c ≠ '>' ∧ c ≠ '/')
    (hMarked : Marked regions index offset (chars key)) :
    Passes regions ⟨.attributeList, tags, bound⟩ offset (chars key)
      ⟨.attributeKey ⟨offset, key.reverse, false⟩, tags, bound⟩ := by
  cases key with
  | nil => cases hKey rfl
  | cons c key =>
    obtain ⟨⟨hBlank, hEquals, hEnds⟩, hRest⟩ := List.forall_mem_cons.mp hFits
    -- The list ends before the first character of a key, and the key takes the character in.
    have hList (t : Text) :
        Machine.look ⟨.attributeList, tags, bound⟩ offset c t =
          (⟨.attributeKey ⟨offset, [], false⟩, tags, bound⟩, 0) := by
      simp [Machine.look, hBlank, hEnds, Machine.goTo]
    have hTaken (t : Text) :
        Machine.look ⟨.attributeKey ⟨offset, [], false⟩, tags, bound⟩ offset c t =
          (⟨.attributeKey ⟨offset, [c], false⟩, tags, bound⟩, 1) := by
      simp only [Machine.look, hEquals, endsAttribute_eq_false ⟨hBlank, hEnds⟩]
      rfl
    rw [List.reverse_cons]
    refine .char hMarked.1 (fun later => ?_) (passes_keyRest hRest hMarked.2)
    rw [react_of_look_zero (hList _) (by rw [hTaken]; exact Nat.one_pos), hTaken]

theorem attributeOf?_eq (start : Nat) (key : Text) :
    Machine.attributeOf? start key =
      (bindingOf? key).map fun (kind, word) => ⟨kind, word, start, key.length⟩ := by
  fun_cases bindingOf? key with
  | case1 word h => simp [Machine.attributeOf?, Text.dropStart?, h]
  | case2 word h => simp [Machine.attributeOf?, Text.dropStart?, h]
  | case3 word h => simp [Machine.attributeOf?, Text.dropStart?, h]
  | case4 word h => simp [Machine.attributeOf?, Text.dropStart?, h]
  | case5 _ hProp hEmit =>
    have hNoProp : Text.dropStart? [':'] key = none :=
      Option.eq_none_iff_forall_ne_some.mpr fun word h =>
        hProp word (Text.eq_append_of_dropStart? h)
    have hNoEmit : Text.dropStart? "@emits:" key = none :=
      Option.eq_none_iff_forall_ne_some.mpr fun word h =>
        hEmit word (Text.eq_append_of_dropStart? h)
    simp only [Machine.attributeOf?, hNoProp, hNoEmit]
    rfl

/-- What the value of a key at `start` belongs to. -/
def subjectOf (start : Nat) (key : Text) : Subject :=
  match bindingOf? key with
  | some (kind, word) => .bound ⟨kind, word, start, key.length⟩
  | none => .static key

/-- The bound attribute that a subject is. -/
def boundAttribute? : Subject → Option Attribute
  | .bound attr => some attr
  | _ => none

theorem endKey_eq {state : State} {start : Nat} {key : Text} :
    Machine.endKey ⟨state, tag :: tags, bound⟩ ⟨start, key.reverse, false⟩ =
      ⟨.awaitingValue (subjectOf start key) false,
        { tag with attributes :=
          tag.attributes ++ (boundAttribute? (subjectOf start key)).toList } ::
          tags, bound⟩ := by
  simp only [Machine.endKey, List.reverse_reverse, attributeOf?_eq, subjectOf]
  cases bindingOf? key with
  | none => simp [boundAttribute?, Machine.goTo]
  | some binding => rfl

/-! ## Values -/

/-- A value after reading more pieces. -/
def readOn (value : Tokenizer.Value) : List Piece → Tokenizer.Value
  | [] => value
  | .char c :: rest => readOn { value with text := c :: value.text } rest
  | .hole _ :: rest => readOn { value with hasPlaceholder := true } rest

@[simp] theorem subject_readOn (value : Tokenizer.Value) (pieces : List Piece) :
    (readOn value pieces).subject = value.subject := by
  fun_induction readOn value pieces with
  | case1 => rfl
  | case2 value c rest ih => exact ih
  | case3 value code rest ih => exact ih

theorem hasPlaceholder_readOn (value : Tokenizer.Value) (pieces : List Piece) :
    (readOn value pieces).hasPlaceholder = (value.hasPlaceholder || (plain? pieces).isNone) := by
  fun_induction readOn value pieces with
  | case1 => simp [plain?]
  | case2 value c rest ih => simpa [plain?] using ih
  | case3 value code rest ih => simpa [plain?] using ih

theorem text_readOn {value : Tokenizer.Value} {pieces : List Piece} {t : Text}
    (h : plain? pieces = some t) : (readOn value pieces).text = t.reverse ++ value.text := by
  fun_induction readOn value pieces generalizing t with
  | case1 =>
    cases h
    rfl
  | case2 value c rest ih =>
    obtain ⟨u, hu, rfl⟩ := Option.map_eq_some_iff.mp h
    simp [ih hu]
  | case3 => cases h

/-- The tag with static attributes added, each unless its key is taken. -/
def addStatics (tag : Tag) (entries : List (Text × Text)) : Tag :=
  { tag with
    statics := entries.foldl (fun statics entry => OrderedMap.putNew statics entry.1 entry.2)
      tag.statics }

/-- The static attribute that pieces make the value of. -/
def staticOf (subject : Subject) (pieces : List Piece) : Option (Text × Text) :=
  match subject with
  | .static key => (plain? pieces).map (key, ·)
  | _ => none

theorem endValue_readOn {state : State} {subject : Subject} (hSubject : subject ≠ .static [])
    (pieces : List Piece) :
    Machine.endValue ⟨state, tag :: tags, bound⟩ (readOn ⟨subject, false, [], false⟩ pieces) =
      ⟨.attributeList, addStatics tag (staticOf subject pieces).toList :: tags, bound⟩ := by
  cases subject with
  | bound attr => simp [Machine.endValue, staticOf, addStatics, Machine.goTo]
  | computed => simp [Machine.endValue, staticOf, addStatics, Machine.goTo]
  | static key =>
    have hKey : key ≠ [] := fun h => hSubject (h ▸ rfl)
    cases hPlain : plain? pieces with
    | none =>
      simp [Machine.endValue, staticOf, addStatics, Machine.goTo, hPlain, hasPlaceholder_readOn]
    | some t =>
      simp [Machine.endValue, staticOf, addStatics, Machine.goTo, hPlain, hasPlaceholder_readOn,
        text_readOn hPlain, hKey, Machine.changeTag]

/-- The bound placeholders among the pieces of the value of a subject. -/
def bindings (tag : Nat) (quoted : Bool) (subject : Subject) (index : Nat) (pieces : List Piece) :
    List Bound :=
  match subject with
  | .bound attr => bindAll tag attr quoted index pieces
  | _ => []

@[simp] theorem bindings_nil {tag : Nat} {quoted : Bool} {index : Nat} {subject : Subject} :
    bindings tag quoted subject index [] = [] := by
  cases subject <;> rfl

@[simp] theorem bindings_char {tag : Nat} {quoted : Bool} {index : Nat} {subject : Subject}
    {c : Char} {pieces : List Piece} :
    bindings tag quoted subject index (.char c :: pieces) =
      bindings tag quoted subject index pieces := by
  cases subject <;> rfl

theorem bindings_hole {tag : Nat} {quoted : Bool} {index : Nat} {subject : Subject}
    {code : Text} {pieces : List Piece} :
    bindings tag quoted subject index (.hole code :: pieces) =
      bindings tag quoted subject index [.hole code] ++
        bindings tag quoted subject (index + 1) pieces := by
  cases subject <;> rfl

theorem bind_eq (value : Tokenizer.Value) (h : value.detached = false) (state : State)
    (quoted : Bool) (code : Text) :
    Machine.bind ⟨state, tag :: tags, bound⟩ index value quoted =
      ⟨state, tag :: tags,
        (bindings tags.length quoted value.subject index [.hole code]).reverse ++ bound⟩ := by
  rcases value with ⟨subject, detached, text, has⟩
  obtain rfl : detached = false := h
  cases subject <;> rfl

theorem passes_spaced {quote : Char} {value : Tokenizer.Value} {pieces : List Piece}
    (hFits : ∀ c, .char c ∈ pieces → c ≠ quote) (hMarked : Marked regions index offset pieces) :
    Passes regions ⟨.quotedValue quote value true, tags, bound⟩ offset pieces
      ⟨.quotedValue quote (readOn value pieces) true, tags, bound⟩ := by
  induction pieces generalizing index offset value with
  | nil => exact .refl _ _ _
  | cons piece pieces ih =>
    have hRest := forall_char_of_cons hFits
    cases piece with
    | char c =>
      have hc : c ≠ quote := hFits c List.mem_cons_self
      refine .char hMarked.1 (fun later => react_of_look ?_) (ih hRest hMarked.2)
      simp [Machine.look, hc, Machine.goTo]
    | hole code => exact .hole hMarked.1 (ih hRest hMarked.2)

theorem passes_quotedInside {quote : Char} {value : Tokenizer.Value} {pieces : List Piece}
    (hValue : value.detached = false) (hFits : ∀ c, .char c ∈ pieces → c ≠ quote)
    (hMarked : Marked regions index offset pieces) :
    Passes regions ⟨.quotedValue quote value false, tag :: tags, bound⟩ offset pieces
      ⟨.quotedValue quote (readOn value pieces) (pieces.any Piece.isBlank), tag :: tags,
        (bindings tags.length true value.subject index
          (pieces.takeWhile (!·.isBlank))).reverse ++ bound⟩ := by
  induction pieces generalizing index offset value bound with
  | nil =>
    rw [List.takeWhile_nil, bindings_nil]
    exact .refl _ _ _
  | cons piece pieces ih =>
    have hRest := forall_char_of_cons hFits
    cases piece with
    | char c =>
      have hc : c ≠ quote := hFits c List.mem_cons_self
      have hLook (t : Text) :
          Machine.look ⟨.quotedValue quote value false, tag :: tags, bound⟩ offset c t =
            (⟨.quotedValue quote { value with text := c :: value.text } (isBlank c), tag :: tags,
              bound⟩, 1) := by
        simp [Machine.look, hc, Machine.goTo]
      refine .char hMarked.1 (fun later => react_of_look (hLook _)) ?_
      -- From the first blank on nothing is bound any more.
      cases hBlank : isBlank c with
      | true =>
        rw [List.takeWhile_cons_of_neg (by simp [Piece.isBlank, hBlank]), bindings_nil,
          List.any_cons, Piece.isBlank, hBlank]
        exact passes_spaced hRest hMarked.2
      | false =>
        rw [List.takeWhile_cons_of_pos (by simp [Piece.isBlank, hBlank]), bindings_char,
          List.any_cons, Piece.isBlank, hBlank]
        exact ih hValue hRest hMarked.2
    | hole code =>
      rw [List.takeWhile_cons_of_pos rfl, bindings_hole, List.reverse_append, List.append_assoc]
      refine .hole hMarked.1 ?_
      simp only [Machine.passPlaceholder, bind_eq value hValue _ _ code]
      exact ih hValue hRest hMarked.2

theorem passes_quoted {quote : Char} (hQuote : quote = '"' ∨ quote = '\'') {subject : Subject}
    (hSubject : subject ≠ .static []) {pieces : List Piece}
    (hFits : ∀ c, .char c ∈ pieces → c ≠ quote)
    (hMarked : Marked regions index offset (.char quote :: (pieces ++ [.char quote]))) :
    Passes regions ⟨.awaitingValue subject false, tag :: tags, bound⟩ offset
      (.char quote :: (pieces ++ [.char quote]))
      ⟨.attributeList, addStatics tag (staticOf subject pieces).toList :: tags,
        (bindings tags.length true subject index
          (pieces.takeWhile (!·.isBlank))).reverse ++ bound⟩ := by
  obtain ⟨hOpen, hInside⟩ := hMarked
  obtain ⟨hInside, hClose, -⟩ := marked_append.mp hInside
  have hBlank : isBlank quote = false := by
    rcases hQuote with rfl | rfl <;> rfl
  have hLook (t : Text) :
      Machine.look ⟨.awaitingValue subject false, tag :: tags, bound⟩ offset quote t =
        (⟨.quotedValue quote ⟨subject, false, [], false⟩ false, tag :: tags, bound⟩, 1) := by
    simp [Machine.look, hBlank, hQuote, Machine.goTo]
  refine .char hOpen (fun later => react_of_look (hLook _))
    ((passes_quotedInside rfl hFits hInside).append
      (.char hClose (fun later => react_of_look ?_) (.refl _ _ _)))
  simp [Machine.look, endValue_readOn hSubject]

theorem passes_unquotedRest {value : Tokenizer.Value} {pieces : List Piece}
    (hValue : value.detached = false)
    (hFits : ∀ c, .char c ∈ pieces → isBlank c = false ∧ c ≠ '>' ∧ c ≠ '/')
    (hMarked : Marked regions index offset pieces) :
    Passes regions ⟨.unquotedValue value, tag :: tags, bound⟩ offset pieces
      ⟨.unquotedValue (readOn value pieces), tag :: tags,
        (bindings tags.length false value.subject index pieces).reverse ++ bound⟩ := by
  induction pieces generalizing index offset value bound with
  | nil =>
    rw [bindings_nil]
    exact .refl _ _ _
  | cons piece pieces ih =>
    have hRest := forall_char_of_cons hFits
    cases piece with
    | char c =>
      have hc := hFits c List.mem_cons_self
      rw [bindings_char]
      refine .char hMarked.1 (fun later => react_of_look ?_) (ih hValue hRest hMarked.2)
      simp only [Machine.look, endsAttribute_eq_false hc]
      rfl
    | hole code =>
      rw [bindings_hole, List.reverse_append, List.append_assoc]
      refine .hole hMarked.1 ?_
      simp only [Machine.passPlaceholder, bind_eq value hValue _ _ code]
      exact ih hValue hRest hMarked.2

theorem passes_unquoted {subject : Subject} {first : Piece} {rest : List Piece}
    (hQuote : first ≠ .char '"' ∧ first ≠ .char '\'')
    (hFits : ∀ c, .char c ∈ first :: rest → isBlank c = false ∧ c ≠ '>' ∧ c ≠ '/')
    (hMarked : Marked regions index offset (first :: rest)) :
    Passes regions ⟨.awaitingValue subject false, tag :: tags, bound⟩ offset (first :: rest)
      ⟨.unquotedValue (readOn ⟨subject, false, [], false⟩ (first :: rest)), tag :: tags,
        (bindings tags.length false subject index (first :: rest)).reverse ++ bound⟩ := by
  have hRest := forall_char_of_cons hFits
  cases first with
  | char c =>
    have hc := hFits c List.mem_cons_self
    have hNoQuote : ¬(c = '"' ∨ c = '\'') := by simpa using hQuote
    rw [bindings_char]
    refine .char hMarked.1 (fun later => react_of_look ?_)
      (passes_unquotedRest rfl hRest hMarked.2)
    simp only [Machine.look, hc.1, hNoQuote, endsAttribute_eq_false hc]
    rfl
  | hole code =>
    rw [bindings_hole, List.reverse_append, List.append_assoc]
    refine .hole hMarked.1 ?_
    simp only [Machine.passPlaceholder, bind_eq ⟨subject, false, [], true⟩ rfl _ _ code]
    exact passes_unquotedRest rfl hRest hMarked.2

/-! ## Attributes -/

theorem subjectOf_ne_static_nil {start : Nat} {key : Text} (h : key ≠ []) :
    subjectOf start key ≠ .static [] := by
  unfold subjectOf
  split
  · simp
  · simpa using h

theorem passes_equals {start : Nat} {key : Text}
    (hNone : regions.find? (·.start = (offset : Int)) = none) :
    Passes regions ⟨.attributeKey ⟨start, key.reverse, false⟩, tag :: tags, bound⟩ offset
      [.char '=']
      ⟨.awaitingValue (subjectOf start key) false,
        { tag with attributes :=
          tag.attributes ++ (boundAttribute? (subjectOf start key)).toList } ::
          tags, bound⟩ := by
  refine .char hNone (fun later => react_of_look ?_) (.refl _ _ _)
  simp [Machine.look, endKey_eq]

/-- The pieces inside a value. -/
def Value.inside? : Value → Option (List Piece)
  | missing => none
  | quoted _ pieces _ _ => some pieces
  | unquoted first rest _ _ => some (first :: rest)

/-- The bound placeholders of the value of a subject. -/
def Value.bindings (tag : Nat) (subject : Subject) (index : Nat) (value : Value) : List Bound :=
  match subject with
  | .bound attr => value.bound tag attr index
  | _ => []

theorem Value.bindings_quoted {tag : Nat} {subject : Subject} {quote : Char}
    {pieces : List Piece} (hQuote : quote = '"' ∨ quote = '\'')
    (hFits : ∀ c, .char c ∈ pieces → c ≠ quote) :
    Value.bindings tag subject index (.quoted quote pieces hQuote hFits) =
      Document.bindings tag true subject index (pieces.takeWhile (!·.isBlank)) := by
  cases subject <;> rfl

theorem Value.bindings_unquoted {tag : Nat} {subject : Subject} {first : Piece}
    {rest : List Piece} (hQuote : first ≠ .char '"' ∧ first ≠ .char '\'')
    (hFits : ∀ c, .char c ∈ first :: rest → isBlank c = false ∧ c ≠ '>' ∧ c ≠ '/') :
    Value.bindings tag subject index (.unquoted first rest hQuote hFits) =
      Document.bindings tag false subject index (first :: rest) := by
  cases subject <;> rfl

theorem passes_value {start : Nat} {key : Text} (hKey : key ≠ []) {value : Value}
    {inside : List Piece} (hInside : value.inside? = some inside)
    (hMarked : Marked regions index offset value.pieces) :
    ∃ m', Passes regions ⟨.attributeKey ⟨start, key.reverse, false⟩, tag :: tags, bound⟩ offset
        value.pieces m' ∧
      Settles m' ⟨.attributeList,
        addStatics
            { tag with
              attributes := tag.attributes ++ (boundAttribute? (subjectOf start key)).toList }
            (staticOf (subjectOf start key) inside).toList :: tags,
        (value.bindings tags.length (subjectOf start key) index).reverse ++ bound⟩ := by
  have hSubject : subjectOf start key ≠ .static [] := subjectOf_ne_static_nil hKey
  cases value with
  | missing => cases hInside
  | quoted quote pieces hQuote hFits =>
    obtain rfl : pieces = inside := Option.some.inj hInside
    refine ⟨_, (passes_equals hMarked.1).append (passes_quoted hQuote hSubject hFits hMarked.2), ?_⟩
    rw [Value.bindings_quoted]
    exact .of_between rfl
  | unquoted first rest hQuote hFits =>
    obtain rfl : first :: rest = inside := Option.some.inj hInside
    refine ⟨_, (passes_equals hMarked.1).append (passes_unquoted hQuote hFits hMarked.2), ?_⟩
    rw [Value.bindings_unquoted, ← endValue_readOn hSubject]
    exact .unquotedValue

namespace Setting

/-- The tag with one more setting, whose blanks start at `offset`. -/
def addTo (offset : Nat) (tag : Tag) (setting : Setting) : Tag :=
  addStatics { tag with attributes := tag.attributes ++ (setting.attribute? offset).toList }
    setting.static?.toList

variable {setting : Setting}

theorem attribute?_eq {inside : List Piece} (h : setting.value.inside? = some inside) :
    setting.attribute? offset =
      boundAttribute? (subjectOf (offset + setting.gap.length) setting.key) := by
  unfold attribute? subjectOf
  split
  · simp_all [Value.inside?]
  · cases bindingOf? setting.key <;> rfl

theorem static?_eq {inside : List Piece} (h : setting.value.inside? = some inside) (start : Nat) :
    setting.static? = staticOf (subjectOf start setting.key) inside := by
  unfold static? subjectOf
  cases bindingOf? setting.key with
  | some binding => rfl
  | none =>
    cases hValue : setting.value <;> simp_all [Value.inside?, staticOf]

theorem bound_eq {inside : List Piece} (h : setting.value.inside? = some inside) (tag : Nat) :
    setting.bound tag index offset =
      setting.value.bindings tag (subjectOf (offset + setting.gap.length) setting.key) index := by
  rw [bound, attribute?_eq h]
  cases subjectOf (offset + setting.gap.length) setting.key <;> rfl

theorem passes_afterKey {start : Nat} (hStart : start = offset + setting.gap.length)
    (hMarked : Marked regions index (start + setting.key.length) setting.value.pieces) :
    ∃ m', Passes regions ⟨.attributeKey ⟨start, setting.key.reverse, false⟩, tag :: tags, bound⟩
        (start + setting.key.length) setting.value.pieces m' ∧
      Settles m' ⟨.attributeList, setting.addTo offset tag :: tags,
        (setting.bound tags.length index offset).reverse ++ bound⟩ := by
  subst hStart
  cases hInside : setting.value.inside? with
  | none =>
    have hMissing : setting.value = .missing := by
      cases hValue : setting.value <;> simp_all [Value.inside?]
    have hTag : setting.addTo offset tag = tag := by
      simp [addTo, attribute?, static?, hMissing, addStatics]
    have hBound : setting.bound tags.length index offset = [] := by
      simp [Setting.bound, attribute?, hMissing]
    rw [hTag, hBound, hMissing]
    exact ⟨_, .refl _ _ _, .attributeKey⟩
  | some inside =>
    rw [addTo, attribute?_eq hInside, static?_eq hInside, bound_eq hInside]
    exact passes_value setting.key_ne_nil hInside hMarked

/-- A setting, from where the one before it ends. -/
theorem passes {m : Machine} (h : Settles m ⟨.attributeList, tag :: tags, bound⟩)
    (hMarked : Marked regions index offset setting.pieces) :
    ∃ m', Passes regions m offset setting.pieces m' ∧
      Settles m' ⟨.attributeList, setting.addTo offset tag :: tags,
        (setting.bound tags.length index offset).reverse ++ bound⟩ := by
  obtain ⟨hGap, hMarked⟩ := marked_append.mp hMarked
  obtain ⟨hKey, hValue⟩ := marked_append.mp hMarked
  simp only [holes_chars, width_chars, Nat.add_zero] at hKey hValue
  obtain ⟨m', hPasses, hSettles⟩ := passes_afterKey rfl hValue
  exact ⟨m', (h.passes_gap setting.gap_ne_nil setting.gap_blank hGap).append_chars
    ((passes_key setting.key_ne_nil setting.key_fits hKey).append_chars hPasses), hSettles⟩

end Setting

/-- The tag with all of the settings, the first of which stands at `offset`. -/
def addSettings (offset : Nat) (tag : Tag) (settings : List Setting) : Tag :=
  addStatics { tag with attributes := tag.attributes ++ attributesFrom offset settings }
    (settings.filterMap Setting.static?)

theorem addSettings_cons (setting : Setting) (rest : List Setting) :
    addSettings offset tag (setting :: rest) =
      addSettings (offset + width setting.pieces) (setting.addTo offset tag) rest := by
  cases h : setting.static? <;>
    simp [addSettings, addStatics, Setting.addTo, attributesFrom, h]

theorem passes_settings {m : Machine} {settings : List Setting}
    (h : Settles m ⟨.attributeList, tag :: tags, bound⟩)
    (hMarked : Marked regions index offset (settings.flatMap Setting.pieces)) :
    ∃ m', Passes regions m offset (settings.flatMap Setting.pieces) m' ∧
      Settles m' ⟨.attributeList, addSettings offset tag settings :: tags,
        (settingsBound tags.length index offset settings).reverse ++ bound⟩ := by
  induction settings generalizing m tag bound index offset with
  | nil =>
    refine ⟨m, .refl _ _ _, ?_⟩
    simpa [addSettings, addStatics, attributesFrom, settingsBound] using h
  | cons setting rest ih =>
    rw [List.flatMap_cons] at hMarked ⊢
    obtain ⟨hFirst, hRest⟩ := marked_append.mp hMarked
    obtain ⟨m₁, hPasses, hSettles⟩ := setting.passes h hFirst
    obtain ⟨m₂, hPasses', hSettles'⟩ := ih hSettles hRest
    refine ⟨m₂, hPasses.append hPasses', ?_⟩
    rw [addSettings_cons, settingsBound, List.reverse_append, List.append_assoc]
    exact hSettles'

end Settings

end Document

end TemplateCheck
