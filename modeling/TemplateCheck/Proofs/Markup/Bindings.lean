import TemplateCheck.Proofs.Markup.Visits

/-!
# What a binding says about the text

A placeholder is bound to the attribute whose value it stands in, unless blanks separate it from the
equals sign. The tokenizer keeps in its state what it needs for that; here the state is related to
the text that was read.

1. A state in which a value is read may bind a placeholder to an attribute (`Value.attribute?`).
   Then the value follows the equals sign of that attribute and holds blanks in placeholders only
   (`ReadsValue`).
2. This holds wherever the machine comes to stand (`Visits.follows`): a step keeps it
   (`Machine.Follows.step`), and so does a placeholder (`Machine.Follows.passPlaceholder`).
3. So it holds of every placeholder that is bound, up to where it begins
   (`Placed.follows_of_mem_bound`), and the offsets of a binding can be read off the text
   (`TemplateScan.bindings_sound`).
-/

namespace TemplateCheck

/-- Where the key of the attribute ends. -/
def Attribute.stop (attr : Attribute) : Nat := attr.start + attr.length

namespace Tokenizer

/-- Between two offsets of the body, blanks stand in placeholders only. -/
def Unspaced (body : Text) (placeholders : List (Int × Int)) (start stop : Nat) : Prop :=
  ∀ (i : Nat) (c : Char), start ≤ i → i < stop → body[i]? = some c → isBlank c = true →
    ∃ p ∈ placeholders, p.1 ≤ i ∧ i < p.2 ∧ p.2 ≤ stop

section

variable {body t : Text} {placeholders : List (Int × Int)} {start offset : Nat} {c : Char}

theorem Unspaced.refl (body : Text) (placeholders : List (Int × Int)) (offset : Nat) :
    Unspaced body placeholders offset offset :=
  fun _ _ hLow hHigh => absurd hLow (Nat.not_le_of_lt hHigh)

theorem Unspaced.mono (h : Unspaced body placeholders start offset) {offset' : Nat}
    (hLe : offset ≤ offset')
    (hLater : ∀ (i : Nat) (c : Char), offset ≤ i → i < offset' →
      body[i]? = some c → isBlank c = true →
      ∃ p ∈ placeholders, p.1 ≤ i ∧ i < p.2 ∧ p.2 ≤ offset') :
    Unspaced body placeholders start offset' := by
  intro i c hLow hHigh hc hBlank
  rcases Nat.lt_or_ge i offset with hBefore | hBehind
  · obtain ⟨p, hp, hStart, hStop, hEnd⟩ := h i c hLow hBefore hc hBlank
    exact ⟨p, hp, hStart, hStop, by omega⟩
  · exact hLater i c hBehind hHigh hc hBlank

theorem Unspaced.character (h : Unspaced body placeholders start offset)
    (hText : body.drop offset = c :: t) (hc : isBlank c = false) :
    Unspaced body placeholders start (offset + 1) := by
  refine h.mono (Nat.le_succ offset) fun i d hLow hHigh hd hBlank => ?_
  obtain rfl : i = offset := by omega
  rw [Text.getElem?_of_drop hText] at hd
  rw [Option.some.inj hd, hBlank] at hc
  cases hc

theorem Unspaced.placeholder (h : Unspaced body placeholders start offset) {p : Int × Int}
    (hp : p ∈ placeholders) (hStart : p.1 = offset) {offset' : Nat} (hStop : p.2 = offset')
    (hLe : offset ≤ offset') : Unspaced body placeholders start offset' :=
  h.mono hLe fun i _ hLow hHigh _ _ => ⟨p, hp, by omega, by omega, by omega⟩

end

/-! ## What the states say -/

/-- The attribute that a placeholder in the value is bound to. -/
def Value.attribute? (value : Value) : Option Attribute :=
  match value.subject with
  | .bound attr => if value.detached then none else some attr
  | _ => none

/-- The value of the attribute is being read: it follows the equals sign, with or without a quote,
and up to the offset it holds blanks in placeholders only. -/
structure ReadsValue (body : Text) (placeholders : List (Int × Int)) (attr : Attribute)
    (quoted : Bool) (offset : Nat) : Prop where
  equals : body[attr.stop]? = some '='
  lt : attr.stop < offset
  quoted_iff : quoted = true ↔ body[attr.stop + 1]? = some '"' ∨ body[attr.stop + 1]? = some '\''
  unspaced : Unspaced body placeholders (attr.stop + 1) offset

section

variable {body t : Text} {placeholders : List (Int × Int)} {attr : Attribute} {quoted : Bool}
  {offset : Nat} {c : Char}

theorem ReadsValue.character (h : ReadsValue body placeholders attr quoted offset)
    (hText : body.drop offset = c :: t) (hc : isBlank c = false) :
    ReadsValue body placeholders attr quoted (offset + 1) where
  equals := h.equals
  lt := Nat.lt_succ_of_lt h.lt
  quoted_iff := h.quoted_iff
  unspaced := h.unspaced.character hText hc

theorem ReadsValue.placeholder (h : ReadsValue body placeholders attr quoted offset) {p : Int × Int}
    (hp : p ∈ placeholders) (hStart : p.1 = offset) {offset' : Nat} (hStop : p.2 = offset')
    (hLe : offset ≤ offset') : ReadsValue body placeholders attr quoted offset' where
  equals := h.equals
  lt := Nat.lt_of_lt_of_le h.lt hLe
  quoted_iff := h.quoted_iff
  unspaced := h.unspaced.placeholder hp hStart hStop hLe

theorem ReadsValue.first (hEquals : body[attr.stop]? = some '=')
    (hc : body[attr.stop + 1]? = some c) (hQuoted : quoted = true ↔ c = '"' ∨ c = '\'') :
    ReadsValue body placeholders attr quoted (attr.stop + 1) where
  equals := hEquals
  lt := Nat.lt_succ_self _
  quoted_iff := by rw [hc, Option.some.injEq, Option.some.injEq, hQuoted]
  unspaced := .refl body placeholders _

theorem ReadsValue.quoted_eq_false (h : ReadsValue body placeholders attr quoted offset)
    (hDollar : body[attr.stop + 1]? = some '$') : quoted = false := by
  by_contra hQuoted
  have hAfter := h.quoted_iff.mp (Bool.not_eq_false _ ▸ hQuoted)
  rw [hDollar] at hAfter
  exact absurd hAfter (by decide)

theorem isBlank_of_isQuote (h : c = '"' ∨ c = '\'') : isBlank c = false := by
  rcases h with rfl | rfl <;> decide

end

/-- What a state at an offset says about the value that is being read. -/
def State.Follows (body : Text) (placeholders : List (Int × Int)) (offset : Nat) : State → Prop
  | .awaitingValue subject detached => ∀ attr,
      Value.attribute? ⟨subject, detached, [], false⟩ = some attr →
    body[attr.stop]? = some '=' ∧ offset = attr.stop + 1
  | .quotedValue _ value spaced => spaced = false → ∀ attr, value.attribute? = some attr →
    ReadsValue body placeholders attr true offset
  | .unquotedValue value => ∀ attr, value.attribute? = some attr →
    ReadsValue body placeholders attr false offset
  | _ => True

theorem State.follows_of_isOutside {body : Text} {placeholders : List (Int × Int)} {offset : Nat}
    {state : State} (h : state.isOutside = true) :
    state.Follows body placeholders offset := by
  cases state with
  | text | comment | closingTag => trivial
  | _ => cases h

/-- The placeholder stands in the value of its attribute. -/
def Bound.Follows (body : Text) (placeholders : List (Int × Int)) (b : Bound) : Prop :=
  ∃ p, placeholders[b.index]? = some p ∧ ∃ place : Nat, p.1 = place ∧
    ReadsValue body placeholders b.attr b.quoted place

namespace Machine

/-- What a machine at an offset says about values. -/
structure Follows (body : Text) (placeholders : List (Int × Int)) (offset : Nat)
    (m : Machine) : Prop where
  state : m.state.Follows body placeholders offset
  bound : ∀ b ∈ m.bound, b.Follows body placeholders

variable {body t : Text} {placeholders : List (Int × Int)} {offset : Nat} {m : Machine} {c : Char}

theorem bind_eq_of_attribute? (m : Machine) (index : Nat) (value : Value) (quoted : Bool) :
    m.bind index value quoted = match value.attribute? with
      | some attr => { m with bound := ⟨index, m.tags.length - 1, attr, quoted⟩ :: m.bound }
      | none => m := by
  obtain ⟨subject, detached, read, hasPlaceholder⟩ := value
  cases subject with
  | bound attr => cases detached <;> rfl
  | static key => rfl
  | computed => rfl

/-! ## Steps -/

@[simp] theorem bound_endKey (m : Machine) (key : Key) : (m.endKey key).bound = m.bound := by
  unfold endKey
  split_ifs
  · rfl
  · split <;> rfl

@[simp] theorem bound_endValue (m : Machine) (value : Value) :
    (m.endValue value).bound = m.bound := by
  unfold endValue
  split
  · split_ifs <;> rfl
  · rfl

theorem Step.bound_eq {m' : Machine} {moved : Nat} (h : m.Step offset c t m' moved) :
    m'.bound = m.bound := by
  cases h with
  | endsKey => exact m.bound_endKey _
  | closesQuote | endsValue => exact m.bound_endValue _
  | _ => rfl

theorem follows_endKey {key : Key}
    (hKey : key.hasPlaceholder = false → body.drop key.start = key.text.reverse ++ body.drop offset)
    (hText : body.drop offset = '=' :: t) :
    (m.endKey key).state.Follows body placeholders (offset + 1) := by
  unfold endKey
  split_ifs with hPlaceholder
  · exact fun attr hAttr => nomatch hAttr
  · split
    · rename_i attr hDenotes
      rintro _ hAttr
      obtain rfl : attr = _ := Option.some.inj hAttr
      obtain ⟨hStart, -, hLength⟩ := attributeOf?_eq_some hDenotes
      -- The key reaches from its start to the equals sign.
      have hDrop := congrArg List.length (hKey (by simpa using hPlaceholder))
      rw [hText, List.length_append, List.length_cons, List.length_drop] at hDrop
      have hRest := congrArg List.length hText
      rw [List.length_drop, List.length_cons] at hRest
      have hStop : attr.stop = offset := by
        rw [Attribute.stop, hStart, hLength]
        omega
      rw [hStop]
      exact ⟨Text.getElem?_of_drop hText, rfl⟩
    · exact fun attr hAttr => nomatch hAttr

theorem Step.follows {m' : Machine} {moved : Nat} (hStep : m.Step offset c t m' moved)
    (h : m.state.Follows body placeholders offset) (hWritten : m.state.Written body offset)
    (hText : body.drop offset = c :: t) : m'.state.Follows body placeholders (offset + moved) := by
  cases hStep with
  | passes state => exact State.follows_of_isOutside state
  | skipsBlank state =>
    rw [state]
    trivial
  | endsKey state equals =>
    subst equals
    rw [state] at hWritten
    exact follows_endKey hWritten hText
  | @detachesValue subject => exact fun attr hAttr => by cases subject <;> cases hAttr
  | opensQuote state quote =>
    rw [state] at h
    intro _ attr hAttr
    obtain ⟨hEquals, rfl⟩ := h attr hAttr
    have hFirst : ReadsValue body placeholders attr true (attr.stop + 1) :=
      .first hEquals (Text.getElem?_of_drop hText) (iff_of_true rfl quote)
    exact hFirst.character hText (isBlank_of_isQuote quote)
  | startsValue state unquoted goesOn =>
    rw [state] at h
    intro attr hAttr
    obtain ⟨hEquals, rfl⟩ := h attr hAttr
    have hFirst : ReadsValue body placeholders attr false (attr.stop + 1) :=
      .first hEquals (Text.getElem?_of_drop hText) (iff_of_false Bool.false_ne_true unquoted)
    exact hFirst.character hText (endsAttribute_eq_false_iff.mp goesOn).1
  | readsQuoted state =>
    rw [state] at h
    intro hSpaced attr hAttr
    obtain ⟨hBefore, hBlank⟩ := Bool.or_eq_false_iff.mp hSpaced
    exact (h hBefore attr hAttr).character hText hBlank
  | readsUnquoted state goesOn =>
    rw [state] at h
    exact fun attr hAttr => (h attr hAttr).character hText (endsAttribute_eq_false_iff.mp goesOn).1
  | closesQuote | endsValue =>
    rw [state_endValue]
    trivial
  | _ => trivial

theorem Follows.step (h : m.Follows body placeholders offset) (hWritten : m.Written body offset)
    (hText : body.drop offset = c :: t) {m' : Machine} {moved : Nat}
    (hStep : m.Step offset c t m' moved) : m'.Follows body placeholders (offset + moved) :=
  ⟨hStep.follows h.state hWritten.state hText, by rw [hStep.bound_eq]; exact h.bound⟩

theorem Follows.react (h : m.Follows body placeholders offset) (hWritten : m.Written body offset)
    (hText : body.drop offset = c :: t) :
    (m.react offset c t).1.Follows body placeholders (offset + (m.react offset c t).2) :=
  (react_keeps
    (P := fun m moved => m.Written body (offset + moved) ∧
      m.Follows body placeholders (offset + moved))
    (fun m hHere => ⟨hHere.1.step hText (m.step_look offset c t),
      hHere.2.step hHere.1 hText (m.step_look offset c t)⟩)
    ⟨hWritten, h⟩).2

/-! ## Placeholders -/

/-- A placeholder that is bound stands in the value of its attribute. -/
theorem follows_of_mem_bind {index : Nat} {p : Int × Int} (hIndex : placeholders[index]? = some p)
    (hStart : p.1 = offset) {value : Value} {quoted : Bool}
    (hReads : ∀ attr, value.attribute? = some attr →
      ReadsValue body placeholders attr quoted offset)
    (h : ∀ b ∈ m.bound, b.Follows body placeholders) :
    ∀ b ∈ (m.bind index value quoted).bound, b.Follows body placeholders := by
  rw [bind_eq_of_attribute?]
  split
  · rename_i attr hAttr
    exact List.forall_mem_cons.mpr ⟨⟨p, hIndex, offset, hStart, hReads attr hAttr⟩, h⟩
  · exact h

theorem Follows.passPlaceholder (h : m.Follows body placeholders offset) {index : Nat}
    {p : Int × Int} (hIndex : placeholders[index]? = some p) (hStart : p.1 = offset) {offset' : Nat}
    (hStop : p.2 = offset') (hLe : offset ≤ offset') (hDollar : body[offset]? = some '$') :
    (m.passPlaceholder index offset).Follows body placeholders offset' := by
  have hState := h.state
  have hp := List.mem_of_getElem? hIndex
  unfold Machine.passPlaceholder
  cases hCase : m.state with
  | text => exact ⟨by rw [hCase]; trivial, h.bound⟩
  | comment => exact ⟨by rw [hCase]; trivial, h.bound⟩
  | closingTag => exact ⟨by rw [hCase]; trivial, h.bound⟩
  | tagName start name => exact ⟨trivial, h.bound⟩
  | attributeList => exact ⟨trivial, h.bound⟩
  | attributeKey key => exact ⟨trivial, h.bound⟩
  | awaitingValue subject detached =>
    rw [hCase] at hState
    -- The value begins with the placeholder, and so with no quote.
    have hReads : ∀ attr, Value.attribute? ⟨subject, detached, [], true⟩ = some attr →
        ReadsValue body placeholders attr false offset := by
      intro attr hAttr
      obtain ⟨hEquals, rfl⟩ := hState attr hAttr
      exact .first hEquals hDollar (by decide)
    exact ⟨fun attr hAttr => (hReads attr hAttr).placeholder hp hStart hStop hLe,
      follows_of_mem_bind hIndex hStart hReads h.bound⟩
  | quotedValue quote value spaced =>
    rw [hCase] at hState
    dsimp only
    refine ⟨fun hSpaced attr hAttr =>
      (hState hSpaced attr hAttr).placeholder hp hStart hStop hLe, ?_⟩
    split_ifs with hSpaced
    · exact h.bound
    · exact follows_of_mem_bind hIndex hStart (hState (Bool.not_eq_true _ ▸ hSpaced)) h.bound
  | unquotedValue value =>
    rw [hCase] at hState
    exact ⟨fun attr hAttr => (hState attr hAttr).placeholder hp hStart hStop hLe,
      follows_of_mem_bind hIndex hStart hState h.bound⟩

theorem bound_finish (m : Machine) : m.finish.bound = m.bound := by
  unfold finish
  split <;> rfl

end Machine

/-! ## Runs -/

section

variable {body : Text} {placeholders : List (Int × Int)} {offset : Nat} {m : Machine}

theorem Visits.follows (h : Visits body placeholders offset m)
    (hPlaced : Placed body placeholders) :
    m.Follows body placeholders offset := by
  induction h with
  | start => exact ⟨trivial, by simp [Machine.start]⟩
  | @placeholder offset m region c t before here text ih =>
    have hIndex := mem_regions_iff.mp (List.mem_of_find?_eq_some here)
    have hMem := List.mem_of_getElem? hIndex
    have hStart : region.start = offset := by simpa using List.find?_some here
    have hExtent := hPlaced.nonempty _ hMem
    have hDollar := (hPlaced.opens _ hMem).2
    simp only [hStart, Int.toNat_natCast] at hExtent hDollar
    exact ih.passPlaceholder hIndex hStart (by simp only; omega) (by omega) hDollar
  | character before here text ih => exact ih.react before.written text

/-- Every bound placeholder stands in the value of its attribute. -/
theorem Placed.follows_of_mem_bound (h : Placed body placeholders) :
    ∀ b ∈ (tokenize body placeholders).bound, b.Follows body placeholders := by
  intro b hb
  obtain ⟨stop, -, hVisits⟩ := exists_visits_end body placeholders
  have hMem := List.mem_mergeSort.mp hb
  rw [Machine.bound_finish] at hMem
  exact (hVisits.follows h).bound b hMem

end

end Tokenizer

/-! ## Bindings -/

/-- What stands in front of the key of an attribute. -/
def BindingKind.sigil : BindingKind → Text
  | .prop => ":"
  | .emit => "@emits:"

theorem BindingKind.label_eq (kind : BindingKind) (key : Text) :
    kind.label key = kind.sigil ++ key := by
  cases kind <;> rfl

/-- What a binding says about the text of its template, where its key and its placeholder begin
at the given places. -/
structure Binding.Sound (text : Text) (template : TaggedTemplate) (binding : Binding)
    (kind : BindingKind) (key : Text) (keyPlace place : Nat) : Prop where
  kind_eq : binding.kind = some kind
  key_eq : binding.key = some key
  keyStart_eq : binding.keyStart = some ((keyPlace : Int) - template.start)
  relativeStart_eq : binding.relativeStart = (place : Int) - template.start
  hole : ∃ span ∈ template.spans, span.start = place ∧
    binding.relativeStop = (span.stop : Int) - template.start
  key_slice : Text.slice text keyPlace (keyPlace + key.length) = key
  sigil_slice : kind.sigil.length ≤ keyPlace ∧
    Text.slice text (keyPlace - kind.sigil.length) keyPlace = kind.sigil
  equals : text[keyPlace + key.length]? = some '='
  lt : keyPlace + key.length < place
  /-- Blanks behind the equals sign stand in earlier holes. -/
  unspaced : ∀ (i : Nat) (c : Char), keyPlace + key.length < i → i < place → text[i]? = some c →
    isBlank c = true →
    ∃ span ∈ template.spans, span.start ≤ i ∧ i < span.stop ∧ span.stop ≤ place
  quoted_iff : binding.quoted = true ↔
    text[keyPlace + key.length + 1]? = some '"' ∨ text[keyPlace + key.length + 1]? = some '\''
  expression : ∃ expression, binding.expression = some expression ∧ ∃ start stop : Nat,
    expression.start = start ∧ expression.stop = stop ∧ Text.slice text start stop = expression.text
  /-- Right behind the equals sign or the opening quote, the place of the key follows
  from that of the hole. -/
  keyOffset_eq : place = keyPlace + key.length + 1 ∨ binding.quoted = true ∧
    place = keyPlace + key.length + 2 →
    binding.keyOffset template.start =
      template.start + binding.relativeStart - key.length - 2 + if binding.quoted then 0 else 1

section

variable {text : Text} {template : TaggedTemplate} {attr : Attribute}

/-- A hole of a template as a placeholder of its body. -/
theorem TaggedTemplate.Shaped.place_of_getElem?_spans (h : template.Shaped text) {index : Nat}
    {span : Span} (hSpan : template.spans[index]? = some span) {p : Int × Int}
    (hIndex : template.placeholders[index]? = some p) {place : Nat} (hPlace : p.1 = place) :
    span.start = template.start + 1 + place ∧ template.body[place]? = some '$' := by
  rw [TaggedTemplate.placeholders, List.getElem?_map, hSpan] at hIndex
  obtain rfl := Option.some.inj hIndex
  have hMem : ((span.start : Int) - template.bodyStart, (span.stop : Int) - template.bodyStart) ∈
      template.placeholders := List.mem_map_of_mem (List.mem_of_getElem? hSpan)
  obtain ⟨-, hDollar⟩ := h.placed.opens _ hMem
  have hStart : ((span.start : Int) - template.bodyStart).toNat = place := congrArg Int.toNat hPlace
  rw [hStart] at hDollar
  replace hPlace : (span.start : Int) - (template.start + 1 : Nat) = place := hPlace
  exact ⟨by omega, hDollar⟩

/-- Up to a place in the body of a template, body and text show the same. -/
theorem TaggedTemplate.Shaped.getElem?_body_eq (h : template.Shaped text) {place i : Nat} {d : Char}
    (hPlace : template.body[place]? = some d) (hLe : i ≤ place) :
    text[template.start + 1 + i]? = template.body[i]? := by
  obtain ⟨hLength, -⟩ := List.getElem?_eq_some_iff.mp hPlace
  have hc := List.getElem?_eq_getElem (Nat.lt_of_le_of_lt hLe hLength)
  rw [hc]
  exact h.getElem?_body hc

theorem Attribute.Written.slice_key (h : attr.Written template.body)
    (hShaped : template.Shaped text) :
    attr.length = attr.kind.sigil.length + attr.key.length ∧
      Text.slice text (template.start + 1 + attr.start)
        (template.start + 1 + attr.start + attr.kind.sigil.length) =
        attr.kind.sigil ∧
      Text.slice text (template.start + 1 + attr.start + attr.kind.sigil.length)
        (template.start + 1 + attr.start + attr.kind.sigil.length + attr.key.length) =
          attr.key := by
  obtain ⟨hSlice, hLength⟩ := h
  rw [hLength, BindingKind.label_eq] at hSlice
  rw [BindingKind.label_eq, List.length_append] at hLength
  have hText := hShaped.slice_body hSlice
  exact ⟨hLength, Text.slice_left hText, Text.slice_right hText⟩

theorem Tokenizer.Bound.Follows.sound {file : SourceFile} {tags : List Tag}
    {bound : Tokenizer.Bound} (h : bound.Follows template.body template.placeholders)
    (hWritten : bound.attr.Written template.body) (hShaped : template.Shaped text)
    {binding : Binding} (hBinding : Binding.ofBound? file template tags bound = some binding) :
    ∃ kind key keyPlace place, binding.Sound text template kind key keyPlace place := by
  obtain ⟨span, hSpan, hBinding⟩ := Option.bind_eq_some_iff.mp hBinding
  obtain ⟨tag, -, hBinding⟩ := Option.bind_eq_some_iff.mp hBinding
  obtain rfl := Option.some.inj hBinding
  obtain ⟨p, hIndex, place, hPlace, hReads⟩ := h
  obtain ⟨hLength, hSigil, hKey⟩ := hWritten.slice_key hShaped
  obtain ⟨hStart, hDollar⟩ := hShaped.place_of_getElem?_spans hSpan hIndex hPlace
  have hMem := List.mem_of_getElem? hSpan
  have hStop : template.start + 1 + bound.attr.start + bound.attr.kind.sigil.length +
      bound.attr.key.length =
      template.start + 1 + bound.attr.stop := by
    rw [Attribute.stop, hLength]
    omega
  have hLt := hReads.lt
  have hSame {i : Nat} (hLe : i ≤ place) : text[template.start + 1 + i]? = template.body[i]? :=
    hShaped.getElem?_body_eq hDollar hLe
  refine ⟨bound.attr.kind, bound.attr.key,
    template.start + 1 + bound.attr.start + bound.attr.kind.sigil.length, span.start, ?_⟩
  exact {
    kind_eq := rfl
    key_eq := rfl
    keyStart_eq := congrArg some (by omega)
    relativeStart_eq := rfl
    hole := ⟨span, hMem, rfl, rfl⟩
    key_slice := hKey
    sigil_slice := ⟨by omega, by rwa [Nat.add_sub_cancel]⟩
    equals := by
      rw [hStop]
      exact hShaped.getElem?_body hReads.equals
    lt := by
      rw [hStop, hStart]
      omega
    unspaced := by
      intro i c hLow hHigh hc hBlank
      obtain ⟨j, rfl⟩ := Nat.exists_eq_add_of_le (show template.start + 1 ≤ i by omega)
      rw [hSame (by omega)] at hc
      obtain ⟨q, hq, hFrom, hTo, hEnd⟩ := hReads.unspaced j c (by omega) (by omega) hc hBlank
      obtain ⟨other, hOther, rfl⟩ := List.mem_map.mp hq
      simp only [TaggedTemplate.bodyStart] at hFrom hTo hEnd
      exact ⟨other, hOther, by omega, by omega, by omega⟩
    quoted_iff := by
      rw [hStop, Nat.add_assoc (template.start + 1), hSame (by omega)]
      exact hReads.quoted_iff
    expression := ⟨_, rfl, span.expressionStart,
      span.expressionStart + span.expression.length, rfl, rfl, hShaped.expression_eq span hMem⟩
    keyOffset_eq := by
      intro hDirect
      simp only [Binding.keyOffset, absoluteOffset]
      rcases hDirect with hEquals | ⟨hQuoted, hQuote⟩
      · have hUnquoted : bound.quoted = false :=
          hReads.quoted_eq_false (by rwa [show bound.attr.stop + 1 = place by omega])
        simp only [hUnquoted, Bool.false_eq_true, if_false]
        omega
      · replace hQuoted : bound.quoted = true := hQuoted
        simp only [hQuoted, if_true]
        omega }

end

/-- For every source text, what each binding of a template scan says about the text is so: the key
stands there behind its sigil and in front of an equals sign, between which and the placeholder
blanks stand in earlier placeholders only; the binding is quoted if a quote follows the equals sign;
and the bound expression is the slice of its range. -/
theorem TemplateScan.bindings_sound (marker : WideText) (path text : Text) :
    let file := SourceFile.read marker path text
    ∀ scan ∈ (FileScan.ofFile file).templates, ∃ template ∈ file.templates,
      scan.templateStart = template.start ∧
      ∀ binding ∈ scan.bindings, ∃ kind key keyPlace place,
        binding.Sound text template kind key keyPlace place := by
  intro file scan hScan
  obtain ⟨template, hTemplate, rfl⟩ := List.mem_map.mp hScan
  have hShaped := Code.shaped_templates marker text template hTemplate
  refine ⟨template, hTemplate, rfl, fun binding hBinding => ?_⟩
  obtain ⟨bound, hBound, hOf⟩ := List.mem_filterMap.mp hBinding
  exact (hShaped.placed.follows_of_mem_bound bound hBound).sound
    (Tokenizer.tokenize_bound_written _ _ bound hBound) hShaped hOf

end TemplateCheck
