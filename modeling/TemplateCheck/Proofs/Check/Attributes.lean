import Mathlib.Data.List.Count
import TemplateCheck.Proofs.Check.Locality

/-!
# What is reported about the attributes of a tag

The checks of attributes go over the component tags of a file one by one. For each tag, what they
report is determined by the list of its attributes and by the first declaration of its component
(`attributeChecks_exact`).

1. `Attribute.occurring n` lists the attributes that bind a key once more after `n` others. For each
   kind and key these are the attribute of that number, if there are so many, and nothing else
   (`Attribute.filter_occurring`).
2. The tokenizer keeps the first attribute of each key and the repeated ones apart. The former are
   those that occur at number 0 (`Attribute.firsts_eq`), and of the latter, the first ones occur at
   number 1 (`Attribute.occurring_repeats`).
-/

namespace TemplateCheck

/-! ## Occurrences -/

/-- What an attribute binds. -/
abbrev Target := BindingKind × Text

namespace Attribute

/-- What the attribute binds. -/
def target (attr : Attribute) : Target := (attr.kind, attr.key)

/-- The attributes that bind a target once more after exactly `n` others, where `before`
has been bound. -/
def occurringFrom (n : Nat) : (before : List Target) → List Attribute → List Attribute
  | _, [] => []
  | before, a :: rest =>
    if before.count a.target = n then a :: occurringFrom n (a.target :: before) rest
    else occurringFrom n (a.target :: before) rest

/-- The attributes that bind a target once more after exactly `n` others. -/
def occurring (n : Nat) (attributes : List Attribute) : List Attribute :=
  occurringFrom n [] attributes

theorem sameKey_eq (a b : Attribute) : a.sameKey b = decide (a.target = b.target) := by
  rw [sameKey, target, target, Bool.eq_iff_iff, Bool.and_eq_true]
  simp only [decide_eq_true_eq, Prod.mk.injEq]

theorem any_sameKey_iff {seen : List Attribute} {a : Attribute} :
    seen.any (sameKey a) = true ↔ a.target ∈ seen.map target := by
  rw [List.any_eq_true, List.mem_map]
  refine exists_congr fun b => and_congr_right fun _ => ?_
  rw [sameKey_eq, decide_eq_true_iff, eq_comm]

section

variable {n : Nat} {before before' : List Target} {a : Attribute} {as bs seen : List Attribute}

theorem occurringFrom_cons (n : Nat) (before : List Target) (a : Attribute) (as : List Attribute) :
    occurringFrom n before (a :: as) =
      (if before.count a.target = n then [a] else []) ++
        occurringFrom n (a.target :: before) as := by
  rw [occurringFrom]
  split_ifs <;> rfl

theorem occurringFrom_congr (h : ∀ a ∈ as, before.count a.target = before'.count a.target) :
    occurringFrom n before as = occurringFrom n before' as := by
  induction as generalizing before before' with
  | nil => rfl
  | cons a as ih =>
    obtain ⟨hFirst, hLater⟩ := List.forall_mem_cons.mp h
    rw [occurringFrom_cons, occurringFrom_cons, hFirst]
    refine congrArg _ (ih fun b hb => ?_)
    rw [List.count_cons, List.count_cons, hLater b hb]

theorem occurringFrom_append (as bs : List Attribute) : occurringFrom n before (as ++ bs) =
    occurringFrom n before as ++ occurringFrom n ((as.map target).reverse ++ before) bs := by
  induction as generalizing before with
  | nil => rfl
  | cons a as ih =>
    rw [List.cons_append, occurringFrom_cons, occurringFrom_cons, ih,
      List.append_assoc, List.map_cons, List.reverse_cons, List.append_assoc, List.singleton_append]

theorem occurring_append (h : ∀ b ∈ bs, b.target ∉ as.map target) :
    occurring n (as ++ bs) = occurring n as ++ occurring n bs := by
  unfold occurring
  rw [occurringFrom_append, List.append_nil]
  refine congrArg _ (occurringFrom_congr fun b hb => ?_)
  rw [List.count_reverse, List.count_eq_zero.mpr (h b hb), List.count_nil]

theorem occurringFrom_filter (kind : BindingKind) (as : List Attribute) :
    (occurringFrom n before as).filter (·.kind = kind) =
      occurringFrom n before (as.filter (·.kind = kind)) := by
  induction as generalizing before with
  | nil => rfl
  | cons a as ih =>
    rw [occurringFrom_cons, List.filter_append, ih]
    by_cases hKind : a.kind = kind
    · rw [List.filter_cons_of_pos (by simpa using hKind), occurringFrom_cons]
      refine congrArg (· ++ _) ?_
      split_ifs
      · exact List.filter_cons_of_pos (by simpa using hKind)
      · rfl
    · rw [List.filter_cons_of_neg (by simpa using hKind)]
      have hNone : (if before.count a.target = n then [a] else []).filter (·.kind = kind) = [] := by
        split_ifs
        · exact List.filter_cons_of_neg (by simpa using hKind)
        · rfl
      rw [hNone, List.nil_append]
      refine occurringFrom_congr fun b hb => List.count_cons_of_ne fun hSame => hKind ?_
      have hKinds : a.kind = b.kind := congrArg Prod.fst hSame
      exact hKinds.trans (by simpa using (List.mem_filter.mp hb).2)

theorem occurring_filter (n : Nat) (kind : BindingKind) (as : List Attribute) :
    (occurring n as).filter (·.kind = kind) = occurring n (as.filter (·.kind = kind)) :=
  occurringFrom_filter kind as

/-- Of the attributes that bind a target, one is left out for each time that it was bound before. -/
theorem filter_occurringFrom (t : Target) (as : List Attribute) :
    (occurringFrom n before as).filter (·.target = t) =
      if before.count t ≤
        n then ((as.filter (·.target = t))[n - before.count t]?).toList else [] := by
  induction as generalizing before with
  | nil => split_ifs <;> rfl
  | cons a as ih =>
    rw [occurringFrom_cons, List.filter_append, ih]
    by_cases hTarget : a.target = t
    · subst hTarget
      rw [List.filter_cons_of_pos (by simp), List.count_cons_self]
      rcases Nat.lt_trichotomy (before.count a.target) n with hLt | hEq | hGt
      · have hNumber : n - before.count a.target = n - (before.count a.target + 1) + 1 := by omega
        rw [if_neg (Nat.ne_of_lt hLt), if_pos (Nat.succ_le_of_lt hLt),
          if_pos (Nat.le_of_lt hLt), hNumber, List.getElem?_cons_succ]
        rfl
      · rw [if_pos hEq, if_neg (by omega), if_pos (Nat.le_of_eq hEq), hEq, Nat.sub_self,
          List.filter_cons_of_pos (by simp)]
        rfl
      · rw [if_neg (Nat.ne_of_gt hGt), if_neg (by omega), if_neg (by omega)]
        rfl
    · have hNone : (if before.count a.target = n then [a] else []).filter (·.target = t) = [] := by
        split_ifs
        · exact List.filter_cons_of_neg (by simpa using hTarget)
        · rfl
      rw [hNone, List.nil_append, List.filter_cons_of_neg (by simpa using hTarget),
        List.count_cons_of_ne hTarget]

theorem occurringFrom_sublist : (occurringFrom n before as).Sublist as := by
  induction as generalizing before with
  | nil => exact .slnil
  | cons a as ih =>
    rw [occurringFrom]
    split_ifs
    · exact ih.cons_cons a
    · exact ih.cons a

/-- Of the attributes that bind a target, the one of number `n` occurs at that number,
and no other. -/
theorem filter_occurring (n : Nat) (t : Target) (as : List Attribute) :
    (occurring n as).filter (·.target = t) = ((as.filter (·.target = t))[n]?).toList := by
  unfold occurring
  rw [filter_occurringFrom, List.count_nil, if_pos (Nat.zero_le n), Nat.sub_zero]

/-! ## First and repeated attributes -/

theorem firstsFrom_eq (h : ∀ t, t ∈ seen.map target ↔ t ∈ before) :
    firstsFrom seen as = occurringFrom 0 before as := by
  induction as generalizing seen before with
  | nil => rfl
  | cons a as ih =>
    rw [firstsFrom, occurringFrom]
    by_cases hSeen : a.target ∈ before
    · rw [if_pos (any_sameKey_iff.mpr ((h _).mpr hSeen)),
        if_neg (List.count_eq_zero.not.mpr (not_not_intro hSeen))]
      refine ih fun t => ?_
      rw [h, List.mem_cons, or_iff_right_of_imp]
      rintro rfl
      exact hSeen
    · rw [if_neg (any_sameKey_iff.not.mpr ((h _).not.mpr hSeen)),
        if_pos (List.count_eq_zero.mpr hSeen)]
      refine congrArg _ (ih fun t => ?_)
      rw [List.map_cons, List.mem_cons, List.mem_cons, h]

theorem firsts_eq (as : List Attribute) : firsts as = occurring 0 as :=
  firstsFrom_eq fun _ => Iff.rfl

theorem occurringFrom_repeatsFrom {late : List Target} (h : ∀ t, t ∈ seen.map target ↔ t ∈ before)
    (hLate : ∀ t, late.count t = before.count t - 1) :
    occurringFrom n late (repeatsFrom seen as) = occurringFrom (n + 1) before as := by
  induction as generalizing seen before late with
  | nil => rfl
  | cons a as ih =>
    rw [repeatsFrom, occurringFrom_cons (n + 1)]
    by_cases hSeen : a.target ∈ before
    · have hPos := List.count_pos_iff.mpr hSeen
      have hCount := hLate a.target
      have hNumber : late.count a.target = n ↔ before.count a.target = n + 1 := by omega
      rw [if_pos (any_sameKey_iff.mpr ((h _).mpr hSeen)), occurringFrom_cons]
      simp only [hNumber]
      refine congrArg _ (ih (fun t => ?_) fun t => ?_)
      · rw [h, List.mem_cons, or_iff_right_of_imp]
        rintro rfl
        exact hSeen
      · have hOther := hLate t
        rw [List.count_cons, List.count_cons]
        by_cases hSame : a.target = t
        · subst hSame
          simp only [beq_self_eq_true, if_true]
          omega
        · simp only [beq_iff_eq, if_neg hSame]
          omega
    · have hZero := List.count_eq_zero.mpr hSeen
      rw [if_neg (any_sameKey_iff.not.mpr ((h _).not.mpr hSeen)), if_neg (by omega),
        List.nil_append]
      refine ih (fun t => ?_) fun t => ?_
      · rw [List.map_cons, List.mem_cons, List.mem_cons, h]
      · rw [hLate, List.count_cons]
        by_cases hSame : a.target = t
        · subst hSame
          simp only [beq_self_eq_true, if_true]
          omega
        · simp only [beq_iff_eq, if_neg hSame]
          omega

theorem occurring_repeats (n : Nat) (as : List Attribute) :
    occurring n (repeats as) = occurring (n + 1) as :=
  occurringFrom_repeatsFrom (fun _ => Iff.rfl) fun _ => rfl

end

end Attribute

/-! ## Component tags -/

/-- The component tags in the templates of a file, with the templates that they stand in. -/
def SourceFile.componentTags (file : SourceFile) : List (TaggedTemplate × Tag) :=
  file.templates.flatMap fun template =>
    (template.tokens.tags.filter (·.isComponent)).map (template, ·)

theorem Registry.Reflects.componentTagsIn_eq {registry : Registry} {file : SourceFile}
    (h : registry.Reflects file) : componentTagsIn registry file.path =
      file.componentTags.map fun (template, tag) =>
        (TemplateScan.ofTemplate file template, tag) := by
  unfold componentTagsIn Registry.templatesIn SourceFile.componentTags
  rw [h.scan?_eq, List.map_flatMap]
  show ((file.templates.map (TemplateScan.ofTemplate file)).flatMap _) = _
  rw [List.flatMap_map]
  refine List.flatMap_congr fun template _ => ?_
  rw [List.map_map]
  rfl

theorem Tag.mem_keys_iff {tag : Tag} {kind : BindingKind} {key : Text} :
    key ∈ tag.keys kind ↔ (kind, key) ∈ tag.attributes.map Attribute.target := by
  unfold Tag.keys
  rw [mem_distinct, List.mem_map, List.mem_map]
  refine exists_congr fun attr => ?_
  rw [List.mem_filter, decide_eq_true_iff, Attribute.target, Prod.mk.injEq, and_assoc]

/-- The repeated attributes, those of each kind counted apart. -/
theorem Tag.firsts_repeated (tag : Tag) :
    Attribute.firsts (tag.repeated .prop ++ tag.repeated .emit) =
      (Attribute.occurring 1 tag.attributes).filter (·.kind = .prop) ++
        (Attribute.occurring 1 tag.attributes).filter (·.kind = .emit) := by
  have hApart : ∀ b ∈ tag.repeated .emit, b.target ∉ (tag.repeated .prop).map Attribute.target := by
    intro b hb hMem
    obtain ⟨a, ha, hSame⟩ := List.mem_map.mp hMem
    have hKinds : a.kind = b.kind := congrArg Prod.fst hSame
    have hEmit : b.kind = .emit := by simpa using (List.mem_filter.mp hb).2
    have hProp : a.kind = .prop := by simpa using (List.mem_filter.mp ha).2
    rw [hProp, hEmit] at hKinds
    cases hKinds
  rw [Attribute.firsts_eq, Attribute.occurring_append hApart]
  unfold Tag.repeated
  rw [← Attribute.occurring_filter, ← Attribute.occurring_filter, Attribute.occurring_repeats]

/-! ## Reports -/

/-- Whether a component declares what an attribute binds. -/
def Component.declares (component : Component) : Target → Bool
  | (.prop, key) => (component.props.map (·.key)).contains key
  | (.emit, key) => (component.emits.map (·.key)).contains key

theorem Component.isSome_find? (component : Component) (kind : BindingKind) (key : Text) :
    (component.find? kind key).isSome = component.declares (kind, key) := by
  have hKeys : ∀ declared : List PropDeclaration,
      (declared.find? (·.key = key)).isSome = (declared.map (·.key)).contains key := by
    intro declared
    rw [Bool.eq_iff_iff, List.find?_isSome, List.contains_iff_mem, List.mem_map]
    simp only [decide_eq_true_eq]
  cases kind with
  | prop => exact hKeys component.props
  | emit => exact hKeys component.emits

section

variable (path : Text) (template : TaggedTemplate) (tag : Tag) (component : Component)

/-- The reports that a tag does not give the required props of a component. They cover its name. -/
def missingReports : List Diagnostic :=
  (component.props.filter fun prop =>
    !prop.optional && (.prop, prop.key) ∉ tag.attributes.map Attribute.target).map fun prop =>
      .error path (template.start + 1 + (tag.start + 1) : Nat) tag.name.length
        ("Component <" ++ tag.name ++ "> is missing required prop ':" ++ prop.key ++ "'.")
        .missingRequiredProp

/-- The reports that a component does not declare what a tag binds. They cover the first
attributes that bind it. -/
def unknownReports : List Diagnostic :=
  ((Attribute.occurring 0 tag.attributes).filter fun attr => !component.declares attr.target).map
    fun attr => .error path (template.start + 1 + attr.start : Nat) attr.length
      ("Component <" ++ tag.name ++ "> does not declare " ++ attr.kind.name ++ " '" ++
        attr.kind.label attr.key ++ "'.")
      attr.kind.unknownCode

/-- The reports that a tag binds something more than once. They cover the second
attributes that bind it. -/
def repeatedReports : List Diagnostic :=
  ((Attribute.occurring 1 tag.attributes).filter (·.kind = .prop) ++
    (Attribute.occurring 1 tag.attributes).filter (·.kind = .emit)).map fun attr =>
      .error path (template.start + 1 + attr.start : Nat) attr.length
        ("Duplicated " ++ attr.kind.name ++ " declaration '" ++ attr.kind.label attr.key ++
          "' on <" ++ tag.name ++ ">.")
        .duplicatedBinding

theorem missingProps_eq (file : SourceFile) :
    missingProps path (TemplateScan.ofTemplate file template) tag component =
      missingReports path template tag component := by
  have hGiven : ∀ prop : PropDeclaration, decide (prop.key ∉ tag.keys .prop) =
      decide ((.prop, prop.key) ∉ tag.attributes.map Attribute.target) :=
    fun prop => decide_eq_decide.mpr Tag.mem_keys_iff.not
  have hPlace : tagNameOffset template.start tag.start =
      (template.start + 1 + (tag.start + 1) : Nat) := by
    unfold tagNameOffset bodyOffset absoluteOffset
    omega
  unfold missingProps missingReports Component.requiredProps
  dsimp only
  rw [List.filter_filter, ← hPlace]
  simp only [hGiven, Bool.and_comm]
  rfl

theorem attributeError_eq (file : SourceFile) (attr : Attribute) (message : Text)
    (code : DiagnosticCode) :
    (TemplateScan.ofTemplate file template).attributeError attr message code =
      .error file.path (template.start + 1 + attr.start : Nat) attr.length message code := by
  have hPlace : bodyOffset template.start attr.start = (template.start + 1 + attr.start : Nat) := by
    unfold bodyOffset absoluteOffset
    omega
  rw [← hPlace]
  rfl

theorem filterMap_unknownAttribute? (file : SourceFile) (attributes : List Attribute) :
    attributes.filterMap (unknownAttribute? (TemplateScan.ofTemplate file template) tag component) =
      (attributes.filter fun attr => !component.declares attr.target).map fun attr =>
        .error file.path (template.start + 1 + attr.start : Nat) attr.length
          ("Component <" ++ tag.name ++ "> does not declare " ++ attr.kind.name ++ " '" ++
            attr.kind.label attr.key ++ "'.")
          attr.kind.unknownCode := by
  rw [← List.filterMap_eq_map, List.filterMap_filter]
  refine List.filterMap_congr fun attr _ => ?_
  unfold unknownAttribute?
  rw [Component.isSome_find?, attributeError_eq, show (attr.kind, attr.key) = attr.target from rfl]
  cases component.declares attr.target with
  | false => obtain ⟨_ | _, key, start, length⟩ := attr <;> rfl
  | true => rfl

end

namespace Registry.Reflects

variable {registry : Registry} {file : SourceFile}

theorem checkRequiredProps_eq (h : registry.Reflects file) : checkRequiredProps registry file.path =
    file.componentTags.flatMap fun (template, tag) =>
      (registry.find? tag.name).elim [] (missingReports file.path template tag) := by
  unfold checkRequiredProps
  rw [h.componentTagsIn_eq, List.flatMap_map]
  refine List.flatMap_congr fun ⟨template, tag⟩ _ => ?_
  dsimp only
  cases registry.find? tag.name with
  | none => rfl
  | some component => exact missingProps_eq file.path template tag component file

theorem checkUnknownAttributes_eq (h : registry.Reflects file) :
    checkUnknownAttributes registry file.path =
    file.componentTags.flatMap fun (template, tag) =>
      (registry.find? tag.name).elim [] (unknownReports file.path template tag) := by
  unfold checkUnknownAttributes
  rw [h.componentTagsIn_eq, List.flatMap_map]
  refine List.flatMap_congr fun ⟨template, tag⟩ _ => ?_
  dsimp only
  cases registry.find? tag.name with
  | none => rfl
  | some component =>
    refine (filterMap_unknownAttribute? template tag component file _).trans ?_
    rw [Attribute.firsts_eq]
    rfl

theorem checkRepeatedAttributes_eq (h : registry.Reflects file) :
    checkRepeatedAttributes registry file.path =
    file.componentTags.flatMap fun (template, tag) => repeatedReports file.path template tag := by
  unfold checkRepeatedAttributes
  rw [h.componentTagsIn_eq, List.flatMap_map]
  refine List.flatMap_congr fun ⟨template, tag⟩ _ => ?_
  dsimp only
  rw [Tag.firsts_repeated]
  exact List.map_congr_left fun attr _ => attributeError_eq template file attr _ _

end Registry.Reflects

/-- For every program and every file of it, with the component tags of the file in the order in
which they stand: the required props are reported that the first declaration of the component has
and the tag does not give, then what the tag binds and that declaration does not have, at the first
attribute that binds it, and what the tag binds repeatedly, at the second attribute that binds it,
props before emits. Tags of components that are not declared have reports of the last sort only.

The attributes that occur at a number are those of the tag in order, and for each target they are
the attribute of that number alone. -/
theorem attributeChecks_exact (config : Config) (files : List (Text × Text)) (registry : Registry) :
    let program := Program.ofFiles config files
    let filled := registry.populate program
    let declared? : Text → Option Component :=
      fun name => (componentsOf program).find? (·.name = name)
    (∀ file ∈ program.sourceFiles,
      checkRequiredProps filled file.path = (file.componentTags.flatMap fun (template, tag) =>
        (declared? tag.name).elim [] (missingReports file.path template tag)) ∧
      checkUnknownAttributes filled file.path = (file.componentTags.flatMap fun (template, tag) =>
        (declared? tag.name).elim [] (unknownReports file.path template tag)) ∧
      checkRepeatedAttributes filled file.path = (file.componentTags.flatMap fun (template, tag) =>
        repeatedReports file.path template tag)) ∧
    ∀ (attributes : List Attribute) (n : Nat),
      (Attribute.occurring n attributes).Sublist attributes ∧
      ∀ target, (Attribute.occurring n attributes).filter (·.target = target) =
        ((attributes.filter (·.target = target))[n]?).toList := by
  intro program filled declared?
  have hProgram : program.WellFormed := Program.wellFormed_ofFiles config files
  refine ⟨fun file hFile => ?_, fun attributes n => ⟨Attribute.occurringFrom_sublist, fun target =>
    Attribute.filter_occurring n target attributes⟩⟩
  have hReflects : filled.Reflects file := Registry.reflects_populate hProgram registry hFile
  have hFind : filled.find? = declared? := funext (Registry.find?_populate hProgram registry)
  rw [← hFind]
  exact ⟨hReflects.checkRequiredProps_eq, hReflects.checkUnknownAttributes_eq,
    hReflects.checkRepeatedAttributes_eq⟩

end TemplateCheck
