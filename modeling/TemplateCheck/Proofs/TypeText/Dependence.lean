import Mathlib.Data.List.Basic
import Mathlib.Tactic.Common
import TemplateCheck.TypeText.Assignable
import TemplateCheck.TypeText.Inference

/-!
# What answers about types depend on

A type is a text that stands in a file, and following it leads from file to file. Take some of the
files, and two programs that resolve every type standing in them alike, to a type that stands in
them again (`Program.AgreeOn`). Then the programs answer every question about such types alike.

1. The members of a type have types that stand where the type stands or where it leads
   (`membersUpTo_eq`).
2. The type of an expression comes from the file of the expression and from members of types
   (`referenceType?_eq`, `inferUpTo_eq`). The file has to be the same in both programs
   (`Program.AgreeAt`).
3. Assignability follows both of its types (`assignableUpTo_eq`).

Each of the three is an induction on the depth to which types are followed, with the claim that
answers stand inside as part of the invariant.
-/

namespace TemplateCheck

open TypeText

/-- The programs resolve types that stand inside alike, to types that stand inside. -/
structure Program.AgreeOn (inside : Option Text → Prop) (program program' : Program) : Prop where
  resolve?_eq : ∀ {text file}, inside file →
    resolve? program ⟨text, file⟩ = resolve? program' ⟨text, file⟩
  inside_of_resolve? : ∀ {text file target}, inside file →
    resolve? program ⟨text, file⟩ = some target → inside target.file

/-- The programs have the same file at a path, if any, and both the path and the file are inside. -/
structure Program.AgreeAt (inside : Option Text → Prop) (program program' : Program) (path : Text) :
    Prop where
  file?_eq : program.file? path = program'.file? path
  inside_path : inside (some path)
  inside_file : ∀ file ∈ program.file? path, inside (some file.path)

/-! ## Where types stand -/

theorem Member.mem_of_mem_insert {members : List Member} {member added : Member}
    (h : member ∈ Member.insert members added) : member ∈ members ∨ member = added := by
  rcases List.mem_append.mp h with h | h
  · exact .inl (List.mem_filter.mp h).1
  · exact .inr (List.mem_singleton.mp h)

theorem Member.mem_of_mem_merge {members : List Member} {member : Member}
    (h : member ∈ Member.merge members) : member ∈ members := by
  refine List.foldlRecOn members Member.insert
    (motive := fun merged => ∀ member ∈ merged, member ∈ members) (by simp) ?_ member h
  intro merged hMerged added hAdded member hMember
  rcases mem_of_mem_insert hMember with hMember | rfl
  · exact hMerged member hMember
  · exact hAdded

theorem file_of_mem_objectMembers {file : Option Text} {t : Text} {member : Member}
    (h : member ∈ objectMembers file t) : member.type.file = file := by
  obtain ⟨entry, -, hMember⟩ := List.mem_filterMap.mp (Member.mem_of_mem_merge h)
  obtain ⟨found, -, hMember⟩ := Option.bind_eq_some_iff.mp hMember
  obtain ⟨type, -, hMember⟩ := Option.bind_eq_some_iff.mp hMember
  rw [← Option.some.inj hMember]

theorem type_apply_of_mem_wrappers {wrapper : Wrapper} (h : wrapper ∈ wrappers) (member : Member) :
    (wrapper.apply member).type = member.type := by
  simp only [wrappers, List.mem_cons, List.not_mem_nil, or_false] at h
  rcases h with rfl | rfl | rfl <;> rfl

theorem file_of_fieldType? {infer : Text → TypeRef} {file : SourceFile} {className name : Text}
    {type : TypeRef} (h : fieldType? infer file className name = some type) :
    type.file = some file.path := by
  obtain ⟨declaration, -, h⟩ := List.exists_of_findSome?_eq_some h
  split_ifs at h
  obtain ⟨field, -, h⟩ := Option.bind_eq_some_iff.mp h
  split at h
  · rw [← Option.some.inj h]
  · rw [← Option.some.inj h]
  · cases h

theorem file_of_variableType? {infer : Text → TypeRef} {file : SourceFile} {name : Text}
    {offset : Int} {type : TypeRef} (h : variableType? infer file name offset = some type) :
    type.file = some file.path ∨ ∃ value, type = infer value := by
  obtain ⟨declared, -, h⟩ := Option.bind_eq_some_iff.mp h
  split at h
  · rw [← Option.some.inj h]
    exact .inl rfl
  · rename_i value _ _
    exact .inr ⟨value, (Option.some.inj h).symm⟩
  · cases h

/-- Computations that agree on what was found agree as a whole, and a property of their results
is one of the whole result. -/
theorem bind_agree {α β : Type} {p : β → Prop} {found : Option α} {f g : α → Option β}
    (h : ∀ a ∈ found, f a = g a ∧ ∀ b ∈ f a, p b) :
    found.bind f = found.bind g ∧ ∀ b ∈ found.bind f, p b := by
  cases found with
  | none => exact ⟨rfl, nofun⟩
  | some a => exact h a rfl

theorem inside_ite {inside : Option Text → Prop} {c : Prop} [Decidable c] {type other : TypeRef}
    (hType : inside type.file) (hOther : inside other.file) :
    inside (if c then type else other).file := by
  split_ifs
  · exact hType
  · exact hOther

namespace Program.AgreeOn

variable {inside : Option Text → Prop} {program program' : Program}

/-! ## Members -/

theorem membersUpTo_eq (h : program.AgreeOn inside program') (depth : Nat) (text : Text)
    {file : Option Text} (hFile : inside file) :
    membersUpTo program depth ⟨text, file⟩ = membersUpTo program' depth ⟨text, file⟩ ∧
      ∀ member ∈ membersUpTo program depth ⟨text, file⟩, inside member.type.file := by
  induction depth generalizing text file with
  | zero => exact ⟨rfl, by simp [membersUpTo]⟩
  | succ depth ih =>
    rw [membersUpTo, membersUpTo]
    split_ifs with hEmpty
    · exact ⟨rfl, by simp⟩
    · dsimp only
      split
      · -- An intersection: its parts stand in the same file.
        constructor
        · exact congrArg Member.merge (List.flatMap_congr fun part _ => (ih part hFile).1)
        · intro member hMember
          obtain ⟨part, -, hMember⟩ := List.mem_flatMap.mp (Member.mem_of_mem_merge hMember)
          exact (ih part hFile).2 member hMember
      · split_ifs with hObject
        · exact ⟨rfl, fun member hMember => by rwa [file_of_mem_objectMembers hMember]⟩
        · split
          · -- A wrapper changes the members of what it wraps, but not their types.
            rename_i wrapper inner hWrapper
            obtain ⟨hEq, hInside⟩ := ih inner hFile
            refine ⟨congrArg _ hEq, fun member hMember => ?_⟩
            obtain ⟨wrapped, hWrapped, rfl⟩ := List.mem_map.mp hMember
            obtain ⟨other, hOther, hFound⟩ := List.exists_of_findSome?_eq_some hWrapper
            obtain ⟨_, -, hPair⟩ := Option.map_eq_some_iff.mp hFound
            obtain ⟨rfl, -⟩ := Prod.mk.inj hPair
            rw [type_apply_of_mem_wrappers hOther]
            exact hInside wrapped hWrapped
          · rw [← h.resolve?_eq hFile]
            split
            · rename_i target hTarget
              exact ih (normalize target.text) (h.inside_of_resolve? hFile hTarget)
            · exact ⟨rfl, by simp⟩

theorem members_eq (h : program.AgreeOn inside program') {type : TypeRef}
    (hType : inside type.file) : members program type = members program' type :=
  (h.membersUpTo_eq _ _ hType).1

theorem inside_of_mem_members (h : program.AgreeOn inside program') {type : TypeRef}
    (hType : inside type.file) {member : Member} (hMember : member ∈ members program type) :
    inside member.type.file :=
  (h.membersUpTo_eq _ _ hType).2 member hMember

/-! ## Types of expressions -/

theorem memberTypeOf?_eq (h : program.AgreeOn inside program') {path : Text} {type : TypeRef}
    (hPath : inside (some path)) (hType : inside type.file) (name : Text) :
    memberTypeOf? program path type name = memberTypeOf? program' path type name ∧
      ∀ found ∈ memberTypeOf? program path type name, inside found.file := by
  unfold memberTypeOf?
  split_ifs with hLength
  · refine ⟨rfl, fun found hFound => ?_⟩
    rw [← Option.some.inj hFound]
    exact hPath
  · refine ⟨by rw [h.members_eq hType], fun found hFound => ?_⟩
    obtain ⟨member, hMember, rfl⟩ := Option.map_eq_some_iff.mp hFound
    exact h.inside_of_mem_members hType (List.mem_of_find?_eq_some hMember)

theorem foldlM_memberTypeOf?_eq (h : program.AgreeOn inside program') {path : Text} {type : TypeRef}
    (hPath : inside (some path)) (hType : inside type.file) (names : List Text) :
    names.foldlM (memberTypeOf? program path) type =
        names.foldlM (memberTypeOf? program' path) type ∧
      ∀ found ∈ names.foldlM (memberTypeOf? program path) type, inside found.file := by
  induction names generalizing type with
  | nil =>
    rw [List.foldlM_nil, List.foldlM_nil]
    refine ⟨rfl, fun found hFound => ?_⟩
    rw [← Option.some.inj hFound]
    exact hType
  | cons name names ih =>
    obtain ⟨hEq, hInside⟩ := h.memberTypeOf?_eq hPath hType name
    rw [List.foldlM_cons, List.foldlM_cons, ← hEq]
    exact bind_agree fun next hNext => ih (hInside next hNext)

variable {expression : Expression}

theorem referenceType?_eq (h : program.AgreeOn inside program')
    (hAt : program.AgreeAt inside program' expression.filePath) {infer : Text → TypeRef}
    (hInfer : ∀ value, inside (infer value).file) (t : Text) :
    referenceType? program infer expression t = referenceType? program' infer expression t ∧
      ∀ found ∈ referenceType? program infer expression t, inside found.file := by
  have hNone : (none : Option TypeRef) = none ∧
      ∀ found ∈ (none : Option TypeRef), inside found.file := ⟨rfl, nofun⟩
  unfold referenceType?
  dsimp only
  rw [← hAt.file?_eq]
  split_ifs
  · refine bind_agree fun file hFile => ?_
    split
    · exact hNone
    · split_ifs
      · split
        · refine bind_agree fun type hField =>
            h.foldlM_memberTypeOf?_eq hAt.inside_path ?_ _
          rw [file_of_fieldType? hField]
          exact hAt.inside_file file hFile
        · exact hNone
      · refine bind_agree fun type hVariable =>
          h.foldlM_memberTypeOf?_eq hAt.inside_path ?_ _
        rcases file_of_variableType? hVariable with hPath | ⟨value, rfl⟩
        · rw [hPath]
          exact hAt.inside_file file hFile
        · exact hInfer value
  · exact hNone

theorem inferUpTo_eq (h : program.AgreeOn inside program')
    (hAt : program.AgreeAt inside program' expression.filePath) (depth : Nat) (t : Text) :
    inferUpTo program expression depth t = inferUpTo program' expression depth t ∧
      inside (inferUpTo program expression depth t).file := by
  induction depth generalizing t with
  | zero => exact ⟨rfl, hAt.inside_path⟩
  | succ depth ih =>
    have hInfer : inferUpTo program expression depth = inferUpTo program' expression depth :=
      funext fun value => (ih value).1
    obtain ⟨hEq, hInside⟩ :=
      h.referenceType?_eq hAt (fun value => (ih value).2) (Text.stripParens t)
    rw [inferUpTo, inferUpTo, ← hInfer]
    dsimp only
    rw [← hEq]
    -- All shapes but casts and references have a type that stands where the expression does.
    refine ⟨rfl, inside_ite hAt.inside_path ?_⟩
    split
    · exact inside_ite (ih _).2 hAt.inside_path
    · iterate 10 refine inside_ite hAt.inside_path ?_
      cases hFound : referenceType? program (inferUpTo program expression depth) expression
        (Text.stripParens t) with
      | none => exact hAt.inside_path
      | some found => exact hInside found hFound

theorem infer_eq (h : program.AgreeOn inside program')
    (hAt : program.AgreeAt inside program' expression.filePath) :
    infer program expression = infer program' expression :=
  (h.inferUpTo_eq hAt _ _).1

theorem inside_infer (h : program.AgreeOn inside program')
    (hAt : program.AgreeAt inside program' expression.filePath) :
    inside (infer program expression).file :=
  (h.inferUpTo_eq hAt _ _).2

/-! ## Assignability -/

theorem assignableUpTo_eq (h : program.AgreeOn inside program') (depth : Nat) (s t : Text)
    {file other : Option Text} (hFile : inside file) (hOther : inside other) :
    assignableUpTo program depth ⟨s, file⟩ ⟨t, other⟩ =
      assignableUpTo program' depth ⟨s, file⟩ ⟨t, other⟩ := by
  induction depth generalizing s t file other with
  | zero => rfl
  | succ depth ih =>
    rw [assignableUpTo, assignableUpTo]
    refine congrArg₂ (ite _) rfl (congrArg₂ (ite _) ?_ (congrArg₂ (ite _) ?_
      (congrArg₂ (ite _) rfl (congrArg₂ (ite _) rfl ?_))))
    · exact congrArg (List.all _) (funext fun part => ih part _ hFile hOther)
    · exact congrArg (List.any _) (funext fun part => ih _ part hFile hOther)
    · cases literalAgainst? (Text.stripParens s) (Text.stripParens t) with
      | some answer => rfl
      | none =>
        refine congrArg₂ (ite _) (ih _ _ hFile hOther)
          (congrArg₂ (ite _) rfl (congrArg₂ (ite _) rfl ?_))
        rw [← h.resolve?_eq hOther, ← h.resolve?_eq hFile]
        cases hTarget : resolve? program ⟨Text.stripParens t, other⟩ with
        | some expanded => exact ih _ _ hFile (h.inside_of_resolve? hOther hTarget)
        | none =>
          cases hSource : resolve? program ⟨Text.stripParens s, file⟩ with
          | some expanded => exact ih _ _ (h.inside_of_resolve? hFile hSource) hOther
          | none => rfl

theorem isAssignable_eq (h : program.AgreeOn inside program') {source target : TypeRef}
    (hSource : inside source.file) (hTarget : inside target.file) :
    isAssignable program source target = isAssignable program' source target :=
  h.assignableUpTo_eq _ _ _ hSource hTarget

end Program.AgreeOn

end TemplateCheck
