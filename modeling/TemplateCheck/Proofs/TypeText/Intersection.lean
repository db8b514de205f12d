import Mathlib.Data.List.Induction
import Mathlib.Data.List.Nodup
import Mathlib.Tactic.Common
import TemplateCheck.TypeText.Resolution

/-!
# Members of intersections

Every list of members that a type has is one of distinct names (`nodup_membersUpTo`): an object type
and an intersection merge what they find, a wrapper keeps the names, and a name has the members of
what it stands for. So merging the members of the parts of an intersection one after the other is
laying whole lists over each other (`Member.merge_append`): a list takes the place of all earlier
members of its names and stands behind the others (`Member.overlay`).
-/

namespace TemplateCheck

/-! ## Merging -/

namespace Member

/-- Lists of members one laid over the other: each drops what the earlier ones have
under its names. -/
def overlay (lists : List (List Member)) : List Member :=
  lists.foldl (fun kept members =>
    (kept.filter fun member => member.name ∉ members.map (·.name)) ++ members) []

theorem overlay_concat (lists : List (List Member)) (members : List Member) :
    overlay (lists ++ [members]) =
      ((overlay lists).filter fun member => member.name ∉ members.map (·.name)) ++ members :=
  List.foldl_concat ..

theorem nodup_insert {members : List Member} (h : (members.map (·.name)).Nodup) (member : Member) :
    ((insert members member).map (·.name)).Nodup := by
  have hKept : ((members.filter (·.name ≠ member.name)).map (·.name)).Nodup :=
    h.sublist (List.filter_sublist.map _)
  rw [insert, List.map_append, List.map_singleton]
  refine List.nodup_append.mpr ⟨hKept, List.nodup_singleton _, ?_⟩
  rintro name hName _ hLast rfl
  obtain ⟨other, hOther, rfl⟩ := List.mem_map.mp hName
  exact of_decide_eq_true (List.mem_filter.mp hOther).2 (List.mem_singleton.mp hLast)

theorem nodup_merge (members : List Member) : ((merge members).map (·.name)).Nodup :=
  List.foldlRecOn members insert (motive :=
    fun merged => (merged.map (·.name)).Nodup) List.nodup_nil
    fun _ hMerged member _ => nodup_insert hMerged member

theorem merge_append (members : List Member) {added : List Member}
    (h : (added.map (·.name)).Nodup) :
    merge (members ++ added) =
      ((merge members).filter fun member => member.name ∉ added.map (·.name)) ++ added := by
  induction added using List.reverseRecOn with
  | nil => simp
  | append_singleton added last ih =>
    rw [List.map_append, List.map_singleton, List.nodup_append] at h
    obtain ⟨hAdded, -, hApart⟩ := h
    have hKept : added.filter (·.name ≠ last.name) = added :=
      List.filter_eq_self.mpr fun member hMember =>
      decide_eq_true (hApart _ (List.mem_map_of_mem hMember) _ List.mem_cons_self)
    have hMerge : merge (members ++ (added ++ [last])) =
        insert (merge (members ++ added)) last := by
      rw [← List.append_assoc]
      exact List.foldl_concat ..
    rw [hMerge, ih hAdded, insert, List.filter_append, hKept, List.filter_filter, List.append_assoc]
    refine congrArg (· ++ _) (List.filter_congr fun member _ => ?_)
    rw [← Bool.decide_and, decide_eq_decide, List.map_append, List.mem_append, not_or, and_comm,
      List.map_singleton, List.mem_singleton]

theorem merge_eq_self {members : List Member} (h : (members.map (·.name)).Nodup) :
    merge members = members :=
  merge_append [] h

theorem merge_flatten {lists : List (List Member)}
    (h : ∀ members ∈ lists, (members.map (·.name)).Nodup) :
    merge lists.flatten = overlay lists := by
  induction lists using List.reverseRecOn with
  | nil => rfl
  | append_singleton lists members ih =>
    rw [List.flatten_concat, merge_append _ (h members (by simp)), overlay_concat,
      ih fun earlier hEarlier => h earlier (List.mem_append_left _ hEarlier)]

theorem overlay_pair {kept members : List Member}
    (h : ∀ member ∈ kept, member.name ∉ members.map (·.name)) :
    overlay [kept, members] = kept ++ members := by
  have hKept : kept.filter (fun member => member.name ∉ members.map (·.name)) = kept :=
    List.filter_eq_self.mpr fun member hMember => decide_eq_true (h member hMember)
  exact congrArg (· ++ members) hKept

theorem find?_over (name : Text) (kept members : List Member) :
    ((kept.filter fun member => member.name ∉ members.map (·.name)) ++ members).find?
      (·.name = name) =
      (members.find? (·.name = name)).or (kept.find? (·.name = name)) := by
  rw [List.find?_append, List.find?_filter]
  cases hLast : members.find? (·.name = name) with
  | none =>
    have hFree : ∀ member : Member, member.name = name → member.name ∉ members.map (·.name) := by
      intro member hName hMem
      obtain ⟨other, hOther, hEq⟩ := List.mem_map.mp hMem
      exact List.find?_eq_none.mp hLast other hOther (decide_eq_true (hEq.trans hName))
    rw [Option.or_none, Option.none_or]
    refine congrArg (List.find? · kept) (funext fun member => decide_eq_decide.mpr ?_)
    rw [decide_eq_true_iff, decide_eq_true_iff, and_iff_right_of_imp (hFree member)]
  | some last =>
    have hMem : name ∈ members.map (·.name) := by
      have hName := List.find?_some hLast
      exact of_decide_eq_true hName ▸ List.mem_map_of_mem (List.mem_of_find?_eq_some hLast)
    rw [Option.some_or, List.find?_eq_none.mpr fun member _ hBoth => ?_, Option.none_or]
    obtain ⟨hKept, hName⟩ := of_decide_eq_true hBoth
    exact of_decide_eq_true hKept (of_decide_eq_true hName ▸ hMem)

/-- Under a name stands what the last list has there that has the name. -/
theorem find?_overlay (name : Text) (lists : List (List Member)) :
    (overlay lists).find? (·.name = name) =
      lists.reverse.findSome? fun members => members.find? (·.name = name) := by
  induction lists using List.reverseRecOn with
  | nil => rfl
  | append_singleton lists members ih =>
    rw [overlay_concat, find?_over, ih, List.reverse_concat, List.findSome?_cons]
    cases members.find? (·.name = name) <;> rfl

end Member

namespace TypeText

open Text

/-! ## Names of members -/

theorem name_apply_of_mem_wrappers {wrapper : Wrapper} (h : wrapper ∈ wrappers) (member : Member) :
    (wrapper.apply member).name = member.name := by
  simp only [wrappers, List.mem_cons, List.not_mem_nil, or_false] at h
  rcases h with rfl | rfl | rfl <;> rfl

/-- However deep types are followed, a type has one member of a name. -/
theorem nodup_membersUpTo (program : Program) (depth : Nat) (type : TypeRef) :
    ((membersUpTo program depth type).map (·.name)).Nodup := by
  induction depth generalizing type with
  | zero => exact List.nodup_nil
  | succ depth ih =>
    rw [membersUpTo]
    split_ifs
    · exact List.nodup_nil
    · dsimp only
      split
      · exact Member.nodup_merge _
      · split_ifs
        · exact Member.nodup_merge _
        · split
          · -- A wrapper changes members one by one, and no name.
            rename_i wrapper inner hWrapper
            obtain ⟨other, hOther, hFound⟩ := List.exists_of_findSome?_eq_some hWrapper
            obtain ⟨_, -, hPair⟩ := Option.map_eq_some_iff.mp hFound
            obtain ⟨rfl, -⟩ := Prod.mk.inj hPair
            have hNames : (·.name) ∘ other.apply = fun member : Member => member.name :=
              funext (name_apply_of_mem_wrappers hOther)
            rw [List.map_map, hNames]
            exact ih _
          · split
            · exact ih _
            · exact List.nodup_nil

/-! ## Parts -/

/-- The members of an intersection are those of its parts, laid over each other. -/
theorem membersUpTo_intersection (program : Program) (depth : Nat) {text : Text}
    (file : Option Text) (h : 2 ≤ (topLevelParts ['&'] (stripParens text)).length) :
    membersUpTo program (depth + 1) ⟨text, file⟩ =
      Member.overlay ((topLevelParts ['&'] (stripParens text)).map fun part =>
        membersUpTo program depth ⟨part, file⟩) := by
  have hNonempty : text ≠ [] := by
    rintro rfl
    exact absurd h (by decide)
  rw [membersUpTo, if_neg hNonempty]
  dsimp only
  match hParts : topLevelParts ['&'] (stripParens text), h with
  | first :: second :: rest, _ =>
    dsimp only
    rw [List.flatMap_def]
    refine Member.merge_flatten fun members hMembers => ?_
    obtain ⟨part, -, rfl⟩ := List.mem_map.mp hMembers
    exact nodup_membersUpTo program depth _

/-- A type has one member of a name. Where it is an intersection, its members are those of its
parts, each followed one level less deep, laid over each other: of one name the member of the
last part that has it. -/
theorem members_overlay (program : Program) (type : TypeRef) :
    let parts := topLevelParts ['&'] (stripParens (normalize type.text))
    let lists := parts.map fun part => membersUpTo program (depthLimit - 1) ⟨part, type.file⟩
    ((TypeText.members program type).map (·.name)).Nodup ∧
      (2 ≤ parts.length → TypeText.members program type = Member.overlay lists ∧
        ∀ name, (TypeText.members program type).find? (·.name = name) =
          lists.reverse.findSome? fun members => members.find? (·.name = name)) := by
  intro parts lists
  refine ⟨nodup_membersUpTo program depthLimit _, fun hParts => ?_⟩
  have hOverlay : TypeText.members program type = Member.overlay lists :=
    membersUpTo_intersection program (depthLimit - 1) type.file hParts
  exact ⟨hOverlay, fun name => hOverlay ▸ Member.find?_overlay name lists⟩

theorem members_overlay_widened :
    let text : Text := "(Base & { id: number; b?: boolean })"
    let program : Program := .ofFiles {} [("a.ts", "interface Base { id: string; a: string }")]
    2 ≤ (topLevelParts ['&'] (stripParens (normalize text))).length ∧
      (TypeText.members program ⟨text, some "a.ts"⟩).map (·.name) = ["a", "id", "b"] ∧
      (TypeText.members program ⟨text, some "a.ts"⟩).find? (·.name = "id".toList) =
        some ⟨"id", ⟨"number", some "a.ts"⟩, false⟩ := by
  intro text program
  have hParts : 2 ≤ (topLevelParts ['&'] (stripParens (normalize text))).length := by decide +kernel
  obtain ⟨hMembers, hFind⟩ := (members_overlay program ⟨text, some "a.ts"⟩).2 hParts
  refine ⟨hParts, ?_, ?_⟩
  · rw [hMembers]
    decide +kernel
  · rw [hFind]
    decide +kernel

end TypeText

end TemplateCheck
