import Mathlib.Data.List.Induction
import TemplateCheck.Proofs.TypeText.Entry
import TemplateCheck.Proofs.TypeText.Name

/-!
# Members of a layout

An object type with a layout of entries in its braces has the members that the entries declare, of
those with one name the last (`IsLayout.membersUpTo_eq`, `Member.filter_merge`). The braces are
taken off because the type is one part (`topLevelParts_objectText`): nothing in a layout closes a
bracket that it does not open (`IsLayout.rises`). So a body of members has those members, whatever
its layout, and so has a name that stands for such a type (`members_objectText`).

The layouts do not separate members by line feeds alone and have no line comments. A type is read
with its blanks collapsed (`normalize_collapse`), so a line feed says no more than a space.
-/

namespace TemplateCheck

/-! ## Members of one name -/

namespace Member

variable (name : Text) (members : List Member)

theorem filter_insert (member : Member) : (insert members member).filter (·.name = name) =
    if member.name = name then [member] else members.filter (·.name = name) := by
  unfold insert
  rw [List.filter_append, List.filter_filter, List.filter_singleton]
  split_ifs with hName
  · subst hName
    simp
  · have hKept : ∀ other : Member,
        (decide (other.name = name) && decide (other.name ≠ member.name)) =
        decide (other.name = name) := by
      intro other
      by_cases hOther : other.name = name
      · rw [hOther, decide_eq_true (Ne.symm hName), Bool.and_true]
      · rw [decide_eq_false hOther, Bool.false_and]
    rw [decide_eq_false hName, List.filter_congr fun other _ => hKept other]
    exact List.append_nil _

theorem filter_merge : (merge members).filter (·.name = name) =
    (members.filter (·.name = name)).getLast?.toList := by
  induction members using List.reverseRecOn with
  | nil => rfl
  | append_singleton members member ih =>
    have hMerge : merge (members ++ [member]) = insert (merge members) member :=
      List.foldl_concat _ _ _ _
    rw [hMerge, filter_insert, List.filter_append, List.filter_singleton]
    split_ifs with hName
    · rw [decide_eq_true hName]
      simp
    · rw [decide_eq_false hName, ih]
      simp

end Member

namespace TypeText

open Text

/-! ## Braces -/

/-- The text of an object type with a body. -/
def objectText (body : Text) : Text := '{' :: (body ++ ['}'])

theorem getLast?_objectText (body : Text) : (objectText body).getLast? = some '}' := by
  rw [objectText, ← List.cons_append, List.getLast?_concat]

theorem trimmed_objectText (body : Text) : (objectText body).Trimmed := by
  constructor
  · rintro c ⟨⟩
    decide
  · rw [getLast?_objectText]
    rintro c ⟨⟩
    decide

theorem normalize_objectText (body : Text) :
    normalize (objectText body) = objectText (collapseFrom false body) := by
  have hCollapse : collapse (objectText body) = objectText (collapseFrom false body) := by
    rw [collapse, objectText, collapseFrom, if_neg (by decide), collapseFrom_append, collapseFrom,
      if_neg (by decide)]
    rfl
  refine normalize_eq_of_collapse hCollapse (trimmed_objectText _) ?_ ?_
  · rw [getLast?_objectText]
    decide
  · exact fun hHead => absurd (Option.some.inj hHead) (by decide)

theorem beforeLast?_objectText (body : Text) :
    beforeLast? '}' (objectText body) = some ('{' :: body) := by
  unfold beforeLast?
  rw [objectText, ← List.cons_append, List.reverse_append, List.reverse_singleton,
    List.singleton_append, List.dropWhile_cons_of_neg (by decide)]
  dsimp only
  rw [List.reverse_reverse]

theorem rises_comment {body : Text} (h : Above (-1) none 0 body) :
    Rises ('/' :: '*' :: (body ++ ['*', '/'])) := by
  have hOpen : Balanced ['/', '*'] := .of_forall (by decide) (by decide)
  have hClose : Balanced ['/'] := .of_forall (by decide) (by decide)
  -- The body may end in an equals sign, so the asterisk goes with it.
  have hBody : Rises (body ++ ['*']) := by
    have hDepth : -1 < depthFrom none 0 body := h.lt_depthFrom (by decide)
    have hNesting : nesting (body.getLast?.or none) '*' = 0 :=
      nesting_of_class (p := fun c => c = '*') (by decide) (by decide) _
    refine ⟨above_append.mpr ⟨h, ?_, trivial⟩, ?_⟩
    · rwa [hNesting, Int.add_zero]
    · rw [List.getLast?_concat]
      decide
  have hText : '/' :: '*' :: (body ++ ['*', '/']) =
      ['/', '*'] ++ ((body ++ ['*']) ++ ['/']) := by simp
  rw [hText]
  exact hOpen.rises.append (hBody.append hClose.rises)

theorem IsFiller.rises {filler : Text} (h : IsFiller (· = ' ') filler) : filler.Rises := by
  induction h with
  | nil => exact Balanced.nil.rises
  | @gap c filler hc _ ih =>
    obtain rfl : c = ' ' := decide_eq_true_iff.mp hc
    exact Rises.append (s := [' ']) (Balanced.of_forall (by decide) (by decide)).rises ih
  | @comment body filler _ hAbove _ ih =>
    have hText : '/' :: '*' :: (body ++ '*' :: '/' :: filler) =
        ('/' :: '*' :: (body ++ ['*', '/'])) ++ filler := by simp
    rw [hText]
    exact (rises_comment hAbove).append ih

theorem IsLayout.rises {entries : List Text} {body : Text}
    (h : IsLayout (IsFiller (· = ' ')) entries body) :
    body.Rises := by
  induction h with
  | nil hFiller => exact hFiller.rises
  | last hEntry hBefore hAfter =>
    exact hBefore.rises.append (hEntry.balanced.rises.append hAfter.rises)
  | cons hEntry hBefore hAfter hSeparator _ ih =>
    have hLater : Rises (_ ++ _) := (balanced_separator hSeparator).rises.append ih
    exact hBefore.rises.append (hEntry.balanced.rises.append (hAfter.rises.append hLater))

/-- An object type is one part, if its body closes no bracket that it does not open. -/
theorem topLevelParts_objectText {body : Text} (h : body.Rises) :
    topLevelParts ['&'] (objectText body) = [objectText body] := by
  refine topLevelParts_of_uncut ?_ (trimmed_objectText body) (List.cons_ne_nil _ _)
  have hInside : Uncut (· = '&') (some '{') 1 body :=
    uncut_of_above (h.above_of (by decide) (by decide))
  exact ⟨by decide, uncut_append.mpr ⟨hInside, by simp, trivial⟩⟩

/-! ## Members of layouts -/

/-- The member that an entry declares, once its blanks are collapsed. -/
def declaredBy? (file : Option Text) (entry : Text) : Option Member :=
  memberOf? file (trim (collapse entry))

theorem memberOf?_bracket (file : Option Text) (t : Text) : memberOf? file ('[' :: t) = none := rfl

theorem filterMap_memberOf? (file : Option Text) (entries : List Text) :
    (entries.filter fun entry => entry.head? ≠ some '[').filterMap (memberOf? file) =
      entries.filterMap (memberOf? file) := by
  rw [List.filterMap_filter]
  refine List.filterMap_congr fun entry _ => ?_
  by_cases hBracket : entry.head? = some '['
  · obtain ⟨rest, rfl⟩ := List.head?_eq_some_iff.mp hBracket
    rw [memberOf?_bracket, ite_self]
  · rw [if_pos (decide_eq_true hBracket)]

theorem objectMembers_objectText (file : Option Text) (body : Text) :
    objectMembers file (objectText body) =
      Member.merge ((memberEntries (dropComments body)).filterMap (memberOf? file)) := by
  unfold objectMembers
  rw [beforeLast?_objectText]
  rfl

theorem IsLayout.objectMembers_eq {entries : List Text} {body : Text}
    (h : IsLayout (IsFiller isBlank) entries body) (file : Option Text) :
    objectMembers file (objectText (Text.collapseFrom false body)) =
      Member.merge (entries.filterMap (declaredBy? file)) := by
  have hLayout := (h.collapseFrom false).dropComments
  have hCollapsed : ∀ entry ∈ entries.map Text.collapse, Text.collapse entry = entry := by
    intro entry hEntry
    obtain ⟨written, -, rfl⟩ := List.mem_map.mp hEntry
    exact collapse_collapse written
  rw [objectMembers_objectText, hLayout.memberEntries_eq hCollapsed,
    filterMap_memberOf?, List.map_map, List.filterMap_map]
  rfl

/-- The members of an object type are those in its braces, if its body closes no bracket
that it does not open. -/
theorem membersUpTo_braces {body : Text} (h : (Text.collapseFrom false body).Rises)
    (program : Program) (depth : Nat) (file : Option Text) :
    membersUpTo program (depth + 1) ⟨normalize (objectText body), file⟩ =
      objectMembers file (objectText (Text.collapseFrom false body)) := by
  have hNe : objectText (Text.collapseFrom false body) ≠ [] := List.cons_ne_nil _ _
  have hParens : stripParens (objectText (Text.collapseFrom false body)) =
      objectText (Text.collapseFrom false body) := by
    refine stripParens_eq_self (trimmed_objectText _) ?_
    rw [getLast?_objectText]
    decide
  have hBrace : (objectText (Text.collapseFrom false body)).head? = some '{' := rfl
  rw [normalize_objectText, membersUpTo, if_neg hNe]
  dsimp only
  rw [hParens, topLevelParts_objectText h]
  dsimp only
  rw [if_pos hBrace]

theorem IsLayout.membersUpTo_eq {entries : List Text} {body : Text}
    (h : IsLayout (IsFiller isBlank) entries body) (program : Program) (depth : Nat)
    (file : Option Text) :
    membersUpTo program (depth + 1) ⟨normalize (objectText body), file⟩ =
      Member.merge (entries.filterMap (declaredBy? file)) := by
  rw [membersUpTo_braces (h.collapseFrom false).rises, h.objectMembers_eq]

theorem declaredBy?_print (file : Option Text) (member : MemberText) :
    declaredBy? file member.print = some (member.member file) := by
  unfold declaredBy?
  rw [member.collapse_print, member.collapse.trim_print, memberOf?_entry, member.member_collapse]

theorem membersUpTo_objectText {members : List MemberText} {body : Text}
    (h : IsBody (IsFiller isBlank) members body) (program : Program) (depth : Nat)
    (file : Option Text) :
    membersUpTo program (depth + 1) ⟨normalize (objectText body), file⟩ =
      Member.merge (members.map (·.member file)) := by
  have hEach : declaredBy? file ∘ MemberText.print = fun member => some (member.member file) :=
    funext (declaredBy?_print file)
  rw [h.isLayout.membersUpTo_eq, List.filterMap_map, hEach, List.filterMap_eq_map']

/-! ## Names -/

theorem wrapped?_eq_none {t : Text} (h : '<' ∉ t) (wrapper : Wrapper) :
    wrapped? wrapper t = none := by
  refine Option.bind_eq_none_iff.mpr fun rest hRest =>
    Option.bind_eq_none_iff.mpr fun more hMore => ?_
  have hOpening : '<' ∈ trimStart rest := by
    rw [eq_append_of_dropStart? hMore]
    exact List.mem_cons_self
  rw [eq_append_of_dropStart? hRest] at h
  exact absurd (List.mem_append_right _ ((List.dropWhile_sublist _).mem hOpening)) h

/-- The members of a name are those of what it stands for. -/
theorem membersUpTo_identifier (program : Program) (depth : Nat) {name : Text}
    (hName : name.isIdentifier = true) (here : Option Text) :
    membersUpTo program (depth + 1) ⟨normalize name, here⟩ =
      (resolve? program ⟨name, here⟩).elim [] fun target =>
        membersUpTo program depth ⟨normalize target.text, target.file⟩ := by
  have hNot : ∀ {c : Char}, isNameChar c = false → c ∉ name := not_mem_of_isIdentifier hName
  have hBrace : ¬ name.head? = some '{' := fun hHead =>
    hNot (by decide) (List.mem_of_mem_head? hHead)
  have hWrapper :
      (wrappers.findSome? fun wrapper => (wrapped? wrapper name).map (wrapper, ·)) = none := by
    refine List.findSome?_eq_none_iff.mpr fun wrapper _ => ?_
    rw [wrapped?_eq_none (hNot (by decide)) wrapper]
    rfl
  rw [normalize_of_isIdentifier hName, membersUpTo, if_neg (ne_nil_of_isIdentifier hName)]
  dsimp only
  rw [stripParens_of_isIdentifier hName, topLevelParts_of_isIdentifier hName (by decide)]
  dsimp only
  rw [if_neg hBrace, hWrapper]
  cases resolve? program ⟨name, here⟩ <;> rfl

theorem membersUpTo_name {program : Program} {name : Text} (hName : name.isIdentifier = true)
    {here : Option Text} {target : TypeRef} (hTarget : resolve? program ⟨name, here⟩ = some target)
    (depth : Nat) :
    membersUpTo program (depth + 1) ⟨normalize name, here⟩ =
      membersUpTo program depth ⟨normalize target.text, target.file⟩ := by
  rw [membersUpTo_identifier program depth hName, hTarget, Option.elim_some]

/-- The members of an object type, and of a name that stands for one, do not depend on
the layout of its body: separators, blanks, line feeds and block comments between the
members make no difference. -/
theorem members_objectText {members : List MemberText} {body : Text}
    (h : IsBody (IsFiller isBlank) members body) (program : Program) (file : Option Text) :
    TypeText.members program ⟨objectText body, file⟩ = Member.merge (members.map (·.member file)) ∧
      ∀ (name : Text) (here : Option Text), name.isIdentifier = true →
        resolve? program ⟨name, here⟩ = some ⟨objectText body, file⟩ →
          TypeText.members program ⟨name, here⟩ = Member.merge (members.map (·.member file)) := by
  refine ⟨membersUpTo_objectText h program 8 file, fun name here hName hTarget => ?_⟩
  unfold TypeText.members
  rw [depthLimit, membersUpTo_name hName hTarget 8]
  exact membersUpTo_objectText h program 7 file

theorem members_objectText_commented :
    let text : Text := join "\n" [r"{ a: string; /* , */", r" b?: number, }"]
    let program : Program := .ofFiles {} [("a.ts".toList, "interface Props ".toList ++ text)]
    let expected : List Member :=
      [⟨"a", ⟨"string", some "a.ts"⟩, false⟩, ⟨"b", ⟨"number", some "a.ts"⟩, true⟩]
    TypeText.members program ⟨text, some "a.ts"⟩ = expected ∧
      TypeText.members program ⟨"Props", none⟩ = expected := by
  intro text program expected
  have hType : ∀ type ∈ [" string".toList, " number".toList], MemberType type := by
    intro type hMem
    rcases List.mem_pair.mp hMem with rfl | rfl
    · exact ⟨.of_forall (by decide) (by decide), uncut_of_forall (by decide) _ _,
        by decide, by decide, by decide, by decide⟩
    · exact ⟨.of_forall (by decide) (by decide), uncut_of_forall (by decide) _ _,
        by decide, by decide, by decide, by decide⟩
  let first : MemberText := ⟨"a", false, " string", by decide, hType _ List.mem_cons_self⟩
  let second : MemberText :=
    ⟨"b", true, " number", by decide, hType _ (List.mem_cons_of_mem _ List.mem_cons_self)⟩
  have hSpace : IsFiller isBlank [' '] := .gap (by decide) .nil
  have hComment : IsFiller isBlank " /* , */\n ".toList :=
    .gap (by decide) (@IsFiller.comment isBlank " , ".toList "\n ".toList (by decide)
      ⟨by decide, by decide, by decide, trivial⟩ (.gap (by decide) hSpace))
  have hBody :
      IsBody (IsFiller isBlank) [first, second] " a: string; /* , */\n b?: number, ".toList :=
    .cons first hSpace .nil (by decide) (.cons second hComment .nil (by decide) (.nil hSpace))
  have hExpected : Member.merge ([first, second].map (·.member (some "a.ts"))) = expected := by
    show Member.merge
      [⟨"a", ⟨normalize " string", some "a.ts"⟩,
          false || "undefined".toList ∈ unionParts (normalize " string")⟩,
        ⟨"b", ⟨normalize " number", some "a.ts"⟩,
          true || "undefined".toList ∈ unionParts (normalize " number")⟩] = _
    decide +kernel
  obtain ⟨hMembers, hNamed⟩ := members_objectText hBody program (some "a.ts")
  exact ⟨hMembers.trans hExpected,
    (hNamed "Props" none (by decide) (by decide +kernel)).trans hExpected⟩

/-- Line feeds are blanks by the time the members are told apart: they separate none,
and a line comment goes on to the closing brace. A bracket in a comment counts for the
parts of an intersection. -/
theorem members_objectText_line_feeds :
    let read (t : Text) : List Member := TypeText.members (.empty {}) ⟨t, none⟩
    let a : Member := ⟨"a", ⟨"string", none⟩, false⟩
    read "{ a: string; b: number }" = [a, ⟨"b", ⟨"number", none⟩, false⟩] ∧
      read (join "\n" [r"{ a: string", r" b: number }"]) =
        [⟨"a", ⟨"string b: number", none⟩, false⟩] ∧
      read (join "\n" [r"{ a: string; // x", r" b: number }"]) = [a] ∧
      read r"{ a: string; /* } */ b: A & B }" = [a] := by
  decide +kernel

end TypeText

end TemplateCheck
