import TemplateCheck.Proofs.Program
import TemplateCheck.Proofs.Source.Interface
import TemplateCheck.Proofs.TypeText.Property
import TemplateCheck.Proofs.TypeText.Signature

/-!
# Chains of interfaces

An interface that extends another one stands for the intersection of the name of the other and its
own body. So following it takes two levels of depth, one to look up the name and one for the parts
of the intersection, and the members of a chain of interfaces are those of its first four
(`members_chain`). They come in reverse: what is inherited stands first.

The interfaces of a chain are declared in one file, with any text without headings between them
(`IsOutline`), and each of them is the first one of its name there (`IsChain`). Their members have
distinct names, so none takes the place of another (`Member.overlay_pair`).
-/

namespace TemplateCheck

namespace TypeText

open Text TypeDeclaration

/-! ## Chains -/

/-- An interface of a chain: its name is that of no built-in type, and its body lays out entries. -/
structure Link where
  interface : InterfaceText
  entries : List Text
  not_builtIn : interface.name ∉ primitives ∧ interface.name ∉ topTypes
  not_array : ¬ (interface.name = "Array" ∨ interface.name = "ReadonlyArray")
  isLayout : IsLayout (IsFiller isBlank) entries interface.body

/-- The members that an interface declares in a file. -/
def Link.members (file : Option Text) (link : Link) : List Member :=
  link.entries.filterMap (declaredBy? file)

/-- The text is that of a member, of a property in a row or of a function, and declares
it in a file. -/
inductive IsWritten (file : Option Text) : Text → Member → Prop
  | plain (member : MemberText) : IsWritten file member.print (member.member file)
  | property (property : PropertyText) : IsWritten file property.print (property.member file)
  | function (function : FunctionText) : IsWritten file function.print (function.member file)

/-- Each interface but the last extends the next one, and each is the first of its name among the
interfaces that are declared. -/
inductive IsChain (interfaces : List InterfaceText) : List Link → Prop
  | last {link : Link}
      (declared : interfaces.find? (·.name = link.interface.name) = some link.interface)
      (clause_eq : link.interface.clause = none) : IsChain interfaces [link]
  | cons {link next : Link} {links : List Link}
      (declared : interfaces.find? (·.name = link.interface.name) = some link.interface)
      (clause_eq : link.interface.clause = some next.interface.name)
      (later : IsChain interfaces (next :: links)) : IsChain interfaces (link :: next :: links)

theorem IsChain.declared {interfaces : List InterfaceText} {links : List Link}
    (h : IsChain interfaces links) :
    ∀ link ∈ links, interfaces.find? (·.name = link.interface.name) = some link.interface := by
  induction h with
  | last hDeclared _ => exact List.forall_mem_singleton.mpr hDeclared
  | cons hDeclared _ _ ih => exact List.forall_mem_cons.mpr ⟨hDeclared, ih⟩

/-! ## One interface -/

/-- A property can stand in any layout, unless its type ends in an equals sign. -/
theorem PropertyText.entryText (property : PropertyText)
    (hLast : property.type.getLast? ≠ some '=') :
    EntryText property.print where
  balanced := by
    refine ⟨property.depthFrom_print, property.above_print, ?_⟩
    rwa [property.print_eq, List.getLast?_append_of_ne_nil _ property.isType.ne_nil]
  uncut := property.uncut_print
  no_line_comment := (property.contains_print (by decide)).trans property.isType.no_line_comment
  no_block_comment := (property.contains_print (by decide)).trans property.isType.no_block_comment
  starts := by
    obtain ⟨c, hc⟩ := Option.isSome_iff_exists.mp
      (List.isSome_head?.mpr property.tight_print.ne_nil)
    exact ⟨c, hc, property.tight_print.trimmed.head c hc, property.head_print c hc⟩
  complete := by
    rw [property.tight_print.collapse_eq, property.tight_print.trimmed.trim_eq]
    exact property.goesOn_print

theorem IsWritten.declaredBy?_eq {file : Option Text} {entry : Text} {member : Member}
    (h : IsWritten file entry member) : declaredBy? file entry = some member := by
  cases h with
  | plain member => exact declaredBy?_print file member
  | property property =>
    rw [declaredBy?, property.tight_print.collapse_eq, property.tight_print.trimmed.trim_eq,
      property.memberOf?_print]
  | function function => exact function.declaredBy?_print file

theorem Link.membersUpTo_body (program : Program) (depth : Nat) (file : Option Text) (link : Link)
    (hNodup : ((link.members file).map (·.name)).Nodup) :
    membersUpTo program (depth + 1) ⟨normalize (objectText link.interface.body), file⟩ =
      link.members file := by
  rw [link.isLayout.membersUpTo_eq]
  exact Member.merge_eq_self hNodup

theorem type_of_clause_eq_none {interface : InterfaceText} (h : interface.clause = none) :
    interface.type = objectText interface.body := by
  rw [InterfaceText.type, h]
  rfl

theorem type_of_clause_eq_some {interface : InterfaceText} {base : Text}
    (hBase : base.isIdentifier = true) (h : interface.clause = some base) :
    interface.type = base ++ " & ".toList ++ objectText interface.body := by
  rw [InterfaceText.type, h, Option.getD_some, topLevelParts_of_isIdentifier hBase (by decide)]
  rfl

theorem getLast?_extending (base body : Text) :
    (base ++ " & ".toList ++ objectText body).getLast? = some '}' := by
  have hNonempty : objectText body ≠ [] := List.cons_ne_nil _ _
  rw [List.getLast?_append_of_ne_nil _ hNonempty, getLast?_objectText]

theorem trimmed_extending {base : Text} (hBase : base.isIdentifier = true) (body : Text) :
    (base ++ " & ".toList ++ objectText body).Trimmed := by
  refine ⟨?_, ?_⟩
  · rw [List.append_assoc, List.head?_append_of_ne_nil _ (ne_nil_of_isIdentifier hBase)]
    exact (trimmed_of_isIdentifier hBase).head
  · rw [getLast?_extending]
    rintro c ⟨⟩
    decide

/-- Only the body is changed when an interface that extends another one is normalized. -/
theorem normalize_extending {base : Text} (hBase : base.isIdentifier = true) (body : Text) :
    normalize (base ++ " & ".toList ++ objectText body) =
      base ++ " & ".toList ++ objectText (collapseFrom false body) := by
  have hTight : base.Tight :=
    .of_visible (ne_nil_of_isIdentifier hBase) (isBlank_of_isIdentifier hBase)
  have hSign : (base ++ " &".toList).Tight := .spaced hTight (.of_visible (by decide) (by decide))
  have hText : ∀ t : Text, base ++ " & ".toList ++ t = (base ++ " &".toList) ++ ' ' :: t := by simp
  have hBody : collapseFrom true (objectText body) = objectText (collapseFrom false body) := by
    rw [objectText, collapseFrom, if_neg (by decide), collapseFrom_append, collapseFrom,
      if_neg (by decide)]
    rfl
  have hCollapse : collapse (base ++ " & ".toList ++ objectText body) =
      base ++ " & ".toList ++ objectText (collapseFrom false body) := by
    rw [hText, hText, collapse, hSign.collapseFrom_append, collapseFrom, if_pos (by decide),
      if_neg Bool.false_ne_true, hBody]
  refine normalize_eq_of_collapse hCollapse (trimmed_extending hBase _) ?_ ?_
  · rw [getLast?_extending]
    decide
  · rw [List.append_assoc, List.head?_append_of_ne_nil _ (ne_nil_of_isIdentifier hBase)]
    exact fun hMem => not_mem_of_isIdentifier hBase (by decide) (List.mem_of_mem_head? hMem)

theorem topLevelParts_extending {base body : Text} (hBase : base.isIdentifier = true)
    (h : (collapseFrom false body).Rises) :
    topLevelParts ['&'] (stripParens (normalize (base ++ " & ".toList ++ objectText body))) =
      [normalize base, normalize (objectText body)] := by
  have hDepth : depthFrom none 0 base = 0 :=
    depthFrom_of_forall (fun c hc =>
      nesting_of_class (isNameChar_of_isIdentifier hBase c hc) (by decide)) _ _
  have hText : ∀ t : Text, base ++ " & ".toList ++ t =
      base ++ [' '] ++ '&' :: ([' '] ++ t) := by simp
  have hLast : (base ++ " & ".toList ++ objectText (collapseFrom false body)).getLast? ≠
      some ')' := by
    rw [getLast?_extending]
    decide
  rw [normalize_extending hBase, stripParens_eq_self (trimmed_extending hBase _) hLast, hText,
    topLevelParts_append (by decide) (by decide) (by decide) (by decide) (by decide) hDepth,
    topLevelParts_of_isIdentifier hBase (by decide), topLevelParts_objectText h,
    normalize_of_isIdentifier hBase, normalize_objectText]
  rfl

/-- An interface that extends another one has the members of the other, followed one level
less deep, and its own. -/
theorem Link.membersUpTo_extending (program : Program) (depth : Nat) (file : Option Text)
    (link : Link) {base : Text} (hBase : base.isIdentifier = true)
    (hClause : link.interface.clause = some base)
    (hNodup : ((link.members file).map (·.name)).Nodup)
    (hApart : ∀ member ∈ membersUpTo program (depth + 1) ⟨normalize base, file⟩,
      member.name ∉ (link.members file).map (·.name)) :
    membersUpTo program (depth + 2) ⟨normalize link.interface.type, file⟩ =
      membersUpTo program (depth + 1) ⟨normalize base, file⟩ ++ link.members file := by
  have hParts := topLevelParts_extending hBase (link.isLayout.collapseFrom false).rises
  have hTwo : 2 ≤ (topLevelParts ['&'] (stripParens (normalize
      (base ++ " & ".toList ++ objectText link.interface.body)))).length := by
    rw [hParts]
    exact Nat.le_refl 2
  rw [type_of_clause_eq_some hBase hClause,
    membersUpTo_intersection program (depth + 1) file hTwo, hParts, List.map_cons,
    List.map_singleton, link.membersUpTo_body program depth file hNodup, Member.overlay_pair hApart]

/-! ## Following a chain -/

/-- The file declares the interfaces, and is found under its path. -/
structure DeclaresAll (program : Program) (file : SourceFile)
    (interfaces : List InterfaceText) : Prop where
  file?_eq : program.file? file.path = some file
  path_ne_nil : file.path ≠ []
  isIdentifier : ∀ interface ∈ interfaces, interface.name.isIdentifier = true
  get?_eq : ∀ {interface : InterfaceText},
    interfaces.find? (·.name = interface.name) = some interface →
    OrderedMap.get? file.typeDeclarations interface.name = some interface.type

section

variable {program : Program} {file : SourceFile} {interfaces : List InterfaceText}
  (h : DeclaresAll program file interfaces)

include h

theorem DeclaresAll.membersUpTo_link {link : Link}
    (hDeclared : interfaces.find? (·.name = link.interface.name) = some link.interface)
    (depth : Nat) :
    membersUpTo program (depth + 1) ⟨normalize link.interface.name, some file.path⟩ =
      membersUpTo program depth ⟨normalize link.interface.type, some file.path⟩ := by
  have hName := h.isIdentifier _ (List.mem_of_find?_eq_some hDeclared)
  exact membersUpTo_name hName
    (resolve?_of_declared hName link.not_builtIn link.not_array h.path_ne_nil h.file?_eq
      (h.get?_eq hDeclared)) depth

/-- Each interface of a chain takes two levels. -/
theorem IsChain.membersUpTo_eq {links : List Link} (hChain : IsChain interfaces links)
    (hNodup : ((links.flatMap (·.members (some file.path))).map (·.name)).Nodup) (count : Nat) :
    ∀ first ∈ links.head?,
      membersUpTo program (2 * count + 1) ⟨normalize first.interface.name, some file.path⟩ =
      (links.take count).reverse.flatMap (·.members (some file.path)) := by
  induction hChain generalizing count with
  | @last link hDeclared hClause =>
    rintro _ ⟨⟩
    rw [h.membersUpTo_link hDeclared]
    cases count with
    | zero => rfl
    | succ count =>
      rw [List.flatMap_singleton] at hNodup
      rw [type_of_clause_eq_none hClause, List.take_succ_cons, List.take_nil,
        List.reverse_singleton, List.flatMap_singleton]
      exact link.membersUpTo_body program (2 * count + 1) _ hNodup
  | @cons link next links hDeclared hClause hLater ih =>
    rintro _ ⟨⟩
    rw [h.membersUpTo_link hDeclared]
    cases count with
    | zero => rfl
    | succ count =>
      rw [List.flatMap_cons, List.map_append, List.nodup_append] at hNodup
      obtain ⟨hOwn, hInherited, hApart⟩ := hNodup
      have hBase : next.interface.name.isIdentifier = true :=
        h.isIdentifier _ (List.mem_of_find?_eq_some (hLater.declared next List.mem_cons_self))
      have hNext := ih hInherited count next rfl
      rw [Nat.mul_succ, link.membersUpTo_extending program (2 * count) _ hBase hClause hOwn ?_,
        hNext, List.take_succ_cons, List.reverse_cons, List.flatMap_append, List.flatMap_singleton]
      intro member hMember hMem
      rw [hNext] at hMember
      obtain ⟨other, hOther, hDeclaredBy⟩ := List.mem_flatMap.mp hMember
      have hLinks : other ∈ next :: links := List.mem_of_mem_take (List.mem_reverse.mp hOther)
      exact hApart _ hMem _ (List.mem_map_of_mem
        (List.mem_flatMap.mpr ⟨other, hLinks, hDeclaredBy⟩)) rfl

end

/-! ## Chains in a program -/

theorem declares_of_outline {program : Program} (h : program.WellFormed) {file : SourceFile}
    (hFile : file ∈ program.sourceFiles) {interfaces : List InterfaceText}
    (hOutline : IsOutline interfaces file.mask file.text) :
    DeclaresAll program file interfaces where
  file?_eq := h.file?_path hFile
  path_ne_nil := by
    have hNormal : Path.normalize file.path = file.path :=
      h.normal _ (h.mem_sourceFiles_iff.mp hFile)
    rw [← hNormal]
    exact Path.normalize_ne_nil file.path
  isIdentifier := hOutline.isIdentifier_name
  get?_eq := by
    have hRead : file.typeDeclarations = readAll file.text file.mask := by
      rw [h.read_path hFile]
      rfl
    intro interface hFirst
    rw [hRead]
    exact hOutline.get?_readAll hFirst

/-- The members of a chain of interfaces in a file are those of its first four, what is
inherited first: so a chain of at most four has all its members, each with the type and the mark
that it is written with. -/
theorem members_chain {program : Program} (h : program.WellFormed) {file : SourceFile}
    (hFile : file ∈ program.sourceFiles) {interfaces : List InterfaceText}
    (hOutline : IsOutline interfaces file.mask file.text) {first : Link} {links : List Link}
    (hChain : IsChain interfaces (first :: links))
    (hNodup : (((first :: links).flatMap (·.members (some file.path))).map (·.name)).Nodup) :
    let members := TypeText.members program ⟨first.interface.name, some file.path⟩
    members = ((first :: links).take 4).reverse.flatMap (·.members (some file.path)) ∧
      ∀ link ∈ (first :: links).take 4, ∀ entry ∈ link.entries, ∀ member,
        IsWritten (some file.path) entry member → member ∈ members := by
  intro members
  have hMembers :
      members = ((first :: links).take 4).reverse.flatMap (·.members (some file.path)) :=
    hChain.membersUpTo_eq (declares_of_outline h hFile hOutline) hNodup 4 first rfl
  refine ⟨hMembers, fun link hLink entry hEntry member hWritten => ?_⟩
  rw [hMembers]
  exact List.mem_flatMap.mpr ⟨link, List.mem_reverse.mpr hLink, List.mem_filterMap.mpr
    ⟨entry, hEntry, hWritten.declaredBy?_eq⟩⟩

theorem members_chain_parameters :
    let text : Text :=
      "interface Base { a: string, }\nexport interface Props<T> extends Base /* x */ " ++
        "{ readonly b?: T; }"
    let program : Program := .ofFiles {} [("a.ts", text)]
    TypeText.members program ⟨"Props", some "a.ts"⟩ =
      [⟨"a", ⟨"string", some "a.ts"⟩, false⟩, ⟨"b", ⟨"T", some "a.ts"⟩, true⟩] := by
  intro text program
  let a : MemberText := ⟨"a", false, " string", by decide, by decide⟩
  let b : PropertyText := ⟨true, .bare "b" (by decide), true, "T", by decide⟩
  let baseText : InterfaceText := ⟨"Base", none, " a: string, "⟩
  let propsText : InterfaceText := ⟨"Props", some "Base", " readonly b?: T; "⟩
  have hSpace : IsFiller isBlank [' '] := .gap (by decide) .nil
  let base : Link := ⟨baseText, [a.print], by decide, by decide,
    .cons a.entryText hSpace .nil (by decide) (.nil hSpace)⟩
  let props : Link := ⟨propsText, [b.print], by decide, by decide,
    .cons (b.entryText (by decide)) hSpace .nil (by decide) (.nil hSpace)⟩
  have hChain : IsChain [baseText, propsText] [props, base] := .cons rfl rfl (.last rfl rfl)
  have hTail : IsTail [' '] := .blanks (by decide)
  have hGap : Pattern.IsGap [' '] := ⟨by decide, by decide⟩
  have hBase : IsHeading "Base" none "interface Base ".toList := .alone hGap hTail
  have hParameters : IsTail "<T> ".toList :=
    @IsTail.parameters [] ['T'] [' '] (by decide) (by decide)
      (noExtension_of_not_mem (by decide)) (by decide)
  have hClause : IsClause "Base".toList := ⟨by decide, ⟨by decide, by decide⟩, by decide⟩
  have hProps :
      IsHeading "Props" (some "Base".toList) "interface Props<T> extends Base         ".toList :=
    .extending hGap hParameters (by decide) hGap hClause (by decide)
  have hEnd : IsOutline [] [] [] := .gap (.of_contains (by decide) (by decide)) []
  have hLater := @IsOutline.cons propsText [] "\nexport ".toList "\nexport ".toList
    "interface Props<T> extends Base         ".toList
    "interface Props<T> extends Base /* x */ ".toList " readonly b?: T; ".toList [] [] (by decide)
    (.of_contains (by decide) (by decide)) (by decide) (by decide) hProps (by decide)
    (.of_contains (by decide) (by decide)) (.of_forall (by decide)) (by decide) hEnd
  have hOutline := @IsOutline.cons baseText _ [] [] "interface Base ".toList
    "interface Base ".toList
    " a: string, ".toList _ _ (by decide) (.of_contains (by decide) (by decide)) (by decide)
    (by decide) hBase (by decide) (.of_contains (by decide) (by decide)) (.of_forall (by decide))
    (by decide) hLater
  let file : SourceFile := SourceFile.read program.config.templateTag "a.ts" text
  have hFile : file ∈ program.sourceFiles := List.mem_cons_self
  have hSame : ∀ {mask fileText}, file.mask = mask → file.text = fileText →
      IsOutline [baseText, propsText] mask fileText →
      IsOutline [baseText, propsText] file.mask file.text := by
    rintro _ _ rfl rfl h
    exact h
  have hFileOutline := hSame (by decide +kernel) (by decide +kernel) hOutline
  have hOwn : props.members (some "a.ts") = [b.member (some "a.ts")] ∧
      base.members (some "a.ts") = [a.member (some "a.ts")] :=
    ⟨List.filterMap_cons_some (IsWritten.property b).declaredBy?_eq,
      List.filterMap_cons_some (IsWritten.plain a).declaredBy?_eq⟩
  have hNodup : (([props, base].flatMap (·.members (some "a.ts"))).map (·.name)).Nodup := by
    rw [List.flatMap_cons, List.flatMap_singleton, hOwn.1, hOwn.2]
    decide
  have hMembers :=
    (members_chain (Program.wellFormed_ofFiles _ _) hFile hFileOutline hChain hNodup).1
  have hBoth : ([props, base].take 4).reverse.flatMap (·.members (some "a.ts")) =
      [a.member (some "a.ts"), b.member (some "a.ts")] := by
    show base.members (some "a.ts") ++ (props.members (some "a.ts") ++ []) = _
    rw [hOwn.1, hOwn.2]
    rfl
  exact (hMembers.trans hBoth).trans (by decide +kernel)

/-- The fifth interface of a chain is out of reach, and an interface that is named like the built-in
arrays is not looked up. -/
theorem members_chain_incomplete :
    let read (text name : Text) : List Text :=
      (TypeText.members (.ofFiles {} [("a.ts", text)]) ⟨name, some "a.ts"⟩).map (·.name)
    read ("interface A {a: 1} interface B extends A {b: 1} interface C extends B {c: 1} " ++
        "interface D extends C {d: 1} interface E extends D {e: 1}") "E" = ["b", "c", "d", "e"] ∧
      read "interface Array {a: 1} interface B extends Array {b: 1}" "B" = ["b"] := by
  decide +kernel

end TypeText

end TemplateCheck
