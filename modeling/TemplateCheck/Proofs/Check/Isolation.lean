import TemplateCheck.Proofs.Check.Locality
import TemplateCheck.Proofs.TypeText.Resolution

/-!
# Files that declare nothing

A file without type declarations and without components can be imported, can be what the resolution
of a module arrives at, and takes its turn in the pipeline like any other. Still nothing in it is
ever looked at from another file.

1. Two programs that differ in the text of such a file have, place by place, files that declare the
   same types (`Program.DifferAt.matched`). So every search over the files, and every module, ends
   at declarations that are the same (`Matched.declared?_eq`, `module?_bind_declared?`).
2. A type is resolved to a declaration, and the file declares none, so following types never leads
   into it (`exists_declared?_of_resolve?`). Outside of it the programs resolve types alike.
3. The components are the same too, so the programs are alike around every other file.
-/

namespace TemplateCheck

open OrderedMap TypeText

/-- The programs have the same settings and the same paths in the same order, and at most the text
of the file at one path differs. -/
structure Program.DifferAt (path : Text) (program program' : Program) : Prop where
  wellFormed : program.WellFormed
  wellFormed' : program'.WellFormed
  config_eq : program.config = program'.config
  texts : List.Forall₂
    (fun file file' : SourceFile => file.path = file'.path ∧
      (file.path ≠ path → file.text = file'.text))
    program.sourceFiles program'.sourceFiles

/-- The file at a path declares no types and no components. -/
def Program.DeclaresNothingAt (path : Text) (program : Program) : Prop :=
  ∀ file ∈ program.sourceFiles, file.path = path →
    file.typeDeclarations = [] ∧ componentsIn program file = []

instance (path : Text) (program : Program) : Decidable (program.DeclaresNothingAt path) :=
  inferInstanceAs (Decidable (∀ file ∈ program.sourceFiles, file.path = path →
    file.typeDeclarations = [] ∧ componentsIn program file = []))

/-- Files with distinct normal paths, read with one of two texts in the place of one of them. -/
theorem Program.differAt_ofFiles (config : Config) (before after : List (Text × Text))
    (path text text' : Text)
    (h : ((before ++ (path, text) :: after).map fun file => Path.normalize file.1).Nodup) :
    (ofFiles config (before ++ (path, text) :: after)).DifferAt (Path.normalize path)
      (ofFiles config (before ++ (path, text') :: after)) where
  wellFormed := wellFormed_ofFiles config _
  wellFormed' := wellFormed_ofFiles config _
  config_eq := by rw [config_ofFiles, config_ofFiles]
  texts := by
    have h' : ((before ++ (path, text') :: after).map fun file => Path.normalize file.1).Nodup := by
      rwa [List.map_append, List.map_cons] at h ⊢
    have hSame : ∀ files : List SourceFile, List.Forall₂
        (fun file file' : SourceFile =>
          file.path = file'.path ∧ (file.path ≠ Path.normalize path → file.text = file'.text))
        files files := fun files => List.forall₂_same.mpr fun _ _ => ⟨rfl, fun _ => rfl⟩
    unfold sourceFiles values
    rw [files_ofFiles config h, files_ofFiles config h']
    simp only [List.map_append, List.map_cons]
    exact List.rel_append (hSame _) (.cons ⟨rfl, fun hPath => absurd rfl hPath⟩ (hSame _))

/-! ## Matched files -/

/-- Two files at one path: the same file, or, at the path left out, two that declare no types. -/
structure SourceFile.Matched (path : Text) (file file' : SourceFile) : Prop where
  path_eq : file.path = file'.path
  eq_of_ne : file.path ≠ path → file = file'
  types_eq : file.typeDeclarations = file'.typeDeclarations

namespace SourceFile.Matched

variable {path : Text}

theorem declared?_eq {file file' : SourceFile} (h : file.Matched path file') :
    declared? file = declared? file' := by
  funext name
  unfold declared?
  rw [h.types_eq, h.path_eq]

theorem findSome?_declared?_eq {files files' : List SourceFile}
    (h : List.Forall₂ (Matched path) files files') (name : Text) :
    files.findSome? (declared? · name) = files'.findSome? (declared? · name) := by
  induction h with
  | nil => rfl
  | cons hFile _ ih => rw [List.findSome?_cons, List.findSome?_cons, hFile.declared?_eq, ih]

/-- What is found under a path in matched lists is matched. -/
theorem find?_rel {files files' : List SourceFile} (h : List.Forall₂ (Matched path) files files')
    (key : Text) :
    Option.Rel (Matched path) (files.find? (·.path = key)) (files'.find? (·.path = key)) := by
  induction h with
  | nil => exact .none
  | @cons file file' files files' hFile _ ih =>
    rw [List.find?_cons, List.find?_cons, ← hFile.path_eq]
    by_cases hKey : file.path = key
    · rw [decide_eq_true hKey]
      exact .some hFile
    · rw [decide_eq_false hKey]
      exact ih

end SourceFile.Matched

theorem find?_path_eq {files : OrderedMap Text SourceFile}
    (h : ∀ entry ∈ files, entry.2.path = entry.1) (key : Text) :
    get? files key = (values files).find? (·.path = key) := by
  induction files with
  | nil => rfl
  | cons entry files ih =>
    obtain ⟨hEntry, hLater⟩ := List.forall_mem_cons.mp h
    rw [get?_cons, ih hLater]
    unfold values
    rw [List.map_cons, List.find?_cons, hEntry]
    by_cases hKey : entry.1 = key
    · rw [if_pos hKey, decide_eq_true hKey]
    · rw [if_neg hKey, decide_eq_false hKey]

/-- Related lists whose related elements give the same parts. -/
theorem flatMap_eq_of_forall₂ {α β γ : Type} {r : α → β → Prop} {l : List α} {l' : List β}
    {f : α → List γ} {g : β → List γ} (h : List.Forall₂ r l l')
    (hSame : ∀ a ∈ l, ∀ b ∈ l', r a b → f a = g b) : l.flatMap f = l'.flatMap g := by
  induction h with
  | nil => rfl
  | cons hPair _ ih =>
    rw [List.flatMap_cons, List.flatMap_cons, hSame _ List.mem_cons_self _ List.mem_cons_self hPair,
      ih fun a ha b hb => hSame a (List.mem_cons_of_mem _ ha) b (List.mem_cons_of_mem _ hb)]

namespace Program.DifferAt

variable {path : Text} {program program' : Program} (h : program.DifferAt path program')
  (hNothing : program.DeclaresNothingAt path) (hNothing' : program'.DeclaresNothingAt path)

include h hNothing hNothing'

theorem matched :
    List.Forall₂ (SourceFile.Matched path) program.sourceFiles program'.sourceFiles := by
  refine List.forall₂_iff_get.mpr ⟨h.texts.length_eq, fun i hi hi' => ?_⟩
  have hTexts := h.texts.get hi hi'
  generalize hFile : program.sourceFiles.get ⟨i, hi⟩ = file at hTexts ⊢
  generalize hFile' : program'.sourceFiles.get ⟨i, hi'⟩ = file' at hTexts ⊢
  have hMem : file ∈ program.sourceFiles := hFile ▸ List.get_mem _ _
  have hMem' : file' ∈ program'.sourceFiles := hFile' ▸ List.get_mem _ _
  have hEq : file.path ≠ path → file = file' := by
    intro hPath
    rw [h.wellFormed.read_path hMem, h.wellFormed'.read_path hMem', h.config_eq, hTexts.1,
      hTexts.2 hPath]
  refine ⟨hTexts.1, hEq, ?_⟩
  by_cases hPath : file.path = path
  · rw [(hNothing file hMem hPath).1, (hNothing' file' hMem' (hTexts.1 ▸ hPath)).1]
  · rw [hEq hPath]

theorem get?_rel (key : Text) :
    Option.Rel (SourceFile.Matched path) (get? program.files key) (get? program'.files key) := by
  rw [find?_path_eq (fun _ hEntry => h.wellFormed.path_eq hEntry),
    find?_path_eq (fun _ hEntry => h.wellFormed'.path_eq hEntry)]
  exact SourceFile.Matched.find?_rel (h.matched hNothing hNothing') key

/-- A module may be the file that differs. It declares no types then. -/
theorem module?_bind_declared? (importer specifier name : Text) :
    ((program.module? importer specifier).bind fun target => declared? target name) =
      (program'.module? importer specifier).bind fun target => declared? target name := by
  unfold Program.module?
  split_ifs with hRelative
  · generalize Program.moduleCandidates importer specifier = candidates
    induction candidates with
    | nil => rfl
    | cons candidate candidates ih =>
      have hRel := h.get?_rel hNothing hNothing' candidate
      rw [List.findSome?_cons, List.findSome?_cons]
      generalize get? program.files candidate = found at hRel ⊢
      generalize get? program'.files candidate = found' at hRel ⊢
      cases hRel with
      | none => exact ih
      | some hFile => exact congrFun hFile.declared?_eq name
  · rfl

theorem file?_eq {other : Text} (hOther : Path.normalize other ≠ path) :
    program.file? other = program'.file? other := by
  have hRel := h.get?_rel hNothing hNothing' (Path.normalize other)
  unfold Program.file?
  cases hFile : get? program.files (Path.normalize other) with
  | none =>
    rw [hFile] at hRel
    generalize get? program'.files (Path.normalize other) = found at hRel ⊢
    cases hRel
    rfl
  | some file =>
    have hPath : file.path = Path.normalize other := (h.wellFormed.of_file?_eq_some hFile).2
    rw [hFile] at hRel
    generalize get? program'.files (Path.normalize other) = found at hRel ⊢
    cases hRel with
    | some hMatched => rw [hMatched.eq_of_ne (hPath ▸ hOther)]

/-- The programs resolve the types of all other files alike, and never to the file that differs. -/
theorem agreeOn :
    program.AgreeOn (fun file => ∀ other ∈ file, Path.normalize other ≠ path) program' where
  resolve?_eq := by
    intro text file hFile
    have hOwn : (file.bind fun other => if other = [] then none else program.file? other) =
        file.bind fun other => if other = [] then none else program'.file? other := by
      cases file with
      | none => rfl
      | some other =>
        rw [Option.bind_some, Option.bind_some, h.file?_eq hNothing hNothing' (hFile other rfl)]
    have hImported : imported? program = imported? program' := by
      funext importer dotted
      unfold imported?
      refine congrArg (Option.bind _) (funext fun binding => ?_)
      exact h.module?_bind_declared? hNothing hNothing' _ _ _
    unfold resolve?
    dsimp only
    rw [hOwn, hImported]
    simp only [SourceFile.Matched.findSome?_declared?_eq (h.matched hNothing hNothing')]
  inside_of_resolve? := by
    intro text file target _ hTarget other hOther
    obtain ⟨declaring, hMem, name, hDeclared⟩ := exists_declared?_of_resolve? hTarget
    obtain ⟨spelled, hSpelled, rfl⟩ := Option.map_eq_some_iff.mp hDeclared
    obtain rfl := Option.some.inj hOther
    rw [h.wellFormed.normal _ (h.wellFormed.mem_sourceFiles_iff.mp hMem)]
    intro hPath
    rw [(hNothing declaring hMem hPath).1] at hSpelled
    cases hSpelled

/-! ## Components -/

theorem flatMap_componentsIn_eq :
    program.sourceFiles.flatMap (componentsIn program) =
      program'.sourceFiles.flatMap (componentsIn program') := by
  refine flatMap_eq_of_forall₂ (h.matched hNothing hNothing')
    fun file hFile file' hFile' hPair => ?_
  by_cases hPath : file.path = path
  · rw [(hNothing file hFile hPath).2, (hNothing' file' hFile' (hPair.path_eq ▸ hPath)).2]
  · obtain rfl := hPair.eq_of_ne hPath
    refine componentsIn_eq (h.agreeOn hNothing hNothing') h.config_eq ?_
    rintro other ⟨⟩
    rwa [h.wellFormed.normal _ (h.wellFormed.mem_sourceFiles_iff.mp hFile)]

theorem componentsOf_eq_of_differAt : componentsOf program = componentsOf program' := by
  unfold componentsOf
  rw [h.flatMap_componentsIn_eq hNothing hNothing']

/-! ## Diagnostics -/

theorem alikeAround {file : SourceFile} (hFile : file ∈ program.sourceFiles)
    (hPath : file.path ≠ path) :
    program.AlikeAround (fun file => ∀ other ∈ file, Path.normalize other ≠ path)
      program' file where
  wellFormed := h.wellFormed
  wellFormed' := h.wellFormed'
  config_eq := h.config_eq
  agreeOn := h.agreeOn hNothing hNothing'
  mem := hFile
  mem' := by
    have hNormal := h.wellFormed.normal _ (h.wellFormed.mem_sourceFiles_iff.mp hFile)
    have hFound := h.wellFormed.file?_path hFile
    rw [h.file?_eq hNothing hNothing' (by rwa [hNormal])] at hFound
    exact (h.wellFormed'.of_file?_eq_some hFound).1
  inside_file := by
    rintro other ⟨⟩
    rwa [h.wellFormed.normal _ (h.wellFormed.mem_sourceFiles_iff.mp hFile)]
  inside_declaring := by
    rintro declaring hMem hComponents other ⟨⟩
    rw [h.wellFormed.normal _ (h.wellFormed.mem_sourceFiles_iff.mp hMem)]
    exact fun hPath => hComponents (hNothing declaring hMem hPath).2
  perm_names := by rw [h.componentsOf_eq_of_differAt hNothing hNothing']
  find?_eq name := by rw [h.componentsOf_eq_of_differAt hNothing hNothing']

end Program.DifferAt

/-- Programs that differ in the text of one file, which declares no types and no components in
either of them, have the same diagnostics for every other file, in the same order. -/
theorem checkProgram_isolated {path : Text} {program program' : Program}
    (h : program.DifferAt path program') (hNothing : program.DeclaresNothingAt path)
    (hNothing' : program'.DeclaresNothingAt path) (registry registry' : Registry) {other : Text}
    (hOther : other ≠ path) :
    (checkProgram program (registry.populate program)).diagnostics.filter
      (·.filePath = some other) =
      (checkProgram program' (registry'.populate program')).diagnostics.filter
        (·.filePath = some other) := by
  by_cases hFile : ∃ file ∈ program.sourceFiles, file.path = other
  · obtain ⟨file, hMem, rfl⟩ := hFile
    exact (h.alikeAround hNothing hNothing' hMem hOther).filter_checkProgram registry registry'
  · -- No file stands at the path, in either program, and no diagnostic carries it.
    rw [List.filter_eq_nil_iff.mpr, List.filter_eq_nil_iff.mpr]
    · intro d hd hIn
      obtain ⟨file', hMem', hCarries⟩ := exists_file_of_mem_checkProgram h.wellFormed' registry' hd
      rw [decide_eq_true_iff, hCarries, Option.some_inj] at hIn
      have hPaths : program.sourceFiles.map (·.path) = program'.sourceFiles.map (·.path) := by
        refine List.forall₂_eq_eq_eq ▸ ?_
        rw [List.forall₂_map_left_iff, List.forall₂_map_right_iff]
        exact h.texts.imp fun _ _ hPair => hPair.1
      have hListed : other ∈ program.sourceFiles.map (·.path) := by
        rw [hPaths, ← hIn]
        exact List.mem_map_of_mem hMem'
      obtain ⟨file, hMem, hPath⟩ := List.mem_map.mp hListed
      exact hFile ⟨file, hMem, hPath⟩
    · intro d hd hIn
      obtain ⟨file, hMem, hCarries⟩ := exists_file_of_mem_checkProgram h.wellFormed registry hd
      rw [decide_eq_true_iff, hCarries, Option.some_inj] at hIn
      exact hFile ⟨file, hMem, hIn⟩

/-- A module that is imported and holds a template of its own, emptied: the file that imports it
still binds a component wrongly. -/
theorem checkProgram_isolated_emptied :
    let card : Text × Text :=
      ("card.ts", "import {C} from '@neuralfog/elemix';" ++
        "export class UserCard extends C<{a: string}> {}")
    let view : Text × Text :=
      ("view.ts", "import {UserCard} from './card';import {T} from './util';" ++
        "const n: T = 1; html`<UserCard :a=${1} :b=${n}/>`")
    let program (text : Text) := Program.ofFiles {} [card, ("util.ts", text), view]
    let found (program : Program) :=
      (checkProgram program (Registry.empty.populate program)).diagnostics.filter
        (·.filePath = some "view.ts".toList)
    found (program "const T = 1; html`<Missing :a=${T}/>`") = found (program "") :=
  checkProgram_isolated (Program.differAt_ofFiles {} [_] [_] "util.ts" _ _ (by decide +kernel))
    (by decide +kernel) (by decide +kernel) Registry.empty Registry.empty (by decide +kernel)

end TemplateCheck
