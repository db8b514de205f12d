import TemplateCheck.Proofs.Check.Locality

/-!
# The order of the files

Order matters to a check where it takes the first of several: the first file that declares a type,
the first component with a name. When no type name is declared in two files and no component name
twice, there is nothing to choose from.

1. Programs with the same files in different orders find the same files and modules
   (`Rearranged.file?_eq`, `Rearranged.module?_eq`) and, with types declared once, resolve every
   type alike (`Rearranged.resolve?_eq`).
2. Then they extract the same components up to order (`Rearranged.perm_componentsOf`), and with
   components declared once they find the same ones by name.
3. So they are alike around every file, with all files inside (`Rearranged.alikeAround`).
-/

namespace TemplateCheck

open OrderedMap TypeText

/-- No type name is declared in two files. -/
def Program.TypesDeclaredOnce (program : Program) : Prop :=
  ∀ file ∈ program.sourceFiles, ∀ other ∈ program.sourceFiles,
    ∀ name ∈ keys file.typeDeclarations, name ∈ keys other.typeDeclarations → file = other

/-- No component name is declared twice. -/
def Program.ComponentsDeclaredOnce (program : Program) : Prop :=
  ((componentsOf program).map (·.name)).Nodup

instance (program : Program) : Decidable program.TypesDeclaredOnce :=
  inferInstanceAs (Decidable (∀ file ∈ program.sourceFiles, ∀ other ∈ program.sourceFiles,
    ∀ name ∈ keys file.typeDeclarations, name ∈ keys other.typeDeclarations → file = other))

theorem Program.componentsDeclaredOnce_iff (program : Program) : program.ComponentsDeclaredOnce ↔
    ((program.sourceFiles.flatMap (componentsIn program)).map (·.name)).Nodup := by
  unfold ComponentsDeclaredOnce
  rw [map_name_componentsOf]

instance (program : Program) : Decidable program.ComponentsDeclaredOnce :=
  decidable_of_iff _ program.componentsDeclaredOnce_iff.symm

/-! ## Lists up to order -/

theorem findSome?_eq_of_perm {α β : Type} {l l' : List α} (h : l.Perm l') {f : α → Option β}
    (hOnce : ∀ a ∈ l, ∀ a' ∈ l, (f a).isSome → (f a').isSome → a = a') :
    l.findSome? f = l'.findSome? f := by
  cases hFound : l.findSome? f with
  | none =>
    rw [List.findSome?_eq_none_iff] at hFound
    refine (List.findSome?_eq_none_iff.mpr fun a ha => ?_).symm
    exact hFound a (h.mem_iff.mpr ha)
  | some b =>
    obtain ⟨a, ha, hValue⟩ := List.exists_of_findSome?_eq_some hFound
    have hSome : (f a).isSome := by rw [hValue]; rfl
    obtain ⟨b', hFound'⟩ := Option.isSome_iff_exists.mp
      (List.findSome?_isSome_iff.mpr ⟨a, h.mem_iff.mp ha, hSome⟩)
    obtain ⟨a', ha', hValue'⟩ := List.exists_of_findSome?_eq_some hFound'
    obtain rfl := hOnce a ha a' (h.mem_iff.mpr ha') hSome (by rw [hValue']; rfl)
    rw [hFound', ← hValue, hValue']

/-- Lists that agree on every class of elements are the same up to order. -/
theorem perm_of_filter_eq {α β : Type} [DecidableEq α] [DecidableEq β] {l l' : List α} (key : α → β)
    (h : ∀ b, l.filter (fun a => key a = b) = l'.filter fun a => key a = b) : l.Perm l' := by
  refine List.perm_iff_count.mpr fun a => ?_
  have hCount := congrArg (List.count a) (h (key a))
  rwa [List.count_filter (by simp), List.count_filter (by simp)] at hCount

/-! ## Programs with the same files -/

/-- The programs have the same settings and the same files, in whatever order. -/
structure Program.Rearranged (program program' : Program) : Prop where
  wellFormed : program.WellFormed
  wellFormed' : program'.WellFormed
  config_eq : program.config = program'.config
  perm : program.files.Perm program'.files

theorem Program.rearranged_ofFiles (config : Config) {files files' : List (Text × Text)}
    (h : files.Perm files') (hPaths : (files.map fun file => Path.normalize file.1).Nodup) :
    (ofFiles config files).Rearranged (ofFiles config files') where
  wellFormed := wellFormed_ofFiles config files
  wellFormed' := wellFormed_ofFiles config files'
  config_eq := by rw [config_ofFiles, config_ofFiles]
  perm := by
    rw [files_ofFiles config hPaths, files_ofFiles config ((h.map _).nodup_iff.mp hPaths)]
    exact h.map _

namespace Program.Rearranged

variable {program program' : Program}

theorem perm_sourceFiles (h : program.Rearranged program') :
    program.sourceFiles.Perm program'.sourceFiles :=
  h.perm.map _

theorem get?_eq (h : program.Rearranged program') : get? program.files = get? program'.files := by
  funext path
  exact get?_eq_of_perm h.perm h.wellFormed.nodup_keys path

theorem file?_eq (h : program.Rearranged program') : program.file? = program'.file? := by
  funext path
  unfold file?
  rw [h.get?_eq]

theorem module?_eq (h : program.Rearranged program') : program.module? = program'.module? := by
  funext importer specifier
  unfold module?
  rw [h.get?_eq]

/-- The fallback over all files finds the one file that declares the name. -/
theorem findSome?_declared?_eq (h : program.Rearranged program')
    (hTypes : program.TypesDeclaredOnce) (name : Text) :
    program.sourceFiles.findSome? (declared? · name) =
      program'.sourceFiles.findSome? (declared? · name) := by
  refine findSome?_eq_of_perm h.perm_sourceFiles fun file hFile other hOther hName hName' => ?_
  unfold declared? at hName hName'
  rw [Option.isSome_map, ← mem_keys_iff] at hName hName'
  exact hTypes file hFile other hOther name hName hName'

theorem resolve?_eq (h : program.Rearranged program') (hTypes : program.TypesDeclaredOnce) :
    resolve? program = resolve? program' := by
  have hImported : imported? program = imported? program' := by
    unfold imported?
    rw [h.module?_eq]
  funext type
  unfold resolve?
  rw [h.file?_eq, hImported]
  simp only [h.findSome?_declared?_eq hTypes]

theorem agreeOn (h : program.Rearranged program') (hTypes : program.TypesDeclaredOnce) :
    program.AgreeOn (fun _ => True) program' where
  resolve?_eq _ := by rw [h.resolve?_eq hTypes]
  inside_of_resolve? _ _ := trivial

/-! ## Components -/

theorem perm_flatMap_componentsIn (h : program.Rearranged program')
    (hTypes : program.TypesDeclaredOnce) :
    (program.sourceFiles.flatMap (componentsIn program)).Perm
      (program'.sourceFiles.flatMap (componentsIn program')) := by
  have hComponents : componentsIn program = componentsIn program' := by
    funext file
    exact componentsIn_eq (h.agreeOn hTypes) h.config_eq trivial
  rw [hComponents]
  exact h.perm_sourceFiles.flatMap_right _

theorem perm_componentsOf (h : program.Rearranged program') (hTypes : program.TypesDeclaredOnce) :
    (componentsOf program).Perm (componentsOf program') := by
  have hPerm := h.perm_flatMap_componentsIn hTypes
  rw [componentsOf_eq, componentsOf_eq, Component.mark_congr (hPerm.map _)]
  exact hPerm.map _

theorem find?_componentsOf_eq (h : program.Rearranged program') (hTypes : program.TypesDeclaredOnce)
    (hComponents : program.ComponentsDeclaredOnce) (name : Text) :
    (componentsOf program).find? (·.name = name) =
      (componentsOf program').find? (·.name = name) := by
  rw [List.find?_eq_findSome?_guard, List.find?_eq_findSome?_guard]
  refine findSome?_eq_of_perm (h.perm_componentsOf hTypes) fun a ha b hb hName hName' => ?_
  rw [Option.isSome_guard, decide_eq_true_iff] at hName hName'
  exact List.inj_on_of_nodup_map hComponents ha hb (hName.trans hName'.symm)

theorem alikeAround (h : program.Rearranged program') (hTypes : program.TypesDeclaredOnce)
    (hComponents : program.ComponentsDeclaredOnce) {file : SourceFile}
    (hFile : file ∈ program.sourceFiles) :
    program.AlikeAround (fun _ => True) program' file where
  wellFormed := h.wellFormed
  wellFormed' := h.wellFormed'
  config_eq := h.config_eq
  agreeOn := h.agreeOn hTypes
  mem := hFile
  mem' := h.perm_sourceFiles.mem_iff.mp hFile
  inside_file := trivial
  inside_declaring _ _ _ := trivial
  perm_names := (h.perm_componentsOf hTypes).map _
  find?_eq := h.find?_componentsOf_eq hTypes hComponents

/-! ## Diagnostics -/

/-- The diagnostics that carry a path, or none, are the same. Outside the paths of the files there
are none. -/
theorem filter_filePath_eq (h : program.Rearranged program') (hTypes : program.TypesDeclaredOnce)
    (hComponents : program.ComponentsDeclaredOnce) (registry registry' : Registry)
    (path : Option Text) :
    (checkProgram program (registry.populate program)).diagnostics.filter (·.filePath = path) =
      (checkProgram program' (registry'.populate program')).diagnostics.filter
        (·.filePath = path) := by
  by_cases hPath : ∃ file ∈ program.sourceFiles, path = some file.path
  · obtain ⟨file, hFile, rfl⟩ := hPath
    exact (h.alikeAround hTypes hComponents hFile).filter_checkProgram registry registry'
  · rw [List.filter_eq_nil_iff.mpr, List.filter_eq_nil_iff.mpr]
    · intro d hd hIn
      obtain ⟨file, hFile, hCarries⟩ := exists_file_of_mem_checkProgram h.wellFormed' registry' hd
      rw [decide_eq_true_iff] at hIn
      exact hPath ⟨file, h.perm_sourceFiles.mem_iff.mpr hFile, hIn.symm.trans hCarries⟩
    · intro d hd hIn
      obtain ⟨file, hFile, hCarries⟩ := exists_file_of_mem_checkProgram h.wellFormed registry hd
      rw [decide_eq_true_iff] at hIn
      exact hPath ⟨file, hFile, hIn.symm.trans hCarries⟩

end Program.Rearranged

/-- Files with distinct normal paths, in which no type name is declared in two files and no
component name twice, may be added to a program in any order: the diagnostics of every file are the
same, in the same order, and so the results are the same up to order. -/
theorem checkProgram_perm (config : Config) {files files' : List (Text × Text)}
    (hPerm : files.Perm files') (hPaths : (files.map fun file => Path.normalize file.1).Nodup)
    (hTypes : (Program.ofFiles config files).TypesDeclaredOnce)
    (hComponents : (Program.ofFiles config files).ComponentsDeclaredOnce)
    (registry registry' : Registry) :
    let program := Program.ofFiles config files
    let program' := Program.ofFiles config files'
    let found := (checkProgram program (registry.populate program)).diagnostics
    let found' := (checkProgram program' (registry'.populate program')).diagnostics
    (∀ path, (found.filter fun d => d.filePath = some path) =
      found'.filter fun d => d.filePath = some path) ∧ found.Perm found' := by
  intro program program' found found'
  have hFilter := (Program.rearranged_ofFiles config hPerm hPaths).filter_filePath_eq
    hTypes hComponents
    registry registry'
  exact ⟨fun path => hFilter (some path), perm_of_filter_eq (·.filePath) hFilter⟩

/-- A component with a contract from another file and a file that binds it wrongly, added in two
orders. -/
theorem checkProgram_perm_reversed :
    let files : List (Text × Text) :=
      [("types.ts", "export type P = {a: string}"),
        ("card.ts", "import {C} from '@neuralfog/elemix';import {P} from './types';" ++
          "class UserCard extends C<P> {}"),
        ("view.ts", "html`<UserCard :a=${1}/>`")]
    let found (files : List (Text × Text)) :=
      (checkProgram (.ofFiles {} files) (Registry.empty.populate (.ofFiles {} files))).diagnostics
    (∀ path, ((found files).filter fun d => d.filePath = some path) =
      (found files.reverse).filter fun d => d.filePath = some path) ∧
    (found files).Perm (found files.reverse) :=
  checkProgram_perm {} (List.reverse_perm _).symm (by decide +kernel) (by decide +kernel)
    (by decide +kernel) Registry.empty Registry.empty

end TemplateCheck
