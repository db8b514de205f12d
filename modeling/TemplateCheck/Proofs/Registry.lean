import TemplateCheck.Proofs.Program
import TemplateCheck.Registry

/-!
# What the registry holds

The registry keeps the components that each file published, with marks for duplicated names that are
recomputed at every change. Apart from the marks it is the map of what was published.

1. Marking looks at the names only and forgets earlier marks (`marked_unmarked`), so publishing into
   a marked map is the same as marking what was published (`marked_record`).
2. A registry that is filled from a program holds the scans of its files and the components of those
   that have any, in order (`scans_populate`, `declarations_populate`).
-/

namespace TemplateCheck

/-- The component without its mark. -/
def Component.unmarked (component : Component) : Component :=
  { component with isDuplicated := false }

/-- Marking looks at the names only. -/
theorem Component.mark_congr {all all' : List Component}
    (h : (all.map (·.name)).Perm (all'.map (·.name))) :
    Component.mark all = Component.mark all' := by
  funext component
  have hCount := h.countP_eq fun name => decide (name = component.name)
  rw [List.countP_map, List.countP_map] at hCount
  unfold Component.mark
  simp only [Function.comp_def] at hCount
  rw [hCount]

theorem componentsOf_eq (program : Program) :
    componentsOf program = (program.sourceFiles.flatMap (componentsIn program)).map
      (Component.mark (program.sourceFiles.flatMap (componentsIn program))) := by
  unfold componentsOf
  rw [markDuplicated_eq]

namespace Registry

open OrderedMap

/-- The components published by each file, in order of publication. -/
abbrev Publications := OrderedMap Text (List Component)

/-- The published components with duplicated names marked. -/
def marked (m : Publications) : Publications :=
  mapValues (fun _ components => components.map (Component.mark (values m).flatten)) m

/-- The published components without marks. -/
def unmarked (m : Publications) : Publications :=
  mapValues (fun _ components => components.map Component.unmarked) m

/-- Publishes the components of a file; a file without components is not kept. -/
def record (m : Publications) (path : Text) (components : List Component) : Publications :=
  if components = [] then remove m path else put m path components

/-! ## Marks -/

theorem unmarked_marked (m : Publications) : unmarked (marked m) = unmarked m := by
  rw [unmarked, marked, mapValues_mapValues]
  simp only [List.map_map]
  rfl

theorem flatten_values_unmarked (m : Publications) :
    (values (unmarked m)).flatten = (values m).flatten.map Component.unmarked :=
  flatten_values_mapValues Component.unmarked m

theorem marked_unmarked (m : Publications) : marked (unmarked m) = marked m := by
  have hMark : Component.mark (values (unmarked m)).flatten =
      Component.mark (values m).flatten := by
    refine Component.mark_congr ?_
    rw [flatten_values_unmarked, List.map_map]
    exact .refl _
  rw [marked, hMark, unmarked, mapValues_mapValues]
  simp only [List.map_map]
  rfl

/-- Maps that differ in marks only are marked alike. -/
theorem marked_congr {m m' : Publications} (h : unmarked m = unmarked m') :
    marked m = marked m' := by
  rw [← marked_unmarked m, h, marked_unmarked]

theorem unmarked_record (m : Publications) (path : Text) (components : List Component) :
    unmarked (record m path components) =
      record (unmarked m) path (components.map Component.unmarked) := by
  by_cases h : components = []
  · subst h
    exact (remove_mapValues _ m path).symm
  · unfold record
    rw [if_neg h, if_neg (by simpa using h)]
    exact (put_mapValues (fun _ cs => cs.map Component.unmarked) m path components).symm

theorem marked_record (m : Publications) (path : Text) (components : List Component) :
    marked (record (marked m) path components) = marked (record m path components) :=
  marked_congr (by rw [unmarked_record, unmarked_marked, ← unmarked_record])

theorem marked_remove (m : Publications) (path : Text) :
    marked (remove (marked m) path) = marked (remove m path) :=
  marked_record m path []

/-- The marks stay right when a path without components is forgotten. -/
theorem remove_marked {m : Publications} (h : (keys m).Nodup) {path : Text}
    (hEmpty : (get? m path).getD [] = []) : remove (marked m) path = marked (remove m path) := by
  unfold marked
  rw [flatten_values_remove h hEmpty]
  exact remove_mapValues _ m path

variable {registry : Registry} {m : Publications}

/-! ## Looking up -/

theorem componentsIn_eq (h : registry.declarations = marked m) (path : Text) :
    registry.componentsIn path =
      ((get? m path).getD []).map (Component.mark (values m).flatten) := by
  unfold componentsIn marked at *
  rw [h, get?_mapValues]
  cases get? m path <;> rfl

theorem components_eq (h : registry.declarations = marked m) :
    registry.components = (values m).flatten.map (Component.mark (values m).flatten) := by
  rw [components, h]
  exact flatten_values_mapValues _ m

theorem find?_eq (h : registry.declarations = marked m) (name : Text) :
    registry.find? name =
      ((values m).flatten.find? (·.name = name)).map (Component.mark (values m).flatten) := by
  unfold find?
  rw [components_eq h, List.find?_map]
  rfl

/-! ## Changes -/

theorem declarations_remark (registry : Registry) :
    registry.remark.declarations = marked registry.declarations := by
  rw [remark_eq]
  rfl

theorem declarations_publish (h : registry.declarations = marked m) (path : Text)
    (components : List Component) :
    (registry.publish path components).declarations = marked (record m path components) := by
  unfold publish changed
  rw [declarations_remark, h]
  exact marked_record m path components

theorem declarations_addFile (h : registry.declarations = marked m) (program : Program)
    (file : SourceFile) :
    (registry.addFile program file).declarations =
      marked (record m file.path (TemplateCheck.componentsIn program file)) :=
  declarations_publish h file.path _

theorem scans_addFile (registry : Registry) (program : Program) (file : SourceFile) :
    (registry.addFile program file).scans =
      put registry.scans file.path (FileScan.ofFile file) := rfl

theorem declarations_removeFile (h : registry.declarations = marked m) (hKeys : (keys m).Nodup)
    (path : Text) : (registry.removeFile path).declarations = marked (remove m path) := by
  unfold removeFile changed
  dsimp only
  split_ifs with hEmpty
  · rw [componentsIn_eq h, List.map_eq_nil_iff] at hEmpty
    rw [h]
    exact remove_marked hKeys hEmpty
  · rw [declarations_remark]
    dsimp only
    rw [h]
    exact marked_remove m path

theorem scans_removeFile (registry : Registry) (path : Text) :
    (registry.removeFile path).scans = remove registry.scans path := by
  unfold removeFile
  dsimp only
  split_ifs
  · rfl
  · rfl

/-! ## Filling -/

/-- The scans of the files of a program. -/
def scansOf (program : Program) : OrderedMap Text FileScan :=
  mapValues (fun _ file => FileScan.ofFile file) program.files

/-- The components of the files of a program that have any. -/
def publicationsOf (program : Program) : Publications :=
  (mapValues (fun _ file => TemplateCheck.componentsIn program file) program.files).filter
    fun entry => entry.2 ≠ []

theorem flatten_values_publicationsOf (program : Program) :
    (values (publicationsOf program)).flatten =
      program.sourceFiles.flatMap (TemplateCheck.componentsIn program) := by
  unfold publicationsOf Program.sourceFiles values mapValues
  induction program.files with
  | nil => rfl
  | cons entry files ih =>
    rw [List.map_cons, List.map_cons, List.flatMap_cons, ← ih]
    by_cases hEmpty : TemplateCheck.componentsIn program entry.2 = []
    · rw [List.filter_cons_of_neg (by simpa using hEmpty), hEmpty]
      rfl
    · rw [List.filter_cons_of_pos (by simpa using hEmpty)]
      rfl

/-- Files are published one after the other, those without components left out. -/
theorem foldl_record_eq_append {m entries : Publications} (h : (keys (m ++ entries)).Nodup) :
    entries.foldl (fun m entry => record m entry.1 entry.2) m =
      m ++ entries.filter fun entry => entry.2 ≠ [] := by
  induction entries generalizing m with
  | nil => simp
  | cons entry entries ih =>
    have hNew := key_not_mem h
    rw [List.foldl_cons]
    by_cases hEmpty : entry.2 = []
    · have hRecord : record m entry.1 entry.2 = m := by
        unfold record
        rw [if_pos hEmpty, remove_eq_self hNew]
      rw [hRecord, List.filter_cons_of_neg (by simpa using hEmpty)]
      exact ih (h.sublist ((List.sublist_cons_self _ _).append_left m |>.map _))
    · have hRecord : record m entry.1 entry.2 = m ++ [entry] := by
        unfold record
        rw [if_neg hEmpty, put_eq_append hNew]
      rw [hRecord, List.filter_cons_of_pos (by simpa using hEmpty), ih, List.append_assoc]
      · rfl
      · rwa [List.append_assoc]

theorem declarations_foldl_addFile (program : Program) (files : List SourceFile)
    {registry : Registry} {m : Publications} (h : registry.declarations = marked m) :
    (files.foldl (addFile program) registry).declarations =
      marked ((files.map fun file => (file.path, TemplateCheck.componentsIn program file)).foldl
        (fun m entry => record m entry.1 entry.2) m) := by
  induction files generalizing registry m with
  | nil => exact h
  | cons file files ih => exact ih (declarations_addFile h program file)

theorem scans_foldl_addFile (program : Program) (files : List SourceFile) (registry : Registry) :
    (files.foldl (addFile program) registry).scans =
      (files.map fun file => (file.path, FileScan.ofFile file)).foldl
        (fun scans entry => put scans entry.1 entry.2) registry.scans := by
  induction files generalizing registry with
  | nil => rfl
  | cons file files ih => exact ih (registry.addFile program file)

/-- A filled registry holds the components of the files, duplicated names marked. -/
theorem declarations_populate {program : Program} (h : program.WellFormed) (registry : Registry) :
    (registry.populate program).declarations = marked (publicationsOf program) := by
  unfold populate
  rw [declarations_foldl_addFile program _ (show registry.reset.declarations = marked [] from rfl),
    h.map_sourceFiles, foldl_record_eq_append]
  · rfl
  · rw [List.nil_append, keys_mapValues]
    exact h.nodup_keys

theorem scans_populate {program : Program} (h : program.WellFormed) (registry : Registry) :
    (registry.populate program).scans = scansOf program := by
  unfold populate
  rw [scans_foldl_addFile, h.map_sourceFiles, foldl_put_eq_append]
  · rfl
  · rw [show registry.reset.scans = [] from rfl, List.nil_append, keys_mapValues]
    exact h.nodup_keys

section Program

variable {program : Program} {file : SourceFile}

theorem getD_get?_publicationsOf (h : program.WellFormed) (hFile : file ∈ program.sourceFiles) :
    (get? (publicationsOf program) file.path).getD [] =
      TemplateCheck.componentsIn program file := by
  have hEntry := (get?_eq_some_iff h.nodup_keys).mpr (h.mem_sourceFiles_iff.mp hFile)
  unfold publicationsOf
  rw [getD_get?_filter_ne_nil, get?_mapValues, hEntry]
  · rfl
  · rw [keys_mapValues]
    exact h.nodup_keys

theorem scan?_eq (hScans : registry.scans = scansOf program) (h : program.WellFormed)
    (hFile : file ∈ program.sourceFiles) :
    registry.scan? file.path = some (FileScan.ofFile file) := by
  have hEntry := (get?_eq_some_iff h.nodup_keys).mpr (h.mem_sourceFiles_iff.mp hFile)
  unfold scan? scansOf at *
  rw [hScans, get?_mapValues, hEntry]
  rfl

theorem files_eq (hScans : registry.scans = scansOf program) (h : program.WellFormed) :
    registry.files = program.sourceFiles.map (·.path) := by
  unfold files
  rw [hScans, scansOf, keys_mapValues, h.keys_eq]

end Program

end Registry

end TemplateCheck
