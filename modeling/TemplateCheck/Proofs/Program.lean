import TemplateCheck.Program
import TemplateCheck.Proofs.OrderedMap
import TemplateCheck.Proofs.Path

/-!
# Well-formed programs

The files of a program stand under distinct normal paths, each as it was read from its text
(`Program.WellFormed`). Adding and removing files keep this, so a file is found under its path
(`WellFormed.file?_path`), and a program is determined by its settings and by the paths and texts of
its files (`WellFormed.ofFiles_entries`). Files that are added under distinct paths stand in the
order in which they were added (`files_ofFiles`).
-/

namespace TemplateCheck

namespace Program

/-- The files stand under distinct normal paths, as they were read. -/
structure WellFormed (program : Program) : Prop where
  nodup_keys : (OrderedMap.keys program.files).Nodup
  normal : ∀ entry ∈ program.files, Path.normalize entry.1 = entry.1
  read : ∀ entry ∈ program.files,
    entry.2 = SourceFile.read program.config.templateTag entry.1 entry.2.text

/-- The paths and texts of the files, in order. -/
def entries (program : Program) : List (Text × Text) :=
  program.sourceFiles.map fun file => (file.path, file.text)

variable {program : Program} {file : SourceFile}

/-! ## Programs are well-formed -/

theorem wellFormed_empty (config : Config) : (empty config).WellFormed where
  nodup_keys := List.nodup_nil
  normal := by simp [empty]
  read := by simp [empty]

theorem WellFormed.addFile (h : program.WellFormed) (path text : Text) :
    (program.addFile path text).WellFormed where
  nodup_keys := OrderedMap.nodup_keys_put h.nodup_keys _ _
  normal := by
    intro entry hEntry
    rcases (OrderedMap.mem_put_iff h.nodup_keys).mp hEntry with rfl | ⟨hOld, -⟩
    · exact Path.normalize_normalize path
    · exact h.normal entry hOld
  read := by
    intro entry hEntry
    rcases (OrderedMap.mem_put_iff h.nodup_keys).mp hEntry with rfl | ⟨hOld, -⟩
    · rfl
    · exact h.read entry hOld

theorem WellFormed.removeFile (h : program.WellFormed) (path : Text) :
    (program.removeFile path).WellFormed where
  nodup_keys := OrderedMap.nodup_keys_remove h.nodup_keys _
  normal entry hEntry := h.normal entry (OrderedMap.mem_remove_iff.mp hEntry).1
  read entry hEntry := h.read entry (OrderedMap.mem_remove_iff.mp hEntry).1

theorem wellFormed_ofFiles (config : Config) (files : List (Text × Text)) :
    (ofFiles config files).WellFormed :=
  List.foldlRecOn files _ (motive := WellFormed) (wellFormed_empty config)
    fun _ h file _ => h.addFile file.1 file.2

theorem config_ofFiles (config : Config) (files : List (Text × Text)) :
    (ofFiles config files).config = config :=
  List.foldlRecOn files _ (motive := fun program : Program => program.config = config) rfl
    fun _ h _ _ => h

/-! ## Finding files -/

theorem hasFile_eq_isSome_file? (program : Program) (path : Text) :
    program.hasFile path = (program.file? path).isSome := by
  unfold hasFile OrderedMap.hasKey file? OrderedMap.get?
  rw [Option.isSome_map, Bool.eq_iff_iff, List.any_eq_true, List.find?_isSome]

theorem WellFormed.path_eq (h : program.WellFormed) {entry : Text × SourceFile}
    (hEntry : entry ∈ program.files) : entry.2.path = entry.1 := by
  rw [h.read entry hEntry]
  rfl

/-- The files stand in the program under their own paths. -/
theorem WellFormed.mem_sourceFiles_iff (h : program.WellFormed) :
    file ∈ program.sourceFiles ↔ (file.path, file) ∈ program.files := by
  constructor
  · intro hFile
    obtain ⟨entry, hEntry, rfl⟩ := List.mem_map.mp hFile
    rwa [h.path_eq hEntry]
  · intro hFile
    exact List.mem_map.mpr ⟨_, hFile, rfl⟩

theorem WellFormed.file?_path (h : program.WellFormed) (hFile : file ∈ program.sourceFiles) :
    program.file? file.path = some file := by
  have hEntry := h.mem_sourceFiles_iff.mp hFile
  rw [file?, h.normal _ hEntry]
  exact (OrderedMap.get?_eq_some_iff h.nodup_keys).mpr hEntry

/-- What is found is a file of the program under the normal path. -/
theorem WellFormed.of_file?_eq_some (h : program.WellFormed) {path : Text}
    (hFile : program.file? path = some file) :
    file ∈ program.sourceFiles ∧ file.path = Path.normalize path := by
  have hEntry := (OrderedMap.get?_eq_some_iff h.nodup_keys).mp hFile
  exact ⟨List.mem_map.mpr ⟨_, hEntry, rfl⟩, h.path_eq hEntry⟩

theorem WellFormed.keys_eq (h : program.WellFormed) :
    OrderedMap.keys program.files = program.sourceFiles.map (·.path) := by
  unfold sourceFiles OrderedMap.keys OrderedMap.values
  rw [List.map_map]
  exact List.map_congr_left fun entry hEntry => (h.path_eq hEntry).symm

theorem WellFormed.nodup_paths (h : program.WellFormed) :
    (program.sourceFiles.map (·.path)).Nodup := by
  rw [← h.keys_eq]
  exact h.nodup_keys

theorem WellFormed.read_path (h : program.WellFormed) (hFile : file ∈ program.sourceFiles) :
    file = SourceFile.read program.config.templateTag file.path file.text :=
  h.read _ (h.mem_sourceFiles_iff.mp hFile)

theorem WellFormed.map_sourceFiles {α : Type} (h : program.WellFormed) (f : SourceFile → α) :
    (program.sourceFiles.map fun file => (file.path, f file)) =
      OrderedMap.mapValues (fun _ file => f file) program.files := by
  unfold sourceFiles OrderedMap.values OrderedMap.mapValues
  rw [List.map_map]
  refine List.map_congr_left fun entry hEntry => ?_
  rw [Function.comp_apply, h.path_eq hEntry]

/-! ## Rebuilding -/

/-- Adding the files of a well-formed program to one that has none of them appends them. -/
theorem foldl_addFile_eq (config : Config) (done later : OrderedMap Text SourceFile)
    (h : (⟨config, done ++ later⟩ : Program).WellFormed) :
    (later.map fun entry => (entry.2.path, entry.2.text)).foldl
      (fun (program : Program) file => program.addFile file.1 file.2) ⟨config, done⟩ =
        ⟨config, done ++ later⟩ := by
  induction later generalizing done with
  | nil => rw [List.append_nil]; rfl
  | cons entry later ih =>
    have hEntry : entry ∈ done ++ entry :: later := by simp
    have hAdd : (⟨config, done⟩ : Program).addFile entry.2.path entry.2.text =
        ⟨config, done ++ [entry]⟩ := by
      unfold Program.addFile
      rw [h.path_eq hEntry, h.normal entry hEntry]
      dsimp only
      rw [OrderedMap.put_eq_append (OrderedMap.key_not_mem h.nodup_keys), ← h.read entry hEntry]
    rw [List.map_cons, List.foldl_cons, hAdd, ih _ (by rwa [List.append_assoc]), List.append_assoc]
    rfl

/-- The same files, with the same texts, in the same order, make the same program. -/
theorem WellFormed.ofFiles_entries (h : program.WellFormed) :
    ofFiles program.config program.entries = program := by
  unfold ofFiles entries sourceFiles OrderedMap.values
  rw [List.map_map]
  exact foldl_addFile_eq program.config [] program.files h

/-! ## Files with distinct paths -/

theorem files_foldl_addFile (files : List (Text × Text)) (program : Program) :
    (files.foldl (fun program file => program.addFile file.1 file.2) program).files =
      (files.map fun file => (Path.normalize file.1,
        SourceFile.read program.config.templateTag (Path.normalize file.1) file.2)).foldl
          (fun m entry => OrderedMap.put m entry.1 entry.2) program.files := by
  induction files generalizing program with
  | nil => rfl
  | cons file files ih => exact ih (program.addFile file.1 file.2)

/-- Files with distinct normal paths stand in the program in the order in which they were added. -/
theorem files_ofFiles (config : Config) {files : List (Text × Text)}
    (h : (files.map fun file => Path.normalize file.1).Nodup) :
    (ofFiles config files).files = files.map fun file =>
      (Path.normalize file.1,
        SourceFile.read config.templateTag (Path.normalize file.1) file.2) := by
  unfold ofFiles
  rw [files_foldl_addFile]
  refine OrderedMap.foldl_put_eq_append (m := []) ?_
  unfold OrderedMap.keys
  rw [List.nil_append, List.map_map]
  exact h

end Program

end TemplateCheck
