import TemplateCheck.Proofs.Service.Edits

/-!
# The registry stays in step with the program

A session keeps two ordered stores: the program, under normal paths, and the registry, under the
paths that it is handed. After any edits, by whatever spellings of paths, both have the same files
in the same order, and the registry knows of each file what is read from its current text
(`Session.InStep`).

1. Edits of the session are edits of its program (`Holds.program_run`).
2. What the session holds of the components is current up to contracts, so each file has published
   its own components and no others are left (`Holds.map_identity_componentsIn`,
   `Holds.exists_file_of_mem_components`).
-/

namespace TemplateCheck

open OrderedMap

/-- What tells a component apart from others: its name and place, its slots, and whether its name
has several words. -/
def Component.identity (component : Component) : Text × Text × Int × List Text × Bool :=
  (component.name, component.filePath, component.start, component.slots, component.isMultiword)

/-- The registry of the session is in step with its program. -/
structure Session.InStep (session : Session) : Prop where
  files_eq : session.registry.files = session.program.sourceFiles.map (·.path)
  scan?_eq : ∀ file ∈ session.program.sourceFiles,
    session.registry.scan? file.path = some (FileScan.ofFile file)
  /-- Each file has published what is declared in it now. -/
  map_identity_eq : ∀ file ∈ session.program.sourceFiles,
    (session.registry.componentsIn file.path).map Component.identity =
      (componentsIn session.program file).map Component.identity
  /-- Every component was published by a file of the program and carries its path. -/
  exists_file : ∀ component ∈ session.registry.components, ∃ file ∈ session.program.sourceFiles,
    component ∈ session.registry.componentsIn file.path ∧ component.filePath = file.path

namespace Session

variable {session : Session} {m : Registry.Publications}

theorem Holds.program_run (h : session.Holds m) (edits : List Edit) :
    (session.run edits).program =
      edits.foldl (fun program edit => edit.applyTo program) session.program := by
  induction edits generalizing session m with
  | nil => rfl
  | cons edit edits ih =>
    obtain ⟨m', hHolds, hProgram, -⟩ := h.apply edit
    rw [List.foldl_cons, ← hProgram]
    exact ih hHolds

theorem map_identity_outline (components : List Component) :
    (components.map Component.outline).map Component.identity =
      components.map Component.identity := by
  rw [List.map_map]
  rfl

theorem Holds.map_identity_componentsIn (h : session.Holds m)
    (hOutline : Registry.Current Component.outline session.program m) {file : SourceFile}
    (hFile : file ∈ session.program.sourceFiles) :
    (session.registry.componentsIn file.path).map Component.identity =
      (componentsIn session.program file).map Component.identity := by
  have hFresh := (holds_start h.wellFormed).declarations_eq
  rw [← map_identity_outline, (h.sameOutline hOutline).outlines, map_identity_outline,
    Registry.componentsIn_eq hFresh, Registry.getD_get?_publicationsOf h.wellFormed hFile,
    List.map_map]
  rfl

theorem Holds.exists_file_of_mem_components (h : session.Holds m)
    (hOutline : Registry.Current Component.outline session.program m) {component : Component}
    (hComponent : component ∈ session.registry.components) :
    ∃ file ∈ session.program.sourceFiles,
      component ∈ session.registry.componentsIn file.path ∧ component.filePath = file.path := by
  rw [Registry.components_eq h.declarations_eq] at hComponent
  obtain ⟨plain, hPlain, rfl⟩ := List.mem_map.mp hComponent
  obtain ⟨components, hValue, hMem⟩ := List.mem_flatten.mp hPlain
  obtain ⟨⟨path, _⟩, hEntry, rfl⟩ := List.mem_map.mp hValue
  -- The path published something, and all that is published is current, so it is that of a file.
  obtain ⟨file, hFile, -⟩ :=
    ((Registry.current_iff h.wellFormed h.nodup_keys).mp hOutline path _).mp ⟨_, hEntry, rfl⟩
  have hPath : file.path = path := h.wellFormed.path_eq hFile
  have hSource : file ∈ session.program.sourceFiles := List.mem_map.mpr ⟨_, hFile, rfl⟩
  have hPublished : plain.mark (values m).flatten ∈ session.registry.componentsIn file.path := by
    rw [Registry.componentsIn_eq h.declarations_eq, hPath,
      (get?_eq_some_iff h.nodup_keys).mpr hEntry]
    exact List.mem_map_of_mem hMem
  refine ⟨file, hSource, hPublished, ?_⟩
  have hIdentity := List.mem_map_of_mem (f := Component.identity) hPublished
  rw [h.map_identity_componentsIn hOutline hSource] at hIdentity
  obtain ⟨current, hCurrent, hSame⟩ := List.mem_map.mp hIdentity
  obtain ⟨declaration, -, rfl⟩ := List.mem_map.mp hCurrent
  exact (congrArg (fun identity => identity.2.1) hSame).symm

theorem Holds.inStep (h : session.Holds m)
    (hOutline : Registry.Current Component.outline session.program m) : session.InStep where
  files_eq := Registry.files_eq h.scans_eq h.wellFormed
  scan?_eq _ hFile := Registry.scan?_eq h.scans_eq h.wellFormed hFile
  map_identity_eq _ hFile := h.map_identity_componentsIn hOutline hFile
  exists_file _ hComponent := h.exists_file_of_mem_components hOutline hComponent

theorem file?_eq_none_of_hasFile {program : Program} {path : Text}
    (h : program.hasFile path = false) : program.file? path = none := by
  rw [program.hasFile_eq_isSome_file?] at h
  exact Option.isNone_iff_eq_none.mp (Option.isSome_eq_false_iff.mp h)

/-- After any edits of a session over any program, the program has taken the same edits and the
registry is in step with it; and removing a file that is not there changes nothing. -/
theorem inStep_run (config : Config) (files : List (Text × Text)) (edits : List Edit) :
    let session := (start (Program.ofFiles config files)).run edits
    session.program =
        edits.foldl (fun program edit => edit.applyTo program) (Program.ofFiles config files) ∧
      session.InStep ∧
      ∀ path, session.program.hasFile path = false → session.removeFile path = session := by
  intro session
  have hStart := holds_start (Program.wellFormed_ofFiles config files)
  obtain ⟨m, hHolds, -, hOutline, -⟩ := hStart.run edits (.refl _)
  refine ⟨hStart.program_run edits, hHolds.inStep hOutline, ?_⟩
  intro path hPath
  exact (removeFile_of_none (file?_eq_none_of_hasFile hPath)).1

/-- A file added under another spelling of its path and removed under a third is gone, and removing
it once more changes nothing. -/
theorem inStep_run_removed :
    let session := (start (Program.ofFiles {} [("a.ts", "html`<Card/>`")])).run
      [.update "./b/../b.ts" "html`<Card/>`", .remove "x/../b.ts"]
    session.registry.files = ["a.ts".toList] ∧ session.removeFile "b.ts" = session := by
  intro session
  obtain ⟨-, hStep, hRemove⟩ := inStep_run {} [("a.ts", "html`<Card/>`")]
    [.update "./b/../b.ts" "html`<Card/>`", .remove "x/../b.ts"]
  refine ⟨hStep.files_eq.trans ?_, hRemove "b.ts" ?_⟩
  · decide +kernel
  · decide +kernel

end Session

end TemplateCheck
