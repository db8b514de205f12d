import TemplateCheck.Proofs.Check.Contracts
import TemplateCheck.Proofs.Service.Agreement

/-!
# Editing and starting anew

A session reads only the edited file again. Its answers are compared with those of a session that is
started over the same files.

1. After any edits the session holds the scans of the files of its program and, in the order in
   which they were published, components of each of its files (`Session.Holds.apply`).
2. What an extracted component is apart from its contract does not depend on other files
   (`map_outline_componentsIn`), so the outlines are always current. Contracts are current as long
   as no edit changes the components of another file (`Edit.IsLocal`).
3. So all diagnostics agree but for the reports about contracts, and these agree too where the
   contracts of the used components do (`Session.Holds.filter_diagnostics`,
   `Session.Holds.diagnostics_eq_of_contracts`).
-/

namespace TemplateCheck

open OrderedMap

/-- One edit of a session. -/
inductive Edit where
  | update (path text : Text)
  | remove (path : Text)
deriving DecidableEq, Repr

namespace Edit

/-- The normal path of the edited file. -/
def path : Edit → Text
  | update path _ => Path.normalize path
  | remove path => Path.normalize path

/-- The program after the edit. -/
def applyTo (edit : Edit) (program : Program) : Program :=
  match edit with
  | update path text => program.addFile path text
  | remove path => program.removeFile path

/-- The edit leaves the components of all other files as they are. -/
def IsLocal (edit : Edit) (program : Program) : Prop :=
  ∀ file ∈ program.sourceFiles, file.path ≠ edit.path →
    componentsIn (edit.applyTo program) file = componentsIn program file

/-- Each of the edits leaves the components of all other files as they are. -/
def AllLocal : (program : Program) → List Edit → Prop
  | _, [] => True
  | program, edit :: edits => edit.IsLocal program ∧ AllLocal (edit.applyTo program) edits

instance (edit : Edit) (program : Program) : Decidable (edit.IsLocal program) :=
  inferInstanceAs (Decidable (∀ file ∈ program.sourceFiles, file.path ≠ edit.path →
    componentsIn (edit.applyTo program) file = componentsIn program file))

instance decidableAllLocal : (program : Program) → (edits : List Edit) →
    Decidable (AllLocal program edits)
  | _, [] => inferInstanceAs (Decidable True)
  | program, edit :: edits =>
    have := decidableAllLocal (edit.applyTo program) edits
    inferInstanceAs (Decidable (_ ∧ _))

end Edit

namespace Session

/-- Takes one edit. -/
def apply (session : Session) (edit : Edit) : Session :=
  match edit with
  | .update path text => session.updateFile path text
  | .remove path => session.removeFile path

/-- Takes edits one after the other. -/
def run (session : Session) (edits : List Edit) : Session := edits.foldl apply session

end Session

/-! ## Views of what was published -/

namespace Registry

variable {β : Type} {view : Component → β} {program : Program} {m m' : Publications}

/-- What is to be seen of the published components. -/
def viewed (view : Component → β) (m : Publications) : OrderedMap Text (List β) :=
  mapValues (fun _ components => components.map view) m

/-- What is to be seen of the published components is what the program declares now. -/
def Current (view : Component → β) (program : Program) (m : Publications) : Prop :=
  (viewed view m).Perm (viewed view (publicationsOf program))

theorem mem_viewed {path : Text} {views : List β} :
    (path, views) ∈ viewed view m ↔ ∃ components, (path, components) ∈ m ∧
      components.map view = views :=
  mem_mapValues

theorem mem_publicationsOf {path : Text} {components : List Component} :
    (path, components) ∈ publicationsOf program ↔ ∃ file, (path, file) ∈ program.files ∧
      TemplateCheck.componentsIn program file = components ∧ components ≠ [] := by
  rw [publicationsOf, List.mem_filter, mem_mapValues]
  constructor
  · rintro ⟨⟨file, hMem, hComponents⟩, hNonempty⟩
    exact ⟨file, hMem, hComponents, by simpa using hNonempty⟩
  · rintro ⟨file, hMem, hComponents, hNonempty⟩
    exact ⟨⟨file, hMem, hComponents⟩, by simpa using hNonempty⟩

theorem mem_record_iff (h : (keys m).Nodup) {path : Text} {components : List Component}
    {entry : Text × List Component} :
    entry ∈ record m path components ↔
      entry = (path, components) ∧ components ≠ [] ∨ entry ∈ m ∧ entry.1 ≠ path := by
  unfold record
  split_ifs with hEmpty
  · rw [mem_remove_iff]
    simp [hEmpty]
  · rw [mem_put_iff h]
    simp [hEmpty]

theorem nodup_keys_record (h : (keys m).Nodup) (path : Text) (components : List Component) :
    (keys (record m path components)).Nodup := by
  unfold record
  split_ifs
  · exact nodup_keys_remove h path
  · exact nodup_keys_put h path components

theorem nodup_keys_publicationsOf (h : program.WellFormed) :
    (keys (publicationsOf program)).Nodup := by
  have hAll := h.nodup_keys
  rw [← keys_mapValues fun _ file => TemplateCheck.componentsIn program file] at hAll
  exact hAll.sublist (List.filter_sublist.map _)

theorem nodup_keys_viewed (h : (keys m).Nodup) : (keys (viewed view m)).Nodup := by
  unfold viewed
  rwa [keys_mapValues]

theorem current_iff (hProgram : program.WellFormed) (h : (keys m).Nodup) :
    Current view program m ↔ ∀ path views,
      (∃ components, (path, components) ∈ m ∧ components.map view = views) ↔
        ∃ file, (path, file) ∈ program.files ∧
          (TemplateCheck.componentsIn program file).map view = views ∧ views ≠ [] := by
  have hViews : ∀ path views, (path, views) ∈ viewed view (publicationsOf program) ↔
      ∃ file, (path, file) ∈ program.files ∧
        (TemplateCheck.componentsIn program file).map view = views ∧ views ≠ [] := by
    intro path views
    rw [mem_viewed]
    constructor
    · rintro ⟨components, hMem, rfl⟩
      obtain ⟨file, hFile, rfl, hNonempty⟩ := mem_publicationsOf.mp hMem
      exact ⟨file, hFile, rfl, by simpa using hNonempty⟩
    · rintro ⟨file, hFile, rfl, hNonempty⟩
      exact ⟨_, mem_publicationsOf.mpr ⟨file, hFile, rfl, by simpa using hNonempty⟩, rfl⟩
  unfold Current
  rw [List.perm_ext_iff_of_nodup (.of_map _ (nodup_keys_viewed h))
    (.of_map _ (nodup_keys_viewed (nodup_keys_publicationsOf hProgram))), Prod.forall]
  refine forall_congr' fun path => forall_congr' fun views => ?_
  rw [mem_viewed, hViews]

/-- A change of one file keeps the views current, as long as those of the other files stay. -/
theorem Current.step {program' : Program} {path : Text} (h : Current view program m)
    (hProgram : program.WellFormed) (hProgram' : program'.WellFormed) (hKeys : (keys m).Nodup)
    (hKeys' : (keys m').Nodup)
    (hFiles : ∀ entry, entry.1 ≠ path → (entry ∈ program'.files ↔ entry ∈ program.files))
    (hPublished : ∀ entry, entry.1 ≠ path → (entry ∈ m' ↔ entry ∈ m))
    (hOthers : ∀ file ∈ program.sourceFiles, file.path ≠ path →
      (TemplateCheck.componentsIn program' file).map view =
        (TemplateCheck.componentsIn program file).map view)
    (hHere : ∀ views, (∃ components, (path, components) ∈ m' ∧ components.map view = views) ↔
      ∃ file, (path, file) ∈ program'.files ∧
        (TemplateCheck.componentsIn program' file).map view = views ∧ views ≠ []) :
    Current view program' m' := by
  rw [current_iff hProgram hKeys] at h
  rw [current_iff hProgram' hKeys']
  intro other views
  by_cases hOther : other = path
  · rw [hOther]
    exact hHere views
  · have hOld : (∃ components, (other, components) ∈ m' ∧ components.map view = views) ↔
        ∃ components, (other, components) ∈ m ∧ components.map view = views :=
      exists_congr fun components => and_congr_left fun _ => hPublished _ hOther
    rw [hOld, h]
    refine exists_congr fun file => ?_
    rw [hFiles (other, file) hOther]
    refine and_congr_right fun hFile => ?_
    have hPath : file.path = other := hProgram.path_eq hFile
    rw [hOthers file (List.mem_map.mpr ⟨_, hFile, rfl⟩) (by rwa [hPath])]

end Registry

/-! ## Edits -/

theorem Program.addFile_files (program : Program) (path text : Text) :
    (program.addFile path text).files = put program.files (Path.normalize path)
      (SourceFile.read program.config.templateTag (Path.normalize path) text) := rfl

/-- What the session holds: the scans of its files, and components published by some of them. -/
structure Session.Holds (session : Session) (m : Registry.Publications) : Prop where
  wellFormed : session.program.WellFormed
  nodup_keys : (keys m).Nodup
  declarations_eq : session.registry.declarations = Registry.marked m
  scans_eq : session.registry.scans = Registry.scansOf session.program

namespace Session

theorem holds_start {program : Program} (h : program.WellFormed) :
    (start program).Holds (Registry.publicationsOf program) where
  wellFormed := h
  nodup_keys := Registry.nodup_keys_publicationsOf h
  declarations_eq := Registry.declarations_populate h Registry.empty
  scans_eq := Registry.scans_populate h Registry.empty

variable {session : Session} {m : Registry.Publications}

theorem updateFile_eq (session : Session) (path text : Text) :
    session.updateFile path text = ⟨session.program.addFile path text,
      session.registry.addFile (session.program.addFile path text)
        (SourceFile.read session.program.config.templateTag (Path.normalize path) text)⟩ := by
  unfold updateFile Program.file?
  dsimp only
  rw [Program.addFile_files, get?_put_self]

theorem Holds.updateFile (h : session.Holds m) (path text : Text) :
    (session.updateFile path text).Holds (Registry.record m (Path.normalize path)
      (componentsIn (session.program.addFile path text)
        (SourceFile.read session.program.config.templateTag (Path.normalize path) text))) := by
  rw [updateFile_eq]
  exact {
    wellFormed := h.wellFormed.addFile path text
    nodup_keys := Registry.nodup_keys_record h.nodup_keys _ _
    declarations_eq := Registry.declarations_addFile h.declarations_eq _ _
    scans_eq := by
      rw [Registry.scans_addFile, h.scans_eq]
      exact put_mapValues (fun _ file => FileScan.ofFile file) session.program.files _ _ }

theorem Holds.current_updateFile {β : Type} {view : Component → β} (h : session.Holds m)
    (hCurrent : Registry.Current view session.program m) (path text : Text)
    (hOthers : ∀ file ∈ session.program.sourceFiles, file.path ≠ Path.normalize path →
      (componentsIn (session.program.addFile path text) file).map view =
        (componentsIn session.program file).map view) :
    Registry.Current view (session.program.addFile path text)
      (Registry.record m (Path.normalize path) (componentsIn (session.program.addFile path text)
        (SourceFile.read session.program.config.templateTag (Path.normalize path) text))) := by
  have hFile : ∀ entry, entry ∈ (session.program.addFile path text).files ↔
      entry = (Path.normalize path,
        SourceFile.read session.program.config.templateTag (Path.normalize path) text) ∨
      entry ∈ session.program.files ∧ entry.1 ≠ Path.normalize path := fun entry =>
    mem_put_iff h.wellFormed.nodup_keys
  refine hCurrent.step h.wellFormed (h.wellFormed.addFile path text) h.nodup_keys
    (Registry.nodup_keys_record h.nodup_keys _ _) ?_ ?_ hOthers ?_
  · intro entry hEntry
    rw [hFile]
    constructor
    · rintro (rfl | ⟨hMem, -⟩)
      · exact absurd rfl hEntry
      · exact hMem
    · exact fun hMem => .inr ⟨hMem, hEntry⟩
  · intro entry hEntry
    rw [Registry.mem_record_iff h.nodup_keys]
    constructor
    · rintro (⟨rfl, -⟩ | ⟨hMem, -⟩)
      · exact absurd rfl hEntry
      · exact hMem
    · exact fun hMem => .inr ⟨hMem, hEntry⟩
  · intro views
    constructor
    · rintro ⟨components, hMem, rfl⟩
      rcases (Registry.mem_record_iff h.nodup_keys).mp hMem with ⟨hEq, hNonempty⟩ | ⟨-, hNe⟩
      · obtain ⟨-, rfl⟩ := Prod.mk.inj hEq
        exact ⟨_, (hFile _).mpr (.inl rfl), rfl, by simpa using hNonempty⟩
      · exact absurd rfl hNe
    · rintro ⟨file, hMem, rfl, hNonempty⟩
      rcases (hFile _).mp hMem with hEq | ⟨-, hNe⟩
      · obtain ⟨-, rfl⟩ := Prod.mk.inj hEq
        exact ⟨_, (Registry.mem_record_iff h.nodup_keys).mpr
          (.inl ⟨rfl, by simpa using hNonempty⟩), rfl⟩
      · exact absurd rfl hNe

/-- Removing a file that the session does not have changes nothing. -/
theorem removeFile_of_none {path : Text} (h : session.program.file? path = none) :
    session.removeFile path = session ∧ session.program.removeFile path = session.program := by
  constructor
  · unfold removeFile
    rw [h]
  · unfold Program.removeFile
    rw [remove_eq_self (key_not_mem_of_get?_eq_none h)]

theorem Holds.removeFile_of_some (h : session.Holds m) {path : Text} {file : SourceFile}
    (hFile : session.program.file? path = some file) :
    session.removeFile path = ⟨session.program.removeFile path,
      session.registry.removeFile (Path.normalize path)⟩ := by
  have hPath := (h.wellFormed.of_file?_eq_some hFile).2
  unfold removeFile
  rw [hFile]
  dsimp only
  rw [hPath]
  unfold Program.removeFile
  rw [Path.normalize_normalize]

theorem Holds.removeFile (h : session.Holds m) {path : Text} {file : SourceFile}
    (hFile : session.program.file? path = some file) :
    (session.removeFile path).Holds (remove m (Path.normalize path)) := by
  rw [h.removeFile_of_some hFile]
  exact {
    wellFormed := h.wellFormed.removeFile path
    nodup_keys := nodup_keys_remove h.nodup_keys _
    declarations_eq := Registry.declarations_removeFile h.declarations_eq h.nodup_keys _
    scans_eq := by
      rw [Registry.scans_removeFile, h.scans_eq]
      exact remove_mapValues (fun _ file => FileScan.ofFile file) session.program.files _ }

theorem Holds.current_removeFile {β : Type} {view : Component → β} (h : session.Holds m)
    (hCurrent : Registry.Current view session.program m) (path : Text)
    (hOthers : ∀ file ∈ session.program.sourceFiles, file.path ≠ Path.normalize path →
      (componentsIn (session.program.removeFile path) file).map view =
        (componentsIn session.program file).map view) :
    Registry.Current view (session.program.removeFile path) (remove m (Path.normalize path)) := by
  have hFile : ∀ entry, entry ∈ (session.program.removeFile path).files ↔
      entry ∈ session.program.files ∧ entry.1 ≠ Path.normalize path := fun entry => mem_remove_iff
  refine hCurrent.step h.wellFormed (h.wellFormed.removeFile path) h.nodup_keys
    (nodup_keys_remove h.nodup_keys _) ?_ ?_ hOthers ?_
  · intro entry hEntry
    rw [hFile]
    exact and_iff_left hEntry
  · intro entry hEntry
    rw [mem_remove_iff]
    exact and_iff_left hEntry
  · intro views
    constructor
    · rintro ⟨components, hMem, -⟩
      exact absurd rfl (mem_remove_iff.mp hMem).2
    · rintro ⟨file, hMem, -⟩
      exact absurd rfl ((hFile _).mp hMem).2

/-! ## Runs -/

/-- One edit: the session holds what the edited program asks for, and views of the components that
the edit does not change in other files stay current. -/
theorem Holds.apply (h : session.Holds m) (edit : Edit) : ∃ m', (session.apply edit).Holds m' ∧
    (session.apply edit).program = edit.applyTo session.program ∧
    ∀ {β : Type} {view : Component → β}, Registry.Current view session.program m →
      (∀ file ∈ session.program.sourceFiles, file.path ≠ edit.path →
        (componentsIn (edit.applyTo session.program) file).map view =
          (componentsIn session.program file).map view) →
      Registry.Current view (edit.applyTo session.program) m' := by
  cases edit with
  | update path text =>
    refine ⟨_, h.updateFile path text, ?_, fun hCurrent hOthers => ?_⟩
    · exact congrArg Session.program (updateFile_eq session path text)
    · exact h.current_updateFile hCurrent path text hOthers
  | remove path =>
    cases hFile : session.program.file? path with
    | none =>
      obtain ⟨hSession, hProgram⟩ := removeFile_of_none hFile
      refine ⟨m, ?_, ?_, fun hCurrent _ => ?_⟩
      · show (session.removeFile path).Holds m
        rwa [hSession]
      · show (session.removeFile path).program = session.program.removeFile path
        rw [hSession, hProgram]
      · show Registry.Current _ (session.program.removeFile path) m
        rwa [hProgram]
    | some file =>
      refine ⟨_, h.removeFile hFile, ?_, fun hCurrent hOthers => ?_⟩
      · exact congrArg Session.program (h.removeFile_of_some hFile)
      · exact h.current_removeFile hCurrent path hOthers

theorem config_applyTo (edit : Edit) (program : Program) :
    (edit.applyTo program).config = program.config := by
  cases edit <;> rfl

/-- Apart from its contract, a component depends on its own file and the settings only. -/
theorem map_outline_componentsIn {program program' : Program} (h : program.config = program'.config)
    (file : SourceFile) :
    (componentsIn program file).map Component.outline =
      (componentsIn program' file).map Component.outline := by
  unfold componentsIn
  rw [h, List.map_map, List.map_map]
  refine List.map_congr_left fun declaration _ => ?_
  simp only [Function.comp_apply, Component.outline, Component.ofClass]

/-- A whole run: the session holds what its program asks for, all outlines are current, and all
components are if each edit was local. -/
theorem Holds.run (h : session.Holds m) (edits : List Edit)
    (hOutline : Registry.Current Component.outline session.program m) :
    ∃ m', (session.run edits).Holds m' ∧
      (session.run edits).program.config = session.program.config ∧
      Registry.Current Component.outline (session.run edits).program m' ∧
      (Registry.Current id session.program m → Edit.AllLocal session.program edits →
        Registry.Current id (session.run edits).program m') := by
  induction edits generalizing session m with
  | nil => exact ⟨m, h, rfl, hOutline, fun hCurrent _ => hCurrent⟩
  | cons edit edits ih =>
    obtain ⟨m₁, hHolds, hProgram, hCurrent⟩ := h.apply edit
    have hConfig := config_applyTo edit session.program
    have hOutline₁ := hCurrent hOutline fun file _ _ => map_outline_componentsIn hConfig file
    rw [← hProgram] at hOutline₁
    obtain ⟨m₂, hHolds₂, hConfig₂, hOutline₂, hLocal₂⟩ := ih hHolds hOutline₁
    refine ⟨m₂, hHolds₂, ?_, hOutline₂, ?_⟩
    · rw [← hConfig, ← hProgram]
      exact hConfig₂
    · rintro hId ⟨hEdit, hEdits⟩
      have hId₁ := hCurrent hId fun file hFile hPath => congrArg _ (hEdit file hFile hPath)
      rw [← hProgram] at hId₁ hEdits
      exact hLocal₂ hId₁ hEdits

end Session

/-! ## Registries with current outlines -/

namespace Registry

variable {registry registry' : Registry} {program : Program} {m m' : Publications}

theorem flatten_values_viewed {β : Type} (view : Component → β) (m : Publications) :
    (values (viewed view m)).flatten = (values m).flatten.map view :=
  flatten_values_mapValues view m

theorem Current.perm_flatten {β : Type} {view : Component → β} (h : Current view program m) :
    ((values m).flatten.map view).Perm ((values (publicationsOf program)).flatten.map view) := by
  rw [← flatten_values_viewed, ← flatten_values_viewed]
  exact (h.map _).flatten

theorem Current.perm_names (h : Current Component.outline program m) :
    ((values m).flatten.map (·.name)).Perm
      ((values (publicationsOf program)).flatten.map (·.name)) := by
  have hNames := h.perm_flatten.map (·.name)
  rw [List.map_map, List.map_map] at hNames
  exact hNames

theorem Current.get?_eq {β : Type} {view : Component → β} (h : Current view program m)
    (hProgram : program.WellFormed) (hKeys : (keys m).Nodup) (path : Text) :
    get? (viewed view m) path = get? (viewed view (publicationsOf program)) path := by
  refine Option.ext fun views => ?_
  rw [get?_eq_some_iff (nodup_keys_viewed hKeys),
    get?_eq_some_iff (nodup_keys_viewed (nodup_keys_publicationsOf hProgram))]
  exact h.mem_iff

/-- With current outlines, a registry has the outline of one that is filled anew. -/
theorem Current.sameOutline (h : Current Component.outline program m)
    (hProgram : program.WellFormed) (hKeys : (keys m).Nodup)
    (hDeclarations : registry.declarations = marked m)
    (hDeclarations' : registry'.declarations = marked (publicationsOf program))
    (hScans : registry.scans = registry'.scans) : registry.SameOutline registry' where
  scans := hScans
  outlines := by
    intro path
    have hViews := congrArg (Option.getD · []) (h.get?_eq hProgram hKeys path)
    unfold viewed at hViews
    rw [get?_mapValues, get?_mapValues] at hViews
    have hOutline : ∀ (all : List Component) (components : Option (List Component)),
        ((components.getD []).map (Component.mark all)).map Component.outline =
          ((components.map (List.map Component.outline)).getD []).map (Component.mark all) := by
      intro all components
      cases components with
      | none => rfl
      | some components =>
        simp only [Option.getD_some, Option.map_some, List.map_map]
        rfl
    rw [componentsIn_eq hDeclarations, componentsIn_eq hDeclarations', hOutline, hOutline,
      Component.mark_congr h.perm_names]
    exact congrArg _ hViews
  known := by
    intro name
    rw [find?_eq hDeclarations, find?_eq hDeclarations', Option.isNone_map, Option.isNone_map,
      Bool.eq_iff_iff, Option.isNone_iff_eq_none, Option.isNone_iff_eq_none, List.find?_eq_none,
      List.find?_eq_none]
    have hNames := h.perm_names.mem_iff (a := name)
    simp only [List.mem_map] at hNames
    simp only [decide_eq_true_eq]
    constructor
    · intro hAbsent component hMem hName
      obtain ⟨other, hOther, hSame⟩ := hNames.mpr ⟨component, hMem, hName⟩
      exact hAbsent other hOther hSame
    · intro hAbsent component hMem hName
      obtain ⟨other, hOther, hSame⟩ := hNames.mp ⟨component, hMem, hName⟩
      exact hAbsent other hOther hSame

/-! ## Components that are declared once -/

theorem find?_eq_of_perm {components components' : List Component} (h : components.Perm components')
    {test : Component → Bool} (hOnce : components'.countP test ≤ 1) :
    components.find? test = components'.find? test := by
  have hFilter := h.filter test
  rw [List.countP_eq_length_filter] at hOnce
  rw [← List.head?_filter, ← List.head?_filter]
  match hFound : components'.filter test with
  | [] =>
    rw [hFound] at hFilter
    rw [hFilter.eq_nil]
  | [component] =>
    rw [hFound] at hFilter
    rw [List.perm_singleton.mp hFilter]
  | _ :: _ :: _ =>
    rw [hFound] at hOnce
    simp at hOnce

/-- A name without a duplicated component is declared at most once. -/
theorem countP_le_one {program : Program} {name : Text}
    (h : ∀ component ∈ componentsOf program, component.name = name →
      component.isDuplicated = false) :
    (values (publicationsOf program)).flatten.countP (·.name = name) ≤ 1 := by
  rw [flatten_values_publicationsOf]
  by_contra hMore
  rw [Nat.not_le] at hMore
  obtain ⟨component, hMem, hName⟩ := List.countP_pos_iff.mp (Nat.zero_lt_of_lt hMore)
  rw [decide_eq_true_iff] at hName
  have hMark : component.mark (program.sourceFiles.flatMap (TemplateCheck.componentsIn program)) ∈
      componentsOf program := by
    unfold componentsOf
    rw [markDuplicated_eq]
    exact List.mem_map_of_mem hMem
  have hFlag := h _ hMark hName
  unfold Component.mark at hFlag
  rw [hName, decide_eq_false_iff_not] at hFlag
  omega

/-- With current components, a name that is declared once has its current contract. -/
theorem Current.contract_eq (h : Current id program m)
    (hDeclarations : registry.declarations = marked m)
    (hDeclarations' : registry'.declarations = marked (publicationsOf program)) {name : Text}
    (hOnce : (values (publicationsOf program)).flatten.countP (·.name = name) ≤ 1) :
    (registry.find? name).map Component.contract =
      (registry'.find? name).map Component.contract := by
  have hPerm := h.perm_flatten
  rw [List.map_id, List.map_id] at hPerm
  rw [find?_eq hDeclarations, find?_eq hDeclarations', Option.map_map, Option.map_map,
    find?_eq_of_perm hPerm hOnce]
  rfl

end Registry

/-! ## Diagnostics after edits -/

theorem Diagnostic.filter_isAboutContract_map_locate (program : Program)
    (diagnostics : List Diagnostic) :
    (diagnostics.map (Diagnostic.locate program)).filter (!·.isAboutContract) =
      (diagnostics.filter (!·.isAboutContract)).map (Diagnostic.locate program) :=
  Diagnostic.filter_map_locate (fun _ _ _ => rfl) program diagnostics

namespace Session

variable {session : Session} {m : Registry.Publications}

theorem Holds.sameOutline (h : session.Holds m)
    (hOutline : Registry.Current Component.outline session.program m) :
    session.registry.SameOutline (start session.program).registry :=
  hOutline.sameOutline h.wellFormed h.nodup_keys h.declarations_eq
    (holds_start h.wellFormed).declarations_eq
    (h.scans_eq.trans (holds_start h.wellFormed).scans_eq.symm)

theorem Holds.filter_diagnostics (h : session.Holds m)
    (hOutline : Registry.Current Component.outline session.program m) (path : Text)
    (host : Option (List Diagnostic)) :
    (session.diagnostics path host).filter (!·.isAboutContract) =
      ((start session.program).diagnostics path host).filter (!·.isAboutContract) := by
  cases hFile : session.program.file? path with
  | none =>
    have hFile' : (start session.program).program.file? path = none := hFile
    rw [diagnostics_of_none hFile, diagnostics_of_none hFile']
  | some file =>
    have hFile' : (start session.program).program.file? path = some file := hFile
    rw [diagnostics_eq hFile, diagnostics_eq hFile',
      Diagnostic.filter_isAboutContract_map_locate, Diagnostic.filter_isAboutContract_map_locate,
      (h.sameOutline hOutline).filter_turn]
    rfl

/-- With current outlines, the answers for a file agree when the contracts of its components do. -/
theorem Holds.diagnostics_eq_of_contracts (h : session.Holds m)
    (hOutline : Registry.Current Component.outline session.program m) (path : Text)
    (host : Option (List Diagnostic))
    (hContracts : ∀ name ∈ (start session.program).registry.usedNames (Path.normalize path),
      (session.registry.find? name).map Component.contract =
        ((start session.program).registry.find? name).map Component.contract) :
    session.diagnostics path host = (start session.program).diagnostics path host := by
  cases hFile : session.program.file? path with
  | none =>
    have hFile' : (start session.program).program.file? path = none := hFile
    rw [diagnostics_of_none hFile, diagnostics_of_none hFile']
  | some file =>
    obtain ⟨hMem, hPath⟩ := h.wellFormed.of_file?_eq_some hFile
    have hSame := h.sameOutline hOutline
    rw [← hPath, ← hSame.usedNames_eq] at hContracts
    have hFile' : (start session.program).program.file? path = some file := hFile
    rw [diagnostics_eq hFile, diagnostics_eq hFile',
      hSame.turn_eq (Registry.scan?_eq h.scans_eq h.wellFormed hMem) hContracts]
    rfl

end Session

/-- After any edits, the diagnostics of a session for a file agree with those of a session that is
started over the same files but for the reports about contracts. They are the same when the
components used in the file have the same contracts in both, and so when each edit left the
components of all other files as they were and no component used in the file has a duplicated
name. -/
theorem Session.diagnostics_run (config : Config) (files : List (Text × Text)) (edits : List Edit)
    (path : Text) (host : Option (List Diagnostic)) :
    let session := (Session.start (Program.ofFiles config files)).run edits
    let fresh := Session.start (Program.ofFiles config session.program.entries)
    let used := fresh.registry.usedNames (Path.normalize path)
    (session.diagnostics path host).filter (!·.isAboutContract) =
      (fresh.diagnostics path host).filter (!·.isAboutContract) ∧
    ((∀ name ∈ used, (session.registry.find? name).map Component.contract =
        (fresh.registry.find? name).map Component.contract) →
      session.diagnostics path host = fresh.diagnostics path host) ∧
    (Edit.AllLocal (Program.ofFiles config files) edits →
      (∀ component ∈ componentsOf session.program,
        component.name ∈ used → component.isDuplicated = false) →
      session.diagnostics path host = fresh.diagnostics path host) := by
  intro session fresh used
  have hStart := Session.holds_start (Program.wellFormed_ofFiles config files)
  obtain ⟨m, hHolds, hConfig, hOutline, hLocal⟩ := hStart.run edits (.refl _)
  have hProgram : Program.ofFiles config session.program.entries = session.program := by
    have hEntries := hHolds.wellFormed.ofFiles_entries
    rw [hConfig] at hEntries
    rwa [show (Session.start (Program.ofFiles config files)).program.config = config from
      Program.config_ofFiles config files] at hEntries
  have hFresh : fresh = Session.start session.program := congrArg Session.start hProgram
  have hContracts := hHolds.diagnostics_eq_of_contracts hOutline path host
  rw [← hFresh] at hContracts
  refine ⟨?_, hContracts, fun hEdits hOnce => hContracts fun name hName => ?_⟩
  · rw [hFresh]
    exact hHolds.filter_diagnostics hOutline path host
  · have hCurrent := hLocal (.refl _) hEdits
    rw [hFresh]
    refine hCurrent.contract_eq hHolds.declarations_eq
      (Session.holds_start hHolds.wellFormed).declarations_eq (Registry.countP_le_one ?_)
    rintro component hMem rfl
    exact hOnce component hMem hName

/-- A new file that uses a component leaves all other components as they are. -/
theorem Session.diagnostics_run_newFile :
    let session := (Session.start (Program.ofFiles {}
      [("card.ts", "import {C} from '@neuralfog/elemix';" ++
        "class Card extends C<{a: string}> {}")])).run [.update "view.ts" "html`<Card/>`"]
    session.diagnostics "view.ts" none =
      (Session.start (Program.ofFiles {} session.program.entries)).diagnostics "view.ts" none :=
  (Session.diagnostics_run {}
    [("card.ts", "import {C} from '@neuralfog/elemix';" ++
      "class Card extends C<{a: string}> {}")]
    [.update "view.ts" "html`<Card/>`"] "view.ts" none).2.2 (by decide +kernel) (by
      unfold componentsOf
      rw [markDuplicated_eq]
      decide +kernel)

/-- An edit of the type that a component in another file takes as its contract is not seen there:
the session goes on with the contract that it has extracted before. -/
theorem Session.diagnostics_run_ne :
    let session := (Session.start (Program.ofFiles {}
      [("types.ts", "export type P = {a: string}"),
        ("card.ts", "import {C} from '@neuralfog/elemix';import {P} from './types';" ++
          "class UserCard extends C<P> {}"),
        ("view.ts", "html`<UserCard/>`")])).run
          [.update "types.ts" "export type P = {b: string}"]
    session.diagnostics "view.ts" none ≠
      (Session.start (Program.ofFiles {} session.program.entries)).diagnostics "view.ts" none := by
  decide +kernel

end TemplateCheck
