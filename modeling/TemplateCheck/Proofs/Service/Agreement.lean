import TemplateCheck.Proofs.Check.Places
import TemplateCheck.Service.Session

/-!
# The checker and the session agree file by file

A check of the whole program takes the turns of all files one after the other, a session only the
turn of the file that it is asked about. Both give the same diagnostics for that file.

1. What the host reports about a file is among its reports about all files, in order
   (`filter_hostDiagnostics`).
2. The findings in a file carry its path (`labels_findings`), so that the turns of other files
   neither add to its diagnostics nor take any away.
3. The turn of a file looks at the declarations and scans of a registry, and these are the same in
   all registries filled from one program (`turn_congr`).
-/

namespace TemplateCheck

/-! ## Reports of the host -/

theorem filter_flatMap_eq_nil {files : List SourceFile} {reports : Text → List Diagnostic}
    (hReports : ∀ path, ∀ d ∈ reports path, d.isIn path = true) {path : Text}
    (hPath : path ∉ files.map (·.path)) :
    (files.flatMap fun file => reports file.path).filter (Diagnostic.isIn path) = [] := by
  refine List.filter_eq_nil_iff.mpr fun d hd hIn => ?_
  obtain ⟨other, hOther, hReport⟩ := List.mem_flatMap.mp hd
  have hSame : other.path = path := Diagnostic.isIn_unique (hReports other.path d hReport) hIn
  exact hPath (List.mem_map.mpr ⟨other, hOther, hSame⟩)

theorem filter_flatMap_eq {files : List SourceFile} {reports : Text → List Diagnostic}
    (hReports : ∀ path, ∀ d ∈ reports path, d.isIn path = true)
    (hDistinct : (files.map (·.path)).Nodup) {file : SourceFile} (hFile : file ∈ files) :
    (files.flatMap fun file => reports file.path).filter (Diagnostic.isIn file.path) =
      reports file.path := by
  obtain ⟨before, after, rfl⟩ := List.append_of_mem hFile
  rw [List.map_append, List.map_cons] at hDistinct
  obtain ⟨-, hAfter, hDisjoint⟩ := List.nodup_append'.mp hDistinct
  have hNotBefore : file.path ∉ before.map (·.path) := fun h => hDisjoint h List.mem_cons_self
  have hNotAfter : file.path ∉ after.map (·.path) := (List.nodup_cons.mp hAfter).1
  rw [List.flatMap_append, List.flatMap_cons, List.filter_append, List.filter_append,
    filter_flatMap_eq_nil hReports hNotBefore, filter_flatMap_eq_nil hReports hNotAfter,
    List.filter_eq_self.mpr (hReports file.path), List.nil_append, List.append_nil]

/-- What the host reports about one file. -/
def hostReports (program : Program) (path : Text) : List Diagnostic :=
  if program.config.reportUnusedImports then findUnusedImports program path else []

theorem filter_hostDiagnostics {program : Program} (h : program.WellFormed) {file : SourceFile}
    (hFile : file ∈ program.sourceFiles) :
    (hostDiagnostics program).filter (Diagnostic.isIn file.path) =
      hostReports program file.path := by
  unfold hostDiagnostics hostReports
  split_ifs
  · refine filter_flatMap_eq (fun path d hd => ?_) h.nodup_paths hFile
    exact Diagnostic.isIn_iff.mpr (of_mem_findUnusedImports hd).1
  · rfl

/-! ## Turns -/

/-- A turn looks at what the registry holds, not at how often it was changed, and at no other file
that the run may be limited to. -/
theorem turn_congr {context context' : CheckContext}
    (hDeclarations : context.registry.declarations = context'.registry.declarations)
    (hScans : context.registry.scans = context'.registry.scans)
    (hProgram : context.program = context'.program) (hOracle : context.oracle = context'.oracle) :
    turn context = turn context' := by
  obtain ⟨⟨declarations, scans, generation⟩, program, oracle, filePath⟩ := context
  obtain ⟨⟨declarations', scans', generation'⟩, program', oracle', filePath'⟩ := context'
  dsimp only at hDeclarations hScans hProgram hOracle
  subst hDeclarations hScans hProgram hOracle
  rfl

theorem labels_findings {program : Program} (h : program.WellFormed) (registry : Registry)
    (oracle : TypeOracle) (filePath : Option Text) {file : SourceFile}
    (hFile : file ∈ program.sourceFiles) :
    LabelsFindings ⟨registry.populate program, program, oracle, filePath⟩ file.path := by
  intro d hd
  obtain ⟨code, start, shown, hPoints⟩ :=
    (Registry.reflects_populate h registry hFile).placed_findings _ d hd
  exact Diagnostic.isIn_iff.mpr hPoints.filePath_eq

/-! ## Sessions -/

theorem Session.diagnostics_of_none {session : Session} {path : Text}
    (hFile : session.program.file? path = none) (host : Option (List Diagnostic)) :
    session.diagnostics path host = host.getD [] := by
  unfold Session.diagnostics
  rw [hFile]

theorem Session.diagnostics_eq {session : Session} {path : Text} {file : SourceFile}
    (hFile : session.program.file? path = some file) (host : Option (List Diagnostic)) :
    session.diagnostics path host =
      (turn ⟨session.registry, session.program, .ofProgram session.program, some file.path⟩
        (host.getD (hostReports session.program file.path)) file.path).map
          (Diagnostic.locate session.program) := by
  unfold Session.diagnostics
  rw [hFile]
  dsimp only
  rw [diagnostics_runPipeline]
  rfl

/-- For every program, the diagnostics of a check of all of it that carry the path of a file are, in
order and located, those that a session reports for the file; and every diagnostic of the check
carries the path of a file of the program. -/
theorem checkProgram_eq_session (config : Config) (files : List (Text × Text))
    (registry : Registry) :
    let program := Program.ofFiles config files
    let found := (checkProgram program (registry.populate program)).diagnostics
    (∀ file ∈ program.sourceFiles,
      (found.filter fun d => d.filePath = some file.path) =
        (Session.start program).diagnostics file.path none) ∧
    ∀ d ∈ found, ∃ file ∈ program.sourceFiles, d.filePath = some file.path := by
  intro program found
  have hProgram : program.WellFormed := Program.wellFormed_ofFiles config files
  constructor
  · intro file hFile
    have hLabels : ∀ path ∈ program.sourceFiles.map (·.path),
        LabelsFindings ⟨registry.populate program, program, .ofProgram program, none⟩ path := by
      intro path hPath
      obtain ⟨other, hOther, rfl⟩ := List.mem_map.mp hPath
      exact labels_findings hProgram registry _ _ hOther
    have hTurn : turn ⟨registry.populate program, program, .ofProgram program, none⟩ =
        turn ⟨(Session.start program).registry, program, .ofProgram program, some file.path⟩ :=
      turn_congr
        ((Registry.declarations_populate hProgram _).trans
          (Registry.declarations_populate hProgram _).symm)
        ((Registry.scans_populate hProgram _).trans (Registry.scans_populate hProgram _).symm)
        rfl rfl
    rw [Session.diagnostics_eq (hProgram.file?_path hFile)]
    show ((checkProgram program (registry.populate program)).diagnostics.filter
      (Diagnostic.isIn file.path)) = _
    unfold checkProgram
    rw [diagnostics_runPipeline, Diagnostic.filter_isIn_map_locate,
      CheckContext.filePaths_populate hProgram,
      filter_foldl_turn hLabels hProgram.nodup_paths (List.mem_map_of_mem hFile),
      filter_hostDiagnostics hProgram hFile, hTurn]
    rfl
  · intro d hd
    obtain ⟨file, hFile, plain, rfl, hPlain⟩ := host_or_placed hProgram registry hd
    refine ⟨file, hFile, ?_⟩
    rw [Diagnostic.filePath_locate]
    rcases hPlain with hHost | ⟨code, start, shown, hPoints⟩
    · exact (of_mem_findUnusedImports hHost).1
    · exact hPoints.filePath_eq

end TemplateCheck
