import TemplateCheck.Proofs.Check.Attributes
import TemplateCheck.Proofs.OrderedMap.Groups
import TemplateCheck.Proofs.Pattern.Preference
import TemplateCheck.Proofs.Source.ImportFront
import TemplateCheck.Proofs.TypeText.Name

/-!
# Which unused imports are reported

The host reports the imports of a file that its code does not use, statement by statement, and a
later stage drops the reports about names that a template uses. The stage knows a report only by its
message and its place.

1. The bindings of a file are grouped by the ranges of their statements
   (`SourceFile.importStatements_eq`).
2. The message about one binding quotes its name, and the name is read back from it
   (`head?_singleQuoted`). The message about a whole statement quotes nothing, and no other
   statement of the file covers its place (`SourceFile.range_eq_of_covers`).
3. So what is left of the reports about a statement depends on the statement alone
   (`filter_unusedInStatement`), and the diagnostics of the whole program are put together from
   these (`unusedImports_exact`).
-/

namespace TemplateCheck

/-! ## Statements -/

/-- The range of the statement that binds a name. -/
def Import.range (binding : Import) : Nat × Nat := (binding.start, binding.stop)

namespace SourceFile

/-- The ranges of the import statements that bind names, in order. -/
def importRanges (file : SourceFile) : List (Nat × Nat) := distinct (file.imports.map Import.range)

/-- The bindings of the statement at a range. -/
def bindingsAt (file : SourceFile) (range : Nat × Nat) : List Import :=
  file.imports.filter fun binding => binding.range = range

/-- The bindings of the statement at a range that the code of the file does not use. -/
def unusedAt (file : SourceFile) (range : Nat × Nat) : List Import :=
  (file.bindingsAt range).filter fun binding => binding.name ∉ file.usedIdentifiers

theorem importStatements_eq (file : SourceFile) :
    importStatements file = OrderedMap.tabulate file.importRanges file.bindingsAt :=
  OrderedMap.foldl_extend Import.range file.imports

variable {marker : WideText} {path text : Text} {a b : Import}

theorem start_lt_stop_of_mem_imports (h : a ∈ (read marker path text).imports) :
    a.start < a.stop := by
  obtain ⟨found, hFound, -, hOf⟩ := Import.exists_of_mem_readAll h
  obtain ⟨hStart, hStop, -⟩ := Import.place_of_mem_ofStatement hOf
  obtain ⟨_, _, _, _, hStands⟩ := Import.exists_standsIn hFound
  have hExtent := hStands.start_lt_closeOf
  omega

theorem range_eq_of_covers (ha : a ∈ (read marker path text).imports)
    (hb : b ∈ (read marker path text).imports) (hStart : b.start ≤ a.start)
    (hStop : a.start < b.stop) : b.range = a.range := by
  obtain ⟨found, hFound, -, hOf⟩ := Import.exists_of_mem_readAll ha
  obtain ⟨found', hFound', -, hOf'⟩ := Import.exists_of_mem_readAll hb
  obtain ⟨hAt, hTo, -⟩ := Import.place_of_mem_ofStatement hOf
  obtain ⟨hAt', hTo', -⟩ := Import.place_of_mem_ofStatement hOf'
  have hExtent := start_lt_stop_of_mem_imports ha
  rw [Import.range, Import.range, hAt, hTo, hAt', hTo']
  rcases Import.eq_or_stop_le_start hFound hFound' with rfl | hBehind | hBefore
  · rfl
  · omega
  · omega

end SourceFile

/-! ## Messages -/

open Pattern in
theorem prefers_singleQuoted {name : Text} (hName : name ≠ []) (hPlain : '\'' ∉ name)
    (rest : Text) :
    singleQuoted.Prefers (('\'' :: name ++ ['\'']) ++ rest) rest [((), name)] := by
  have hRead : ∀ c ∈ name, noneOf ['\''] c = true := by
    intro c hc
    rw [noneOf, decide_eq_true_iff, List.mem_singleton]
    rintro rfl
    exact hPlain hc
  have hStop : ∀ c ∈ ('\'' :: rest).head?, noneOf ['\''] c = false := by
    intro c hc
    rw [← Option.some.inj hc]
    rfl
  have hText : ('\'' :: name ++ ['\'']) ++ rest = ['\''] ++ (name ++ (['\''] ++ rest)) := by
    simp only [List.cons_append, List.append_assoc, List.nil_append]
  rw [hText]
  exact (Prefers.lit ['\''] _).seq (((Prefers.span1 hName hRead hStop).capture ()).seq
    ((Prefers.lit ['\''] rest).seq (Prefers.empty rest)))

theorem head?_singleQuoted {name : Text} (hName : name ≠ []) (hPlain : '\'' ∉ name) (rest : Text) :
    ((singleQuoted.readAll (('\'' :: name ++ ['\'']) ++ rest)).head?.map fun found =>
      found.text ()) =
      some name := by
  obtain ⟨captures, hRecorded, hRead⟩ :=
    (prefers_singleQuoted hName hPlain rest).readAllFrom_eq List.getLast?_concat none 0
  have hText : Pattern.Match.text
      (⟨0, 0 + ('\'' :: name ++ ['\'']).length, captures⟩ : Pattern.Match Unit) () = name := by
    rw [Pattern.Match.text, Pattern.Match.text?_eq, hRecorded]
    rfl
  rw [Pattern.readAll, hRead, List.head?_cons, Option.map_some, hText]

/-! ## The reports about one statement -/

/-- The names of the components that the templates of a file use. -/
def SourceFile.templateNames (file : SourceFile) : List Text := file.componentTags.map (·.2.name)

theorem Registry.Reflects.mem_usedNames_iff {registry : Registry} {file : SourceFile}
    (h : registry.Reflects file) {name : Text} :
    name ∈ registry.usedNames file.path ↔
    name ∈ file.templateNames := by
  have hScans : (file.templates.map (TemplateScan.ofTemplate file)).flatMap
      (fun scan => (scan.usedIn file).map (·.name)) =
      file.templateNames := by
    unfold SourceFile.templateNames SourceFile.componentTags
    rw [List.flatMap_map, List.map_flatMap]
    refine List.flatMap_congr fun template _ => ?_
    rw [TemplateScan.usedIn, List.map_map, List.map_map]
    rfl
  have hUsed : ((registry.usedIn file.path).map (·.name)).Perm file.templateNames := by
    rw [← hScans, ← List.map_flatMap, Registry.usedIn, h.scan?_eq]
    exact (List.mergeSort_perm _ _).map _
  rw [Registry.usedNames, mem_distinct, hUsed.mem_iff]

/-- The report about a binding that is not used. -/
def unusedBinding (file : SourceFile) (binding : Import) : Diagnostic :=
  .error file.path (bindingOffset file binding) binding.name.length
    ('\'' :: binding.name ++ "' is declared but its value is never read.") .unusedDeclaration

/-- The report about a statement none of whose bindings is used. -/
def unusedStatement (file : SourceFile) (range : Nat × Nat) : Diagnostic :=
  .error file.path range.1 (range.2 - range.1 : Int) "All imports in import declaration are unused."
    .unusedImportDeclaration

/-- The reports about the statement at a range: when all of several bindings are unused in code, the
whole of it is reported unless a template uses one of them; otherwise each is reported that neither
code nor a template uses. -/
def statementReports (file : SourceFile) (range : Nat × Nat) : List Diagnostic :=
  if file.unusedAt range = file.bindingsAt range ∧ 2 ≤ (file.bindingsAt range).length then
    if ∃ binding ∈ file.bindingsAt range,
      binding.name ∈ file.templateNames then [] else [unusedStatement file range]
  else ((file.unusedAt range).filter fun binding => binding.name ∉ file.templateNames).map
    (unusedBinding file)

theorem isTemplateUsage_unusedBinding {usedNames : List Text} {file : SourceFile} {binding : Import}
    (hName : binding.name.isIdentifier = true) :
    isTemplateUsage usedNames (some file) (unusedBinding file binding) =
      decide (binding.name ∈ usedNames) := by
  have hFound := head?_singleQuoted (TypeText.ne_nil_of_isIdentifier hName)
    (TypeText.not_mem_of_isIdentifier hName (by decide))
    " is declared but its value is never read.".toList
  have hMessage : (unusedBinding file binding).message =
      ('\'' :: binding.name ++ ['\'']) ++ " is declared but its value is never read.".toList := by
    rw [List.append_assoc]
    rfl
  rw [← hMessage] at hFound
  obtain ⟨found, hHead, hText⟩ := Option.map_eq_some_iff.mp hFound
  unfold isTemplateUsage
  rw [hHead]
  dsimp only
  rw [hText]

theorem isTemplateUsage_unusedStatement {marker : WideText} {path text : Text}
    {usedNames : List Text} {range : Nat × Nat}
    (h : range ∈ (SourceFile.read marker path text).importRanges) :
    isTemplateUsage usedNames (some (SourceFile.read marker path text))
        (unusedStatement (SourceFile.read marker path text) range) =
      decide (∃ binding ∈ (SourceFile.read marker path text).bindingsAt range,
        binding.name ∈ usedNames) := by
  have hNone : (singleQuoted.readAll "All imports in import declaration are unused.").head? =
      none := by decide
  obtain ⟨a, ha, rfl⟩ := List.mem_map.mp (mem_distinct.mp h)
  unfold isTemplateUsage unusedStatement Diagnostic.error
  dsimp only
  rw [hNone]
  dsimp only
  rw [Bool.eq_iff_iff, List.any_eq_true, decide_eq_true_iff]
  refine exists_congr fun b => ?_
  rw [Bool.and_eq_true, Bool.and_eq_true, decide_eq_true_iff, decide_eq_true_iff,
    decide_eq_true_iff, Int.ofNat_le, Int.ofNat_lt, SourceFile.bindingsAt, List.mem_filter,
    decide_eq_true_iff]
  constructor
  · rintro ⟨hb, ⟨hStart, hStop⟩, hUsed⟩
    exact ⟨⟨hb, SourceFile.range_eq_of_covers ha hb hStart hStop⟩, hUsed⟩
  · rintro ⟨⟨hb, hRange⟩, hUsed⟩
    obtain ⟨hStart, hStop⟩ := Prod.mk.inj hRange
    refine ⟨hb, ⟨Nat.le_of_eq hStart, ?_⟩, hUsed⟩
    rw [hStop]
    exact SourceFile.start_lt_stop_of_mem_imports ha

/-- What the suppression leaves of the reports about one statement. -/
theorem filter_unusedInStatement {registry : Registry} {file : SourceFile}
    (h : registry.Reflects file)
    (hNames : ∀ binding ∈ file.imports, binding.name.isIdentifier = true) {range : Nat × Nat}
    (hRange : range ∈ file.importRanges) :
    (unusedInStatement file file.path file.usedIdentifiers range (file.bindingsAt range)).filter
        (fun d => !isTemplateUsage (registry.usedNames file.path) (some file) d) =
      statementReports file range := by
  obtain ⟨marker, hRead⟩ := h.read
  have hWhole :
      isTemplateUsage (registry.usedNames file.path) (some file) (unusedStatement file range) =
      decide (∃ binding ∈ file.bindingsAt range, binding.name ∈ file.templateNames) := by
    simp only [← h.mem_usedNames_iff]
    rw [hRead] at hRange ⊢
    exact isTemplateUsage_unusedStatement hRange
  have hSingle : ∀ binding ∈ file.bindingsAt range,
      (!isTemplateUsage (registry.usedNames file.path) (some file) (unusedBinding file binding)) =
        decide (binding.name ∉ file.templateNames) := by
    intro binding hBinding
    have hMem := (List.mem_filter.mp hBinding).1
    rw [isTemplateUsage_unusedBinding (hNames binding hMem), ← decide_not]
    exact decide_eq_decide.mpr h.mem_usedNames_iff.not
  have hLength : (file.unusedAt range).length = (file.bindingsAt range).length ↔
      file.unusedAt range = file.bindingsAt range := List.filter_sublist.length_eq
  unfold unusedInStatement statementReports
  dsimp only
  rw [← SourceFile.unusedAt]
  by_cases hAll : file.unusedAt range = file.bindingsAt range ∧ 2 ≤ (file.bindingsAt range).length
  · rw [if_pos ⟨hLength.mpr hAll.1, hAll.2⟩, if_pos hAll]
    show List.filter _ [unusedStatement file range] = _
    rw [List.filter_singleton, hWhole]
    split_ifs with hUsed
    · rw [decide_eq_true hUsed]
      rfl
    · rw [decide_eq_false hUsed]
      rfl
  · rw [if_neg fun hBoth => hAll ⟨hLength.mp hBoth.1, hBoth.2⟩, if_neg hAll]
    show List.filter _ (List.map (unusedBinding file) _) = _
    rw [List.filter_map]
    refine congrArg _ (List.filter_congr fun binding hBinding => ?_)
    exact hSingle binding (List.mem_filter.mp hBinding).1

/-! ## Files -/

theorem isTemplateUsage_nil (file : Option SourceFile) (d : Diagnostic) :
    isTemplateUsage [] file d = false := by
  unfold isTemplateUsage
  split
  · rfl
  · split
    · exact List.any_eq_false.mpr fun binding _ => by simp
    · rfl

/-- The suppression looks at nothing but the usage by templates in reports of the host
about a file. -/
theorem suppressUnusedImports_eq {registry : Registry} {program : Program} {path : Text}
    {reports : List Diagnostic}
    (h : ∀ d ∈ reports, d.filePath = some path ∧ d.isHostReport = true) :
    suppressUnusedImports registry program path reports =
      reports.filter fun d =>
        !isTemplateUsage (registry.usedNames path) (program.file? path) d := by
  unfold suppressUnusedImports
  dsimp only
  split_ifs with hNone
  · rw [hNone]
    exact (List.filter_eq_self.mpr fun d _ => by rw [isTemplateUsage_nil]; rfl).symm
  · refine List.filter_congr fun d hd => congrArg _ ?_
    obtain ⟨hPath, hHost⟩ := h d hd
    rw [isSuppressed, decide_eq_true hPath, Bool.true_and]
    exact (congrArg (· && _) hHost).trans (Bool.true_and _)

theorem isHostReport_of_mem_findUnusedImports {program : Program} {path : Text} {d : Diagnostic}
    (h : d ∈ findUnusedImports program path) : d.isHostReport = true := by
  obtain ⟨-, hCode | hCode⟩ := of_mem_findUnusedImports h
  · rw [Diagnostic.isHostReport, hCode]
    rfl
  · rw [Diagnostic.isHostReport, hCode]
    rfl

/-- What the suppression leaves of the reports of the host about one file. -/
theorem suppressUnusedImports_findUnusedImports {registry : Registry} {program : Program}
    {file : SourceFile} (h : registry.Reflects file) (hFile : program.file? file.path = some file)
    (hNames : ∀ binding ∈ file.imports, binding.name.isIdentifier = true) :
    suppressUnusedImports registry program file.path (findUnusedImports program file.path) =
      file.importRanges.flatMap (statementReports file) := by
  rw [suppressUnusedImports_eq fun d hd =>
    ⟨(of_mem_findUnusedImports hd).1, isHostReport_of_mem_findUnusedImports hd⟩]
  unfold findUnusedImports
  rw [hFile]
  dsimp only
  rw [SourceFile.importStatements_eq, OrderedMap.tabulate, List.flatMap_map, List.filter_flatMap]
  exact List.flatMap_congr fun range hRange => filter_unusedInStatement h hNames hRange

theorem isHostReport_of_mem_findings {context : CheckContext} {path : Text} {d : Diagnostic}
    (h : d ∈ findings context path) : d.isHostReport = false := by
  rcases List.mem_append.mp h with hUsages | h
  · exact isHostReport_of_mem_finds (show d ∈ StageKind.imports.finds context path from hUsages)
  · rcases List.mem_append.mp h with hNames | h
    · exact isHostReport_of_mem_finds (show d ∈ StageKind.names.finds context path from hNames)
    · rcases List.mem_append.mp h with hProps | hTypes
      · exact isHostReport_of_mem_finds (show d ∈ StageKind.props.finds context path from hProps)
      · exact isHostReport_of_mem_finds (show d ∈ StageKind.types.finds context path from hTypes)

theorem Diagnostic.isHostReport_locate (program : Program) (d : Diagnostic) :
    (d.locate program).isHostReport = d.isHostReport :=
  Diagnostic.apply_locate (f := Diagnostic.isHostReport) (fun _ _ _ => rfl) program d

/-- The reports of the host in the turn of a file are those that the suppression leaves. -/
theorem filter_isHostReport_turn {context : CheckContext} {path : Text} {reports : List Diagnostic}
    (h : ∀ d ∈ reports, d.isHostReport = true) :
    (turn context reports path).filter (·.isHostReport) =
      suppressUnusedImports context.registry context.program path reports := by
  have hFindings : (findings context path).filter (·.isHostReport) = [] :=
    List.filter_eq_nil_iff.mpr fun d hd => by
      rw [isHostReport_of_mem_findings hd]; exact Bool.false_ne_true
  unfold turn
  rw [List.filter_append, hFindings, List.append_nil, suppressUnusedImports_eq_filter]
  exact List.filter_eq_self.mpr fun d hd => h d (List.mem_filter.mp hd).1

/-! ## Programs -/

/-- For every program that asks for reports about unused imports and binds identifiers only:
the reports with the two codes that carry the path of a file are, in order and located,
those about its import statements, one statement after the other, and every report with
these codes carries the path of a file. -/
theorem unusedImports_exact (config : Config) (files : List (Text × Text)) (registry : Registry)
    (hReport : config.reportUnusedImports = true)
    (hNames : ∀ file ∈ (Program.ofFiles config files).sourceFiles, ∀ binding ∈ file.imports,
      binding.name.isIdentifier = true) :
    let program := Program.ofFiles config files
    let found := (checkProgram program (registry.populate program)).diagnostics
    (∀ file ∈ program.sourceFiles,
      (found.filter fun d => d.isHostReport && d.isIn file.path) =
        (file.importRanges.flatMap (statementReports file)).map (Diagnostic.locate program)) ∧
    ∀ d ∈ found, d.isHostReport = true → ∃ file ∈ program.sourceFiles, d.isIn file.path = true := by
  intro program found
  have hProgram : program.WellFormed := Program.wellFormed_ofFiles config files
  refine ⟨fun file hFile => ?_, fun d hd _ => ?_⟩
  · have hReports : hostReports program file.path = findUnusedImports program file.path := by
      rw [hostReports, Program.config_ofFiles, if_pos hReport]
    have hLocate : (·.isHostReport) ∘ Diagnostic.locate program = fun d : Diagnostic =>
        d.isHostReport :=
      funext (Diagnostic.isHostReport_locate program)
    rw [← List.filter_filter]
    show ((checkProgram program (registry.populate program)).diagnostics.filter
        (Diagnostic.isIn file.path)).filter
      (·.isHostReport) = _
    rw [checkProgram_populate, diagnostics_runPipeline, Diagnostic.filter_isIn_map_locate]
    show ((((CheckContext.filled program registry).filePaths.foldl (turn (.filled program registry))
      (hostDiagnostics program)).filter (Diagnostic.isIn file.path)).map
        (Diagnostic.locate program)).filter
        (·.isHostReport) = _
    rw [filter_foldl_turn_populate hProgram registry hFile, List.filter_map, hLocate, hReports,
      filter_isHostReport_turn fun d => isHostReport_of_mem_findUnusedImports]
    exact congrArg _ (suppressUnusedImports_findUnusedImports
      (Registry.reflects_populate hProgram registry hFile)
      (hProgram.file?_path hFile) (hNames file hFile))
  · obtain ⟨file, hFile, hPath⟩ := exists_file_of_mem_checkProgram hProgram registry hd
    exact ⟨file, hFile, Diagnostic.isIn_iff.mpr hPath⟩

theorem unusedImports_exact_threeStatements :
    let text : Text :=
      "import {A,B} from 'm'\nimport {C,D} from 'n'\nimport E from 'o'\nhtml`<A/>`"
    let program := Program.ofFiles {} [("a.ts", text)]
    (((checkProgram program (Registry.empty.populate program)).diagnostics.filter fun d =>
      d.isHostReport && d.isIn "a.ts").map fun d => (d.code, d.start)) = [(6192, some 22),
      (6133, some 51)] := by
  intro text program
  have hFound := (unusedImports_exact {} [("a.ts", text)] Registry.empty rfl (by decide +kernel)).1
    (.read (WideText.ofText "html") "a.ts" text) (by decide +kernel)
  exact (congrArg (List.map fun d : Diagnostic => (d.code, d.start)) hFound).trans
    (by decide +kernel)

end TemplateCheck
