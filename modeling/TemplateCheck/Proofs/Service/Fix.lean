import TemplateCheck.Proofs.Check.Unresolved
import TemplateCheck.Proofs.Markup.Cursor
import TemplateCheck.Proofs.Path.Characters
import TemplateCheck.Proofs.Service.Edits
import TemplateCheck.Proofs.Service.ImportLine

/-!
# What a quick fix repairs

A component tag is reported as not imported as long as no import binds its name
(`exists_of_mem_diagnostics`). The fix for such a report writes the import line of a registered
component, so once it is made the file imports the name and the report is gone, while all imports of
the file stay (`Session.codeFixes_apply`).
-/

namespace TemplateCheck

/-! ## Making changes -/

/-- The text with a change made in it. -/
def TextChange.apply (change : TextChange) (t : Text) : Text :=
  t.take change.start ++ (change.newText ++ t.drop (change.start + change.length))

/-- The text with the changes of a fix made in it, the last one first. -/
def CodeFix.apply (fix : CodeFix) (t : Text) : Text := fix.changes.foldr TextChange.apply t

/-- The fix writes the import line where the imports of the file end. -/
theorem CodeFix.apply_importing {marker : WideText} {path text : Text} {file : SourceFile}
    (hFile : file = SourceFile.read marker path text) (component : Component) :
    (CodeFix.importing file component).apply file.text =
      file.withLine (importLine component.name (Path.specifier file.path component.filePath)) := by
  have hEnds := SourceFile.exists_endsWith marker path text
  rw [← hFile] at hEnds
  have hBreak :
      (if file.importInsertion = 0 ∨
        file.text[file.importInsertion - 1]? = some '\n' then [] else ['\n']) =
      (if file.importInsertion = 0 then [] else ['\n'] : Text) := by
    rcases hEnds with ⟨-, hZero⟩ | ⟨found, last, front, source, ending, quote, h⟩
    · rw [if_pos (.inl hZero), if_pos hZero]
    · rw [if_neg (not_or.mpr ⟨h.importInsertion_ne_zero, h.getElem?_ne⟩),
        if_neg h.importInsertion_ne_zero]
  rw [SourceFile.withLine, ← hBreak, ← List.append_assoc _ _ (file.text.drop _)]
  rfl

/-! ## Reports about missing imports -/

theorem notImportedName?_eq {name : Text} (h : '>' ∉ name) :
    notImportedName? ("Component <" ++ name ++ "> is used in template but not imported.") =
      some name := by
  have hMessage : ("Component <" ++ name ++ "> is used in template but not imported." : Text) =
      "Component <".toList ++ (name ++ "> is used in template but not imported.".toList) :=
        List.append_assoc _ _ _
  have hName : Text.upTo '>' (name ++ "> is used in template but not imported.".toList) = name := by
    rw [Text.upTo_append h]
    exact List.append_nil name
  rw [notImportedName?, hMessage, Text.dropStart?_append]
  show ((Text.dropStart? "> is used in template but not imported"
      ((name ++ "> is used in template but not imported.".toList).drop
        (Text.upTo '>' _).length)).bind fun _ => some (Text.upTo '>' _)) = some name
  rw [hName, List.drop_left]
  rfl

/-- Of all checks, only that of usages reports missing imports. -/
theorem mem_checkUsages_of_mem_findings {context : CheckContext} {path : Text} {d : Diagnostic}
    (h : d ∈ findings context path) (hCode : d.code = DiagnosticCode.notImported.number) :
    d ∈ checkUsages context.registry context.program path := by
  have hContract (hAbout : d.isAboutContract = true) : False := by
    rw [Diagnostic.isAboutContract, hCode] at hAbout
    revert hAbout
    decide
  unfold findings at h
  simp only [List.mem_append] at h
  rcases h with h | (h | h) | ((h | h) | h) | h
  · exact h
  · obtain ⟨component, -, rfl⟩ := List.mem_map.mp h
    cases hCode
  · obtain ⟨component, -, rfl⟩ := List.mem_map.mp h
    cases hCode
  · exact (hContract (isAboutContract_of_mem_checkRequiredProps h)).elim
  · exact (hContract (isAboutContract_of_mem_checkUnknownAttributes h)).elim
  · obtain ⟨⟨scan, tag⟩, -, h⟩ := List.mem_flatMap.mp h
    obtain ⟨attr, -, rfl⟩ := List.mem_map.mp h
    cases hCode
  · exact (hContract (isAboutContract_of_mem_checkBindingTypes h)).elim

/-- The check of usages reports a missing import of the name of a component tag that the
file does not import. -/
theorem exists_of_mem_checkUsages {registry : Registry} {program : Program} {file : SourceFile}
    {d : Diagnostic} (hFile : program.file? file.path = some file)
    (hScan : registry.scan? file.path = some (FileScan.ofFile file))
    (h : d ∈ checkUsages registry program file.path)
    (hCode : d.code = DiagnosticCode.notImported.number) :
    ∃ name, isComponentName name = true ∧
    notImportedName? d.message = some name ∧ file.importFor? name = none := by
  rw [checkUsages, hFile] at h
  obtain ⟨used, hUsed, hError⟩ := List.mem_filterMap.mp h
  rw [Registry.usedIn, hScan] at hUsed
  obtain ⟨template, -, hIn⟩ := exists_usedIn_of_mem_used hUsed
  obtain ⟨tag, -, hComponent, hName, -⟩ := exists_tag_of_mem_usedIn hIn
  rw [usageError?] at hError
  split_ifs at hError with hUnknown hMissing
  · rw [← Option.some.inj hError] at hCode
    cases hCode
  · obtain ⟨hNone, -⟩ := hMissing
    rw [← Option.some.inj hError]
    refine ⟨used.name, hName ▸ hComponent, notImportedName?_eq ?_,
      Option.isNone_iff_eq_none.mp hNone⟩
    rw [hName]
    exact not_mem_of_isComponent hComponent

theorem Session.exists_of_mem_diagnostics {session : Session} {m : Registry.Publications}
    (hHolds : session.Holds m) {path : Text} {file : SourceFile}
    (hFile : session.program.file? path = some file) {d : Diagnostic}
    (h : d ∈ session.diagnostics path (some []))
    (hCode : d.code = DiagnosticCode.notImported.number) :
    ∃ name, isComponentName name = true ∧
    notImportedName? d.message = some name ∧ file.importFor? name = none := by
  obtain ⟨hSource, -⟩ := hHolds.wellFormed.of_file?_eq_some hFile
  rw [Session.diagnostics_eq hFile] at h
  obtain ⟨found, hFound, rfl⟩ := List.mem_map.mp h
  rw [Diagnostic.apply_locate (f := Diagnostic.code) (fun _ _ _ => rfl)] at hCode
  rw [Diagnostic.apply_locate (f := Diagnostic.message) (fun _ _ _ => rfl)]
  rcases List.mem_append.mp hFound with hHost | hFound
  · cases mem_of_mem_suppressUnusedImports hHost
  · exact exists_of_mem_checkUsages (hHolds.wellFormed.file?_path hSource)
      (Registry.scan?_eq hHolds.scans_eq hHolds.wellFormed hSource)
      (mem_checkUsages_of_mem_findings hFound hCode) hCode

/-! ## Fixes -/

theorem exists_boundName_of_isComponentName {name : Text} (h : isComponentName name = true) :
    ∃ bound : BoundName, bound.text = name := by
  obtain ⟨c, later, rfl, hUpper, hLater⟩ := exists_cons_of_isComponentName h
  have hStart : isNameStart c = true := by
    have hAlpha : isAsciiLetter c = true := isAlpha_of_isUpper hUpper
    rw [isNameStart, hAlpha, Bool.true_or, Bool.true_or]
  have hName : ∀ d ∈ later, isNameChar d = true := fun d hd => by
    rw [isNameChar, isAlphanumeric_of_isAlphanum (hLater d hd), Bool.true_or, Bool.true_or]
  have hNoWord : c :: later ∉ ["type".toList, "as".toList, "from".toList] := by
    have hSmall : ∀ word ∈ ["type".toList, "as".toList, "from".toList], ∀ d ∈ word.head?,
        d.isUpper = false := by decide
    exact fun hMem => ne_of_class hUpper (hSmall _ hMem c rfl) rfl
  exact ⟨⟨c :: later, Bool.and_eq_true_iff.mpr ⟨hStart, List.all_eq_true.mpr hName⟩, hNoWord⟩, rfl⟩

/-- Every fix imports the registered component that a report on the file misses. -/
theorem Session.exists_of_mem_codeFixes {session : Session} {path : Text} {file : SourceFile}
    (hFile : session.program.file? path = some file) {start stop : Int} {codes : List Int}
    {fix : CodeFix} (h : fix ∈ session.codeFixes path start stop codes) :
    ∃ component, session.registry.find? component.name = some component ∧
      fix = CodeFix.importing file component ∧ ∃ d ∈ session.diagnostics path (some []),
        d.code = DiagnosticCode.notImported.number ∧
        notImportedName? d.message = some component.name := by
  unfold codeFixes at h
  split_ifs at h
  · rw [hFile] at h
    obtain ⟨component, hComponent, rfl⟩ := List.mem_map.mp h
    obtain ⟨name, hName, hFind⟩ := List.mem_filterMap.mp hComponent
    obtain ⟨d, hd, hMissing⟩ := List.mem_filterMap.mp (mem_distinct.mp hName)
    have hNamed := List.find?_some (p := fun other : Component => decide (other.name = name)) hFind
    obtain rfl : component.name = name := of_decide_eq_true hNamed
    refine ⟨component, hFind, rfl, d, hd, ?_⟩
    split at hMissing
    · split_ifs at hMissing with hCovers
      exact ⟨hCovers.1, hMissing⟩
    · cases hMissing
  · cases h

/-- After the text change of a fix is made in the file, the component is no longer reported as not
imported, and all that the file imported before it still imports. The import statements of the file
have nothing but names, commas, braces, stars and blanks between their words, and the path of the
component holds no quote and no line break. -/
theorem Session.codeFixes_apply (config : Config) (files : List (Text × Text)) {path : Text}
    {file : SourceFile} (hFile : (Program.ofFiles config files).file? path = some file)
    (hPlain : ∀ binding ∈ file.imports, binding.IsPlain file.text) (start stop : Int)
    (codes : List Int) {fix : CodeFix}
    (hFix : fix ∈ (Session.start (Program.ofFiles config files)).codeFixes path start stop codes) :
    let session := Session.start (Program.ofFiles config files)
    ∃ component, session.registry.find? component.name = some component ∧
      fix = CodeFix.importing file component ∧
      ((∀ c ∈ component.filePath, c ∉ ['"', '\'', '\n']) →
        let updated := session.updateFile path (fix.apply file.text)
        (∀ d ∈ updated.diagnostics path (some []), d.code = DiagnosticCode.notImported.number →
          notImportedName? d.message ≠ some component.name) ∧
        ∃ file', updated.program.file? path = some file' ∧ ∀ binding ∈ file.imports,
          ∃ binding' ∈ file'.imports, binding'.name = binding.name ∧
            binding'.source = binding.source) := by
  intro session
  have hHolds := holds_start (Program.wellFormed_ofFiles config files)
  obtain ⟨component, hFind, rfl, d, hd, hCode, hMissing⟩ := exists_of_mem_codeFixes hFile hFix
  refine ⟨component, hFind, rfl, fun hPath => ?_⟩
  intro updated
  obtain ⟨hSource, hFilePath⟩ := hHolds.wellFormed.of_file?_eq_some hFile
  have hRead := hHolds.wellFormed.read_path hSource
  have hUpdated := hHolds.updateFile path ((CodeFix.importing file component).apply file.text)
  have hFile' : updated.program.file? path =
      some (SourceFile.read session.program.config.templateTag file.path
      ((CodeFix.importing file component).apply file.text)) := by
    rw [hFilePath]
    show OrderedMap.get? (session.updateFile path _).program.files (Path.normalize path) = _
    rw [updateFile_eq, Program.addFile_files, OrderedMap.get?_put_self]
  -- The reported name is that of a component tag, so the import line can bind it.
  obtain ⟨name, hName, hSame, -⟩ := exists_of_mem_diagnostics hHolds hFile hd hCode
  obtain rfl : component.name = name := Option.some.inj (hMissing.symm.trans hSame)
  obtain ⟨bound, hBound⟩ := exists_boundName_of_isComponentName hName
  have hFits : ∀ c ∈ Path.specifier file.path component.filePath,
      Pattern.noneOf ['"', '\'', '\n'] c = true :=
    Path.forall_specifier (by decide) (by decide)
      (fun c hc => decide_eq_true (hPath c hc)) file.path
  obtain ⟨hLine, hKept⟩ :=
    SourceFile.imports_withLine hRead bound (Path.specifier_ne_nil _ _) hFits hPlain
  rw [hBound, ← CodeFix.apply_importing hRead component] at hLine hKept
  constructor
  · intro d hd hCode hMissing
    obtain ⟨name, -, hSame, hNone⟩ := exists_of_mem_diagnostics hUpdated hFile' hd hCode
    obtain rfl : component.name = name := Option.some.inj (hMissing.symm.trans hSame)
    obtain ⟨binding, hBinding, hContent⟩ := List.mem_map.mp hLine
    have hOther := List.find?_eq_none.mp hNone binding hBinding
    exact hOther (decide_eq_true (congrArg (·.1) hContent))
  · refine ⟨_, hFile', fun binding hBinding => ?_⟩
    obtain ⟨binding', hBinding', hContent⟩ := List.mem_map.mp (hKept (List.mem_map_of_mem hBinding))
    exact ⟨binding', hBinding', congrArg (·.1) hContent, congrArg (·.2.2.2) hContent⟩

/-- The fix for a component in another file, where one import stands in the file before. -/
theorem Session.codeFixes_apply_card :
    let session := Session.start (Program.ofFiles {}
      [("card.ts", "import {C} from '@neuralfog/elemix';class Card extends C {}"),
        ("view.ts", "import { D } from './d' ;\nhtml`<Card/>`")])
    let updated := session.updateFile "view.ts"
      "import { D } from './d' ;\nimport { Card } from './card';\nhtml`<Card/>`"
    (session.codeFixes "view.ts" 32 36 [9999]).map (·.description) =
      ["Import component Card".toList] ∧
      (∀ d ∈ updated.diagnostics "view.ts" (some []), d.code = DiagnosticCode.notImported.number →
        notImportedName? d.message ≠ some "Card".toList) ∧
      ∃ file', updated.program.file? "view.ts" = some file' ∧
        ∃ binding' ∈ file'.imports, binding'.name = "D".toList ∧
          binding'.source = "./d".toList := by
  intro session updated
  let view : Text := "import { D } from './d' ;\nhtml`<Card/>`"
  let file := SourceFile.read (.ofText "html") "view.ts" view
  let fix : CodeFix := ⟨"importComponent", "Import component Card", "view.ts",
    [⟨25, 0, "\nimport { Card } from './card';"⟩]⟩
  have hImports : file.imports =
      [⟨"D", "./d", "view.ts", 1, .named, none, 0, 25⟩] := by decide +kernel
  have hPlain : ∀ binding ∈ file.imports, binding.IsPlain file.text := by
    rw [hImports, List.forall_mem_singleton]
    exact ⟨" { D } ", " ", " ;", '\'', by decide, by decide +kernel, by decide +kernel,
      by decide +kernel, by decide +kernel⟩
  have hFixes : session.codeFixes "view.ts" 32 36 [9999] = [fix] := by decide +kernel
  obtain ⟨component, hFind, hFix, hApply⟩ := Session.codeFixes_apply {}
    [("card.ts", "import {C} from '@neuralfog/elemix';class Card extends C {}"), ("view.ts", view)]
    (show (Program.ofFiles {} _).file? "view.ts" = some file by decide +kernel) hPlain 32 36 [9999]
    (show fix ∈ session.codeFixes _ _ _ _ from hFixes ▸ List.mem_singleton_self fix)
  have hName : component.name = "Card" := by
    have hDescription := congrArg CodeFix.description hFix
    exact (List.append_cancel_left (show "Import component ".toList ++ "Card".toList =
      _ from hDescription)).symm
  have hPath : ∀ c ∈ component.filePath, c ∉ ['"', '\'', '\n'] := by
    have hAll : ∀ other ∈ session.registry.components, ∀ c ∈ other.filePath,
        c ∉ ['"', '\'', '\n'] := by
      decide +kernel
    exact hAll component (List.mem_of_find?_eq_some hFind)
  have hText : fix.apply file.text =
      "import { D } from './d' ;\nimport { Card } from './card';\nhtml`<Card/>`" := by
        decide +kernel
  obtain ⟨hNone, file', hFile', hKept⟩ := hApply hPath
  rw [hText] at hNone hFile'
  rw [hName] at hNone
  obtain ⟨binding', hBinding', hSame⟩ := hKept _ (hImports ▸ List.mem_singleton_self _)
  exact ⟨by rw [hFixes]; rfl, hNone, file', hFile', binding', hBinding', hSame⟩

end TemplateCheck
