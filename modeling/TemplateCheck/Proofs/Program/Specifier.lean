import TemplateCheck.Proofs.Path.Relative
import TemplateCheck.Proofs.Pattern.Preference
import TemplateCheck.Proofs.Pattern.Replace
import TemplateCheck.Proofs.Program

/-!
# Module specifiers

The specifier by which one file of a program imports another denotes that file
(`Program.module?_specifier`). It is the way to the path without its extension, which is taken off
the last name alone (`Path.replaceAll_moduleExtension`), so from the directory of the importing file
it leads to that path (`Path.base_specifier`). There the module is looked for under the bare path,
then with `.ts`, then with `.tsx`.

If the imported file itself is the directory of the importing file or one above it, the way only
goes up, there is no name to take the extension from, and the specifier leads to the path as it is.
-/

namespace TemplateCheck

namespace Path

open Pattern

/-! ## The extension of a script module -/

/-- The extensions that a typed module has. -/
def IsTyped (extension : Text) : Prop := extension = ".ts" ∨ extension = ".tsx"

theorem exists_of_moduleExtension {a b : Cursor Unit} (h : moduleExtension.Reads a b) :
    ∃ c ending, a.rest = '.' :: c :: 's' :: ending ∧ ending ∈ [[], ['x'], ['\n'], ['x', '\n']] := by
  obtain ⟨a₁, hPoint, h⟩ := h.seq_inv
  obtain ⟨a₂, hLetter, h⟩ := h.seq_inv
  obtain ⟨a₃, hScript, h⟩ := h.seq_inv
  obtain ⟨a₄, hMarkup, h⟩ := h.seq_inv
  obtain ⟨a₅, hEnd, -⟩ := h.seq_inv
  obtain ⟨-, hLast⟩ := hEnd.rest_of_atEnd
  have hEnding : a₃.rest ∈ [[], ['x'], ['\n'], ['x', '\n']] := by
    rcases hMarkup.opt_inv with hMarkup | rfl
    · rw [hMarkup.lit_inv.1]
      rcases hLast with h | h <;> rw [h] <;> decide
    · rcases hLast with h | h <;> rw [h] <;> decide
  cases hLetter with
  | @char _ _ c rest hRest _ =>
    refine ⟨c, a₃.rest, ?_, hEnding⟩
    rw [hPoint.lit_inv.1, hRest, show rest = ['s'] ++ a₃.rest from hScript.lit_inv.1]
    rfl

/-- No extension is read in front of the one at the end. -/
theorem rejects_moduleExtension {extension : Text} (hExtension : IsTyped extension) (c : Char)
    (after : Text) :
    moduleExtension.Rejects (c :: (after ++ extension)) := by
  refine .of_not_reads fun a b hRest hReads => ?_
  obtain ⟨d, ending, hText, hEnding⟩ := exists_of_moduleExtension hReads
  rw [hRest] at hText
  have hLength := congrArg List.length hText
  have hLast := congrArg List.getLast? hText
  simp only [List.mem_cons, List.not_mem_nil, or_false] at hEnding
  rcases hExtension with rfl | rfl <;> rcases hEnding with rfl | rfl | rfl | rfl <;>
    simp [List.getLast?_cons, List.getLast?_append] at hLength hLast

theorem prefers_atEnd {ι : Type} : (atEnd : Pattern ι).Prefers [] [] [] := fun cursor hRest =>
  ⟨cursor, hRest, rfl, rfl, fun _ _ hNext => (if_pos (by rw [hRest]; rfl)).trans hNext⟩

theorem prefers_moduleExtension {extension : Text} (hExtension : IsTyped extension) :
    moduleExtension.Prefers extension [] [] := by
  have hMarkup : (opt (lit ['x']) : Pattern Unit).Prefers (extension.drop 3) [] [] := by
    rcases hExtension with rfl | rfl
    · exact .opt_of_rejects (.lit [] (by simp))
    · exact (Prefers.lit ['x'] []).opt
  have hText : extension = ['.'] ++ 't' :: (['s'] ++ extension.drop 3) := by
    rcases hExtension with rfl | rfl <;> rfl
  have hEnd := hMarkup.seq (prefers_atEnd.seq (.empty []))
  rw [hText]
  exact (Prefers.lit ['.'] _).seq
    ((Prefers.char (by decide) _).seq ((Prefers.lit ['s'] _).seq hEnd))

theorem replaceAll_moduleExtension {extension : Text} (hExtension : IsTyped extension) (t : Text) :
    moduleExtension.replaceAll [] (t ++ extension) = t := by
  have hPrefers : moduleExtension.Prefers (extension ++ []) [] [] := by
    rw [List.append_nil]
    exact prefers_moduleExtension hExtension
  obtain ⟨d, hEnd⟩ : ∃ d, extension.getLast? = some d := by
    rcases hExtension with rfl | rfl <;> exact ⟨_, rfl⟩
  obtain ⟨captures, -, hFound⟩ := hPrefers.readAllFrom_eq hEnd (t.getLast?.or none) (0 + t.length)
  have hReadAll : moduleExtension.readAll (t ++ extension) =
      [⟨t.length, t.length + extension.length, captures⟩] := by
    rw [readAll, readAllFrom_append fun _ c after _ => rejects_moduleExtension hExtension c after]
    rw [List.append_nil] at hFound
    rw [hFound, Nat.zero_add]
    rfl
  have hBefore : Text.slice (t ++ extension) 0 t.length = t := by
    rw [Text.slice, List.drop_zero, Nat.sub_zero, List.take_left]
  have hAfter : (t ++ extension).drop (t.length + extension.length) = [] := by
    rw [← List.length_append, List.drop_length]
  rw [replaceAll, hReadAll, replaceAll.go, replaceAll.go, hBefore, hAfter, List.append_nil,
    List.append_nil]

/-- A path without the letter of every script extension stays as it is. -/
theorem replaceAll_moduleExtension_of_not_mem {t : Text} (h : 's' ∉ t) :
    moduleExtension.replaceAll [] t = t := by
  refine replaceAll_eq_self (readAllFrom_eq_nil (fun before c after hText => ?_) none 0)
  refine .of_not_reads fun a b hRest hReads => h ?_
  obtain ⟨d, ending, hHere, -⟩ := exists_of_moduleExtension hReads
  rw [hText, ← hRest, hHere]
  simp

/-! ## Where a specifier leads -/

/-- A way made of segments, with a step to the directory itself in front where the way does not show
that it is relative. -/
theorem exists_relative_join {way : List Text} (hWay : way ≠ []) : ∃ segments,
    (segments = way ∨ segments = ['.'] :: way) ∧ (Text.join ['/'] segments).head? = some '.' ∧
      (if (Text.join ['/'] way).head? = some '.' then Text.join ['/'] way
        else "./" ++ Text.join ['/'] way) =
        Text.join ['/'] segments := by
  by_cases hHead : (Text.join ['/'] way).head? = some '.'
  · exact ⟨way, .inl rfl, hHead, if_pos hHead⟩
  · refine ⟨['.'] :: way, .inr rfl, ?_, ?_⟩
    · rw [Text.join_cons _ hWay]
      rfl
    · rw [if_neg hHead, Text.join_cons _ hWay]
      rfl

variable {rooted : Bool} {base names : List Text}

theorem normalize_append_way (hBase : ∀ name ∈ base, IsName name) {way segments : List Text}
    (hWay : way ≠ []) (hEmpty : ∀ s ∈ way, s ≠ []) (hSlash : ∀ s ∈ way, '/' ∉ s)
    (hSegments : segments = way ∨ segments = ['.'] :: way) :
    normalize (append (spell rooted base) (Text.join ['/'] segments)) =
      normal rooted (way.foldl (enter rooted) base.reverse).reverse := by
  rcases hSegments with rfl | rfl
  · exact normalize_append_join hBase hWay hEmpty hSlash rooted
  · exact normalize_append_join hBase (List.cons_ne_nil _ way)
      (List.forall_mem_cons.mpr ⟨by decide, hEmpty⟩)
      (List.forall_mem_cons.mpr ⟨by decide, hSlash⟩) rooted

/-- The way to a normal path goes up over the names that are not shared and down to the other path;
it is a point if it has no steps. -/
theorem relative_normal (hNames : ∀ name ∈ names, IsName name) (hBase : ∀ name ∈ base, IsName name)
    (rooted : Bool) : ∃ shared up down way, base = shared ++ up ∧ names = shared ++ down ∧
      relative (normal rooted names) (normal rooted base) = Text.join ['/'] way ∧
      (way = List.replicate up.length ['.', '.'] ++ down ∧ way ≠ [] ∨ way = [['.']] ∧
        up = [] ∧ down = []) := by
  obtain ⟨shared, hUp, hDown⟩ := exists_shared base names
  have hRelative : relative (normal rooted names) (normal rooted base) =
      if List.replicate (dropShared base names).1.length ['.', '.'] ++
        (dropShared base names).2 = [] then ['.']
      else Text.join ['/']
        (List.replicate (dropShared base names).1.length ['.', '.'] ++
          (dropShared base names).2) := by
    rw [relative, absoluteSegments_normal hNames, absoluteSegments_normal hBase]
  split_ifs at hRelative with hHere
  · obtain ⟨hNoUp, hNoDown⟩ := List.append_eq_nil_iff.mp hHere
    exact ⟨shared, _, _, [['.']], hUp, hDown, hRelative,
      .inr ⟨rfl, by simpa using hNoUp, hNoDown⟩⟩
  · exact ⟨shared, _, _, _, hUp, hDown, hRelative, .inl ⟨rfl, hHere⟩⟩

theorem not_mem_join_replicate (n : Nat) : 's' ∉ Text.join ['/'] (List.replicate n ['.', '.']) := by
  induction n with
  | zero => decide
  | succ n ih =>
    cases n with
    | zero => decide
    | succ n =>
      rw [List.replicate_succ, Text.join_cons _ (by simp)]
      simpa using ih

theorem join_concat_append (names : List Text) (name extension : Text) :
    Text.join ['/'] (names ++ [name ++ extension]) =
      Text.join ['/'] (names ++ [name]) ++ extension := by
  by_cases h : names = []
  · rw [h]
    rfl
  · rw [Text.join_concat h, Text.join_concat h, List.append_assoc, List.cons_append]

theorem normalize_append_specifier {xs way : List Text} {imported : Text}
    (hImporter : ∀ x ∈ xs, IsName x) (hWay : way ≠ []) (hEmpty : ∀ s ∈ way, s ≠ [])
    (hSlash : ∀ s ∈ way, '/' ∉ s)
    (hRelative : moduleExtension.replaceAll [] (relative imported (normal rooted xs.dropLast)) =
      Text.join ['/'] way) :
    (specifier (normal rooted xs) imported).head? = some '.' ∧
      normalize (append (directory (normal rooted xs)) (specifier (normal rooted xs) imported)) =
        normal rooted (way.foldl (enter rooted) xs.dropLast.reverse).reverse := by
  have hBase : ∀ x ∈ xs.dropLast, IsName x := fun x hx => hImporter x (List.dropLast_subset xs hx)
  obtain ⟨segments, hSegments, hHead, hJoin⟩ := exists_relative_join hWay
  have hSpecifier : specifier (normal rooted xs) imported = Text.join ['/'] segments := by
    rw [← hJoin, ← hRelative, specifier, directory_normal hImporter]
    rfl
  rw [hSpecifier, directory_normal hImporter]
  exact ⟨hHead, normalize_append_way hBase hWay hEmpty hSlash hSegments⟩

/-- From the directory of the importing file the specifier leads to the imported path without its
extension, or to the whole path if that is the directory itself or above it. -/
theorem base_specifier {extension name : Text} (hExtension : IsTyped extension) {xs : List Text}
    (hImporter : ∀ x ∈ xs, IsName x) (hNames : ∀ x ∈ names ++ [name], IsName x)
    (hImported : ∀ x ∈ names ++ [name ++ extension], IsName x) (rooted : Bool) :
    let way := specifier (normal rooted xs) (normal rooted (names ++ [name ++ extension]))
    way.head? = some '.' ∧
      (normalize (append (directory (normal rooted xs)) way) = normal rooted (names ++ [name]) ∨
        normalize (append (directory (normal rooted xs)) way) =
          normal rooted (names ++ [name ++ extension])) := by
  have hBase : ∀ x ∈ xs.dropLast, IsName x := fun x hx => hImporter x (List.dropLast_subset xs hx)
  obtain ⟨shared, up, down, way, hShared, hDown, hRelative, hWay⟩ :=
    relative_normal hImported hBase rooted
  have hUp : ∀ x ∈ up, IsName x :=
    fun x hx => hBase x (by rw [hShared]; exact List.mem_append_right shared hx)
  rcases List.eq_nil_or_concat down with rfl | ⟨before, last, rfl⟩
  · -- Only steps up: the imported path is the directory of the importing file or above it.
    rw [List.append_nil] at hDown
    have hUps : (∀ s ∈ way, s ≠ []) ∧ (∀ s ∈ way, '/' ∉ s) ∧ way ≠ [] ∧ 's' ∉ Text.join ['/'] way ∧
        way.foldl (enter rooted) xs.dropLast.reverse = shared.reverse := by
      rcases hWay with ⟨rfl, hNonempty⟩ | ⟨rfl, rfl, -⟩
      · obtain ⟨hEmpty, hSlash⟩ := forall_mem_steps (n := up.length) (List.forall_mem_nil IsName)
        refine ⟨hEmpty, hSlash, hNonempty, ?_, ?_⟩
        · rw [List.append_nil]
          exact not_mem_join_replicate up.length
        · rw [hShared, foldl_enter_steps hUp (by simp), List.append_nil]
      · refine ⟨by simp, by simp, by simp, by decide, ?_⟩
        rw [hShared, List.append_nil]
        rfl
    obtain ⟨hEmpty, hSlash, hNonempty, hScript, hFold⟩ := hUps
    have hReplaced := replaceAll_moduleExtension_of_not_mem hScript
    rw [← hRelative] at hReplaced
    obtain ⟨hHead, hLeads⟩ :=
      normalize_append_specifier hImporter hNonempty hEmpty hSlash (hReplaced.trans hRelative)
    refine ⟨hHead, .inr ?_⟩
    rw [hLeads, hFold, List.reverse_reverse, hDown]
  · -- The last name is the imported one, and its extension is taken off.
    rw [List.concat_eq_append] at hDown hWay
    rw [← List.append_assoc] at hDown
    obtain ⟨rfl, hLast⟩ := List.append_inj' hDown rfl
    obtain ⟨rfl, -⟩ := List.cons.inj hLast
    obtain ⟨rfl, -⟩ := hWay.resolve_right fun h => absurd h.2.2 (by simp)
    have hDown : ∀ x ∈ before ++ [name], IsName x := fun x hx => by
      refine hNames x ?_
      rw [List.append_assoc]
      exact List.mem_append_right shared hx
    have hReplaced := replaceAll_moduleExtension hExtension
      (Text.join ['/'] (List.replicate up.length ['.', '.'] ++ before ++ [name]))
    rw [← join_concat_append, List.append_assoc, List.append_assoc, ← hRelative] at hReplaced
    obtain ⟨hEmpty, hSlash⟩ := forall_mem_steps (n := up.length) hDown
    obtain ⟨hHead, hLeads⟩ := normalize_append_specifier hImporter (by simp) hEmpty hSlash hReplaced
    refine ⟨hHead, .inl ?_⟩
    rw [hLeads, hShared, foldl_enter_steps hUp hDown, List.reverse_reverse, List.append_assoc]

/-- The path without the extension has the same names but for the end of the last one. -/
theorem exists_names_of_typed {stem extension : Text} (hExtension : IsTyped extension)
    (hName : fileName stem ∉ [[], ['.'], ['.', '.']]) (hNames : ∀ x ∈ names, IsName x)
    (hPath : stem ++ extension = normal rooted names) : ∃ before,
      names = before ++ [fileName stem ++ extension] ∧ (∀ x ∈ before ++ [fileName stem], IsName x) ∧
        stem = normal rooted (before ++ [fileName stem]) := by
  have hSlash : '/' ∉ extension := by rcases hExtension with rfl | rfl <;> decide
  have hFile : fileName (stem ++ extension) = fileName stem ++ extension :=
    Text.afterLast_append hSlash stem
  rcases List.eq_nil_or_concat names with rfl | ⟨before, last, rfl⟩
  · have hLast := congrArg List.getLast? hPath
    rcases hExtension with rfl | rfl <;> cases rooted <;> simp [normal, spell, Text.join] at hLast
  rw [List.concat_eq_append] at hNames hPath ⊢
  obtain rfl : last = fileName stem ++ extension := by
    rw [← hFile, hPath, fileName_normal hNames]
  have hLast := hNames _ (List.mem_append_right before List.mem_cons_self)
  simp only [List.mem_cons, List.not_mem_nil, or_false, not_or] at hName
  have hStem : ∀ x ∈ before ++ [fileName stem], IsName x := by
    intro x hx
    rcases List.mem_append.mp hx with hx | hx
    · exact hNames x (List.mem_append_left _ hx)
    · obtain rfl := List.mem_singleton.mp hx
      exact ⟨hName.1, hName.2.1, hName.2.2, fun h => hLast.slash (List.mem_append_left extension h)⟩
  refine ⟨before, rfl, hStem, ?_⟩
  rw [normal_eq_spell (by simp) (forall_ne_nil hNames), spell, join_concat_append,
    ← List.append_assoc] at hPath
  rw [normal_eq_spell (by simp) (forall_ne_nil hStem)]
  exact List.append_cancel_right hPath

end Path

namespace Program

open TemplateCheck.Path

theorem WellFormed.get?_eq_some_iff {program : Program} (h : program.WellFormed) {path : Text}
    {file : SourceFile} :
    OrderedMap.get? program.files path = some file ↔ file ∈ program.sourceFiles ∧
    file.path = path := by
  rw [OrderedMap.get?_eq_some_iff h.nodup_keys]
  constructor
  · intro hEntry
    have hPath := h.path_eq hEntry
    dsimp only at hPath
    exact ⟨h.mem_sourceFiles_iff.mpr (hPath ▸ hEntry), hPath⟩
  · rintro ⟨hFile, rfl⟩
    exact h.mem_sourceFiles_iff.mp hFile

/-- A path ends as a compiled module only if its file name does. -/
theorem endsWith_of_fileName {path : Text} (h : Text.endsWith ".js" (fileName path) = false) :
    Text.endsWith ".js" path = false := by
  rw [← Bool.not_eq_true] at h ⊢
  intro hEnds
  obtain ⟨before, hBefore⟩ := Option.isSome_iff_exists.mp hEnds
  have hFile : fileName (before ++ ".js") = fileName before ++ ".js" :=
    Text.afterLast_append (by decide) before
  rw [Text.eq_append_of_dropEnd? hBefore, hFile, Text.endsWith, Text.dropEnd?_append] at h
  exact h rfl

theorem endsWith_of_isTyped {extension : Text} (h : IsTyped extension) (stem : Text) :
    Text.endsWith ".js" (stem ++ extension) = false := by
  rw [← Bool.not_eq_true]
  intro hEnds
  obtain ⟨before, hBefore⟩ := Option.isSome_iff_exists.mp hEnds
  have hEq := Text.eq_append_of_dropEnd? hBefore
  have hLast := congrArg (fun t : Text => t.reverse.take 2) hEq
  rcases h with rfl | rfl
  · simp at hLast
  · simp at hLast

theorem moduleCandidates_of_base {importer specifier base : Text}
    (hImporter : normalize importer = importer)
    (hBase : normalize (append (directory importer) specifier) = base)
    (hScript : Text.endsWith ".js" base = false) :
    moduleCandidates importer specifier = base :: moduleSuffixes.map (base ++ ·) := by
  have hNone : Text.dropEnd? ".js" base = none := by simpa [Text.endsWith] using hScript
  rw [moduleCandidates, hImporter, hBase, hNone]

/-- The specifier by which a file imports a typed module denotes that module, unless another file
has its path without the extension or with the other one. -/
theorem module?_specifier {program : Program} (hProgram : program.WellFormed)
    {importer imported : SourceFile} (hImporter : importer ∈ program.sourceFiles)
    (hImported : imported ∈ program.sourceFiles)
    (hPlaces : IsInside importer.path ∧ IsInside imported.path ∨
      leadingSlashes importer.path = ['/'] ∧ leadingSlashes imported.path = ['/'])
    {stem extension : Text} (hPath : imported.path = stem ++ extension)
    (hExtension : IsTyped extension) (hName : fileName stem ∉ [[], ['.'], ['.', '.']])
    (hScript : Text.endsWith ".js" (fileName stem) = false)
    (hAlone : ∀ file ∈ program.sourceFiles, file.path ∈ [stem, stem ++ ".ts", stem ++ ".tsx"] →
      file = imported) :
    program.module? importer.path (specifier importer.path imported.path) = some imported := by
  have hNormal : ∀ file ∈ program.sourceFiles, normalize file.path = file.path := fun file hFile =>
    hProgram.normal _ (hProgram.mem_sourceFiles_iff.mp hFile)
  have hFound : OrderedMap.get? program.files imported.path = some imported :=
    hProgram.get?_eq_some_iff.mpr ⟨hImported, rfl⟩
  have hMissing : ∀ path ∈ [stem, stem ++ ".ts", stem ++ ".tsx"], path ≠ imported.path →
      OrderedMap.get? program.files path = none := by
    refine fun path hCandidate hOther => Option.eq_none_iff_forall_ne_some.mpr fun file hFile => ?_
    obtain ⟨hMem, rfl⟩ := hProgram.get?_eq_some_iff.mp hFile
    exact hOther (congrArg SourceFile.path (hAlone file hMem hCandidate))
  obtain ⟨rooted, hPlaces⟩ : ∃ rooted, (rooted = true ∧ leadingSlashes importer.path = ['/'] ∨
      rooted = false ∧ IsInside importer.path) ∧ (rooted = true ∧
      leadingSlashes imported.path = ['/'] ∨
      rooted = false ∧ IsInside imported.path) := by
    rcases hPlaces with ⟨h, h'⟩ | ⟨h, h'⟩
    · exact ⟨false, .inr ⟨rfl, h⟩, .inr ⟨rfl, h'⟩⟩
    · exact ⟨true, .inl ⟨rfl, h⟩, .inl ⟨rfl, h'⟩⟩
  obtain ⟨xs, hXs, hFrom⟩ := exists_names (hNormal importer hImporter) hPlaces.1
  obtain ⟨ys, hYs, hTo⟩ := exists_names (hNormal imported hImported) hPlaces.2
  obtain ⟨before, rfl, hStem, hStemPath⟩ := exists_names_of_typed hExtension hName hYs (hPath ▸ hTo)
  obtain ⟨hHead, hBase⟩ := base_specifier hExtension hXs hStem hYs rooted
  rw [← hFrom, ← hTo, ← hStemPath] at hBase
  rw [← hFrom, ← hTo] at hHead
  rw [module?, if_pos hHead]
  rcases hBase with hBase | hBase
  · rw [moduleCandidates_of_base (hNormal importer hImporter) hBase (endsWith_of_fileName hScript),
      List.findSome?_cons,
      hMissing stem (by simp) (by rw [hPath]; rcases hExtension with rfl | rfl <;> simp)]
    rcases hExtension with rfl | rfl
    · rw [moduleSuffixes, List.map_cons, List.findSome?_cons, ← hPath, hFound]
    · rw [moduleSuffixes, List.map_cons, List.findSome?_cons,
        hMissing (stem ++ ".ts") (by simp) (by simp [hPath]), List.map_cons, List.findSome?_cons,
        ← hPath, hFound]
  · have hTyped : Text.endsWith ".js" imported.path = false := by
      rw [hPath]
      exact endsWith_of_isTyped hExtension stem
    rw [moduleCandidates_of_base (hNormal importer hImporter) hBase hTyped,
      List.findSome?_cons, hFound]

/-- A declaration file in a directory next to that of the importing file, with a point at
the start of its name. -/
theorem module?_specifier_sibling :
    let program := ofFiles {} [("src/view/main.ts", ""), ("src/cards/.user.d.ts", ""),
      ("src/cards/a.ts", "")]
    let importer := SourceFile.read (.ofText "html") "src/view/main.ts" ""
    let imported := SourceFile.read (.ofText "html") "src/cards/.user.d.ts" ""
    program.module? importer.path (specifier importer.path imported.path) = some imported := by
  intro program importer imported
  have hImporter : importer ∈ program.sourceFiles := by decide +kernel
  have hImported : imported ∈ program.sourceFiles := by decide +kernel
  have hPlaces : IsInside importer.path ∧ IsInside imported.path :=
    ⟨⟨by decide, by decide⟩, ⟨by decide, by decide⟩⟩
  have hPath : imported.path = "src/cards/.user.d" ++ ".ts" := by decide
  exact module?_specifier (wellFormed_ofFiles _ _) hImporter hImported (.inl hPlaces) hPath
    (.inl rfl) (by decide)
    (by decide) (by decide +kernel)

end Program

end TemplateCheck
