import TemplateCheck.Proofs.Pattern
import TemplateCheck.Proofs.Text.Classes
import TemplateCheck.Proofs.Text.Occurrence
import TemplateCheck.TypeText.Resolution

/-!
# What a type is resolved to

A type is resolved if its text is a dotted name, perhaps with type arguments
(`exists_of_namedType`), and a file of the program declares the name: the file of the type, the
module behind an import, or any other file (`exists_of_resolve?`). So a text that does not begin or
end as a name does, or that is a primitive type, is resolved to nothing.

A name that a file declares is resolved to its declaration (`resolve?_of_declared`), and a name that
no file declares or imports is resolved to nothing (`Program.Keeps`). The names of the truth values
are ordinary names here. They stay literals in a program that keeps them free
(`Program.KeepsTruth`).
-/

namespace TemplateCheck

theorem Program.mem_sourceFiles_of_module? {program : Program} {importer specifier : Text}
    {file : SourceFile} (h : program.module? importer specifier = some file) :
    file ∈ program.sourceFiles := by
  unfold Program.module? at h
  split_ifs at h
  obtain ⟨candidate, -, hFile⟩ := List.exists_of_findSome?_eq_some h
  obtain ⟨entry, hEntry, rfl⟩ := Option.map_eq_some_iff.mp hFile
  exact List.mem_map_of_mem (List.mem_of_find?_eq_some hEntry)

theorem Program.mem_sourceFiles_of_file? {program : Program} {path : Text} {file : SourceFile}
    (h : program.file? path = some file) : file ∈ program.sourceFiles := by
  obtain ⟨entry, hEntry, rfl⟩ := Option.map_eq_some_iff.mp h
  exact List.mem_map_of_mem (List.mem_of_find?_eq_some hEntry)

namespace TypeText

open Text

/-! ## Named types -/

/-- What is read as a dotted name starts as a name does and is made of the characters of
names and points. -/
theorem head?_and_forall_of_dottedName {a b : Pattern.Cursor Unit} {dotted : Text}
    (h : Pattern.dottedName.Reads a b) (hRest : a.rest = dotted ++ b.rest) :
    (∃ c ∈ dotted.head?, isNameStart c = true) ∧ ∀ c ∈ dotted, isNameChar c = true ∨ c = '.' := by
  constructor
  · obtain ⟨first, hFirst, hMore⟩ := h.seq_inv
    obtain ⟨name, hIdentifier, hName, -⟩ := hFirst.of_identifier
    obtain ⟨more, hMore, -⟩ := hMore.exists_passed
    obtain rfl : dotted = name ++ more := by
      refine List.append_cancel_right (hRest.symm.trans ?_)
      rw [hName, hMore, List.append_assoc]
    cases name with
    | nil => cases hIdentifier
    | cons c name => exact ⟨c, rfl, (Bool.and_eq_true_iff.mp hIdentifier).1⟩
  · have hWithin : (Pattern.dottedName : Pattern Unit).Within fun c =>
        isNameChar c = true ∨ c = '.' :=
      ⟨⟨fun c hc => .inl (isNameChar_of_isNameStart hc), fun c hc => .inl hc⟩,
        fun c hc => .inr (List.mem_singleton.mp hc),
        fun c hc => .inl (isNameChar_of_isNameStart hc), fun c hc => .inl hc⟩
    obtain ⟨read, hRead, -, hProperty⟩ := h.exists_passed_within hWithin
    rw [List.append_cancel_right (hRest.symm.trans hRead)]
    exact hProperty

open Pattern in
theorem exists_of_reads_arguments {a b : Cursor Unit}
    (h : (opt (all [lit ['<'], span anyChar, lit ['>']])).Reads a b) :
    ∃ arguments, a.rest = arguments ++ b.rest ∧ b.captures = a.captures ∧
      (arguments = [] ∨ ∃ inside, arguments = '<' :: inside ++ ['>']) := by
  rcases h.opt_inv with h | rfl
  · obtain ⟨c, hOpen, h⟩ := h.seq_inv
    obtain ⟨d, hInside, h⟩ := h.seq_inv
    obtain ⟨e, hClose, hEmpty⟩ := h.seq_inv
    cases hEmpty
    obtain ⟨hAfterOpen, hKept₁⟩ := hOpen.lit_inv
    obtain ⟨inside, hAfterInside, -, hKept₂⟩ := hInside.span_inv
    obtain ⟨hAfterClose, hKept₃⟩ := hClose.lit_inv
    refine ⟨'<' :: inside ++ ['>'], ?_, by rw [hKept₃, hKept₂, hKept₁], .inr ⟨inside, rfl⟩⟩
    rw [hAfterOpen, hAfterInside, hAfterClose]
    simp
  · exact ⟨[], rfl, rfl, .inl rfl⟩

/-- A named type is a dotted name and, perhaps, blanks and type arguments. -/
theorem exists_of_namedType {t : Text} {found : Pattern.Match Unit}
    (h : namedType.readStart t = some found) :
    ∃ blanks arguments rest : Text, t = found.text () ++ (blanks ++ (arguments ++ rest)) ∧
      (∃ c ∈ (found.text ()).head?, isNameStart c = true) ∧
      (∀ c ∈ found.text (), isNameChar c = true ∨ c = '.') ∧ (∀ c ∈ blanks, isBlank c = true) ∧
      (arguments = [] ∨ ∃ inside, arguments = '<' :: inside ++ ['>']) ∧
      (rest = [] ∨ rest = ['\n']) := by
  obtain ⟨last, hReads, rfl⟩ := Pattern.exists_reads_of_readAt h
  obtain ⟨a, hName, hReads⟩ := hReads.seq_inv
  obtain ⟨b, hBlanks, hReads⟩ := hReads.seq_inv
  obtain ⟨c, hArguments, hReads⟩ := hReads.seq_inv
  obtain ⟨d, hEnd, hEmpty⟩ := hReads.seq_inv
  obtain ⟨inside, dotted, record, hDotted, hAfterName, hSame, hRecord, -, hText⟩ :=
    hName.capture_inv
  obtain ⟨blanks, hAfterBlanks, hBlank, hKept⟩ := hBlanks.span_inv
  obtain ⟨arguments, hAfterArguments, hKept', hShape⟩ := exists_of_reads_arguments hArguments
  obtain ⟨hEq, hRest⟩ := hEnd.rest_of_atEnd
  cases hEmpty
  subst hEq
  obtain ⟨hStart, hChars⟩ := head?_and_forall_of_dottedName hDotted (by rw [hAfterName, hSame])
  have hFound : (Pattern.Match.mk 0 last.offset last.captures).text () = dotted := by
    rw [hKept', hKept, hRecord]
    exact hText
  refine ⟨blanks, arguments, last.rest, ?_, ?_, ?_, hBlank, hShape, hRest⟩
  · rw [hFound, show t = _ from hAfterName, hAfterBlanks, hAfterArguments]
  · rwa [hFound]
  · rwa [hFound]

theorem takes_identifier {ι : Type} {name : Text} (h : name.isIdentifier = true) :
    (Pattern.identifier : Pattern ι).Takes name := by
  cases name with
  | nil => cases h
  | cons c name =>
    obtain ⟨hFirst, hMore⟩ := Bool.and_eq_true_iff.mp h
    exact (Pattern.Takes.char hFirst).seq (.span (List.all_eq_true.mp hMore))

theorem readStart_namedType {name : Text} (h : name.isIdentifier = true) :
    (namedType.readStart name).map (·.text ()) = some name := by
  have hBlanks : (Pattern.blanks : Pattern Unit).Takes [] := .span nofun
  have hSome : (namedType.readStart name).isSome := by
    have hEnd : ∀ cursor : Pattern.Cursor Unit, cursor.rest = [] → ((Pattern.all [.blanks,
        .opt (.all [.lit ['<'], .span Pattern.anyChar, .lit ['>']]),
        .atEnd]).run cursor some).isSome := by
      intro cursor hNil
      obtain ⟨middle, hReads, hRest⟩ := hBlanks cursor [] hNil
      have hAtEnd : Pattern.atEnd.Reads middle middle := .look (by rw [hRest]; rfl)
      exact Pattern.Reads.isSome_run
        (.seq hReads (.seq (.right _ (.empty middle)) (.seq hAtEnd (.empty middle)))) rfl rfl
    obtain ⟨last, hReads, hRest⟩ :=
      takes_identifier h (⟨none, 0, name, []⟩ : Pattern.Cursor Unit) [] (List.append_nil name).symm
    -- The loop over further parts of the name finds nothing to read.
    unfold Pattern.readStart Pattern.readAt
    rw [Option.isSome_map]
    refine hReads.isSome_run rfl (?_ : (Pattern.run (.loop _) last _).isSome)
    unfold Pattern.run
    rw [hRest]
    exact hEnd _ hRest
  obtain ⟨found, hFound⟩ := Option.isSome_iff_exists.mp hSome
  obtain ⟨blanks, arguments, rest, hName, -, -, hBlank, hArguments, hRest⟩ :=
    exists_of_namedType hFound
  have hNot : ∀ c ∈ blanks ++ (arguments ++ rest), isNameChar c = true := by
    intro c hc
    refine isNameChar_of_isIdentifier h c ?_
    rw [hName]
    exact List.mem_append_right _ hc
  have hNil : blanks ++ (arguments ++ rest) = [] := by
    rcases hRest with rfl | rfl
    · rcases hArguments with rfl | ⟨inside, rfl⟩
      · cases blanks with
        | nil => rfl
        | cons c blanks =>
          have hVisible := isBlank_of_isNameChar (hNot c List.mem_cons_self)
          rw [hBlank c List.mem_cons_self] at hVisible
          cases hVisible
      · exact absurd (hNot '<' (by simp)) (by decide)
    · exact absurd (hNot '\n' (by simp)) (by decide)
  rw [hNil, List.append_nil] at hName
  rw [hFound, Option.map_some, ← hName]

/-! ## Resolved types -/

/-- A type is resolved to a declaration of its name in its own file, of the exported name in a
module that its file imports from, or of its name anywhere. -/
theorem exists_of_resolve? {program : Program} {type target : TypeRef}
    (h : resolve? program type = some target) :
    ∃ found, namedType.readStart type.text = some found ∧
      ((∃ file ∈ program.sourceFiles,
        declared? file (afterLast '.' (found.text ())) = some target) ∨
        ∃ file ∈ program.sourceFiles, ∃ binding, ∃ other ∈ program.sourceFiles,
          file.importFor? (upTo '.' (found.text ())) = some binding ∧
            declared? other (if '.' ∈ found.text () then afterLast '.' (found.text ())
              else binding.exportedName) = some target) := by
  unfold resolve? at h
  obtain ⟨found, hFound, h⟩ := Option.bind_eq_some_iff.mp h
  refine ⟨found, hFound, ?_⟩
  dsimp only at h
  split_ifs at h
  rcases Option.or_eq_some_iff.mp h with hNear | ⟨-, hAnywhere⟩
  · obtain ⟨file, hFile, hNear⟩ := Option.bind_eq_some_iff.mp hNear
    obtain ⟨path, -, hFile⟩ := Option.bind_eq_some_iff.mp hFile
    split_ifs at hFile
    have hMem := Program.mem_sourceFiles_of_file? hFile
    rcases Option.or_eq_some_iff.mp hNear with hOwn | ⟨-, hImported⟩
    · exact .inl ⟨file, hMem, hOwn⟩
    · obtain ⟨binding, hBinding, hImported⟩ := Option.bind_eq_some_iff.mp hImported
      obtain ⟨other, hOther, hDeclared⟩ := Option.bind_eq_some_iff.mp hImported
      exact .inr ⟨file, hMem, binding, other, Program.mem_sourceFiles_of_module? hOther, hBinding,
        hDeclared⟩
  · exact .inl (List.exists_of_findSome?_eq_some hAnywhere)

theorem exists_declared?_of_resolve? {program : Program} {type target : TypeRef}
    (h : resolve? program type = some target) :
    ∃ file ∈ program.sourceFiles, ∃ name, declared? file name = some target := by
  obtain ⟨found, -, ⟨file, hFile, hDeclared⟩ | ⟨_, _, _, other, hOther, _, hDeclared⟩⟩ :=
    exists_of_resolve? h
  · exact ⟨file, hFile, _, hDeclared⟩
  · exact ⟨other, hOther, _, hDeclared⟩

theorem resolve?_eq_none_of_head {program : Program} {t : Text} {file : Option Text}
    (h : ∀ c ∈ t.head?, isNameStart c = false) : resolve? program ⟨t, file⟩ = none := by
  have hNone : namedType.readStart t = none := by
    refine Option.eq_none_iff_forall_ne_some.mpr fun found hFound => ?_
    obtain ⟨blanks, arguments, rest, hEq, ⟨c, hc, hStart⟩, -⟩ := exists_of_namedType hFound
    have hHead : c ∈ t.head? := by
      rw [hEq, List.head?_append, Option.mem_def.mp hc]
      rfl
    rw [h c hHead] at hStart
    cases hStart
  rw [resolve?, hNone]
  rfl

theorem resolve?_eq_none_of_last {program : Program} {t : Text} {file : Option Text}
    (h : t.getLast? = some ']') : resolve? program ⟨t, file⟩ = none := by
  have hNone : namedType.readStart t = none := by
    refine Option.eq_none_iff_forall_ne_some.mpr fun found hFound => ?_
    obtain ⟨blanks, arguments, rest, hEq, ⟨c, hc, -⟩, hName, hBlanks, hArguments, hRest⟩ :=
      exists_of_namedType hFound
    rcases hRest with rfl | rfl
    · rcases hArguments with rfl | ⟨inside, rfl⟩
      · rw [hEq, List.append_nil, List.append_nil] at h
        rcases List.mem_append.mp (List.mem_of_getLast? h) with hMem | hMem
        · exact absurd (hName _ hMem) (by decide)
        · exact absurd (hBlanks _ hMem) (by decide)
      · simp [hEq, List.getLast?_cons] at h
    · simp [hEq] at h
  rw [resolve?, hNone]
  rfl

theorem resolve?_eq_none_of_mem {program : Program} {t : Text} {file : Option Text}
    (h : t ∈ primitives) : resolve? program ⟨t, file⟩ = none := by
  exact Option.bind_eq_none_iff.mpr fun _ _ => if_pos (.inl h)

theorem dot_not_mem_of_isIdentifier {name : Text} (h : name.isIdentifier = true) : '.' ∉ name :=
  fun hMem => absurd (isNameChar_of_isIdentifier h _ hMem) (by decide)

/-- A name is resolved to its declaration in its own file. -/
theorem resolve?_of_declared {program : Program} {name path text : Text} {file : SourceFile}
    (hName : name.isIdentifier = true) (hBuiltIn : name ∉ primitives ∧ name ∉ topTypes)
    (hArray : ¬ (name = "Array" ∨ name = "ReadonlyArray")) (hPath : path ≠ [])
    (hFile : program.file? path = some file)
    (hDeclared : OrderedMap.get? file.typeDeclarations name = some text) :
    resolve? program ⟨name, some path⟩ = some ⟨text, some file.path⟩ := by
  obtain ⟨found, hFound, hText⟩ := Option.map_eq_some_iff.mp (readStart_namedType hName)
  have hOwn : declared? file name = some ⟨text, some file.path⟩ := by
    rw [declared?, hDeclared]
    rfl
  unfold resolve?
  rw [hFound, Option.bind_eq_bind, Option.bind_some]
  dsimp only
  rw [if_neg (not_or.mpr hBuiltIn), hText, afterLast_of_not_mem (dot_not_mem_of_isIdentifier hName),
    if_neg hArray, Option.bind_some, if_neg hPath, hFile, Option.bind_some,
    hOwn]
  rfl

/-- The name of a truth value. -/
def truthName : Bool → Text
  | true => "true"
  | false => "false"

end TypeText

open TypeText

/-! ## Free names -/

/-- No file declares a type of the name, and none imports another name under it. -/
structure Program.Keeps (program : Program) (name : Text) : Prop where
  undeclared : ∀ file ∈ program.sourceFiles, OrderedMap.get? file.typeDeclarations name = none
  exportedName_eq : ∀ file ∈ program.sourceFiles, ∀ binding ∈ file.importFor? name,
    binding.exportedName = name

instance (program : Program) (name : Text) : Decidable (program.Keeps name) :=
  decidable_of_iff
    ((∀ file ∈ program.sourceFiles, OrderedMap.get? file.typeDeclarations name = none) ∧
      ∀ file ∈ program.sourceFiles, ∀ binding ∈ file.importFor? name, binding.exportedName = name)
    ⟨fun h => ⟨h.1, h.2⟩, fun h => ⟨h.undeclared, h.exportedName_eq⟩⟩

theorem Program.Keeps.resolve?_eq_none {program : Program} {name : Text} (h : program.Keeps name)
    (hName : name.isIdentifier = true) (file : Option Text) :
    resolve? program ⟨name, file⟩ = none := by
  refine Option.eq_none_iff_forall_ne_some.mpr fun target hTarget => ?_
  have hUndeclared : ∀ file ∈ program.sourceFiles, declared? file name = none := by
    intro file hFile
    rw [declared?, h.undeclared file hFile]
    rfl
  obtain ⟨found, hFound, hDeclared⟩ := exists_of_resolve? hTarget
  have hText : found.text () = name := by
    have hRead := readStart_namedType hName
    rw [hFound] at hRead
    exact Option.some.inj hRead
  have hDot := dot_not_mem_of_isIdentifier hName
  rw [hText, Text.afterLast_of_not_mem hDot, Text.upTo_of_not_mem hDot] at hDeclared
  rcases hDeclared with
    ⟨file, hFile, hDeclared⟩ | ⟨file, hFile, binding, other, hOther, hBinding, hDeclared⟩
  · rw [hUndeclared file hFile] at hDeclared
    cases hDeclared
  · rw [if_neg hDot, h.exportedName_eq file hFile binding hBinding,
      hUndeclared other hOther] at hDeclared
    cases hDeclared

/-! ## Truth values -/

/-- The names of the truth values are free. -/
def Program.KeepsTruth (program : Program) : Prop := ∀ value, program.Keeps (truthName value)

instance (program : Program) : Decidable program.KeepsTruth :=
  inferInstanceAs (Decidable (∀ value, program.Keeps (truthName value)))

theorem Program.KeepsTruth.resolve?_eq_none {program : Program} (h : program.KeepsTruth)
    (value : Bool) (file : Option Text) :
    resolve? program ⟨truthName value, file⟩ = none :=
  (h value).resolve?_eq_none (by cases value <;> decide) file

end TemplateCheck
