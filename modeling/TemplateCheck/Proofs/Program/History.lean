import TemplateCheck.Proofs.Distinct
import TemplateCheck.Proofs.OrderedMap.History
import TemplateCheck.Proofs.Service.Edits

/-!
# Programs and their history

A program that starts empty answers from what its edits left, whatever spellings of paths they use
(`Program.follows_edits`).

1. An edit changes a map from normal paths to texts (`Edit.onTexts`), and the files of a program are
   read from the texts that its edits leave in this map (`files_run`).
2. What the map holds for a path is the text of the last edit of the path (`latest?_onTexts`). So
   the answers of a program follow from those of ordered maps.
-/

namespace TemplateCheck

open OrderedMap

namespace Edit

/-- The text that the edit stores, none when it takes the file out. -/
def text? : Edit → Option Text
  | update _ text => some text
  | remove _ => none

/-- What the edit does to the texts under their normal paths. -/
def onTexts : Edit → Change Text Text
  | update path text => .put (Path.normalize path) text
  | remove path => .remove (Path.normalize path)

theorem leaves_onTexts (edit : Edit) (key : Text) (value : Option Text) :
    Change.leaves key value edit.onTexts = if edit.path = key then edit.text? else value := by
  cases edit <;> rfl

theorem normalize_path (edit : Edit) : Path.normalize edit.path = edit.path := by
  cases edit <;> exact Path.normalize_normalize _

theorem path_of_onTexts_eq_put {edit : Edit} {key text : Text} (h : edit.onTexts = .put key text) :
    edit.path = key ∧ ∃ path, edit = .update path text := by
  cases edit with
  | update path stored =>
    obtain ⟨rfl, rfl⟩ := Change.put.inj h
    exact ⟨rfl, path, rfl⟩
  | remove path => cases h

end Edit

namespace Program

/-- The program after edits one after the other. -/
def run (program : Program) (edits : List Edit) : Program :=
  edits.foldl (fun program edit => edit.applyTo program) program

/-- The text that edits left for a path, by any spelling: that of the last edit of the
path, if it stored one. -/
def textLeft? (edits : List Edit) (path : Text) : Option Text :=
  (edits.reverse.find? fun edit => edit.path = Path.normalize path).bind Edit.text?

/-- The edit at place `i` stored a file under the path, which was not there before and has
been there ever since. -/
structure AddedSince (edits : List Edit) (path : Text) (i : Nat) : Prop where
  stored : ∃ spelling text, edits[i]? = some (.update spelling text) ∧
    Path.normalize spelling = Path.normalize path
  absent : textLeft? (edits.take i) path = none
  present : ∀ j, i < j → j ≤ edits.length → (textLeft? (edits.take j) path).isSome

/-- The program answers from what the edits left. -/
structure Follows (program : Program) (edits : List Edit) : Prop where
  /-- Every file stands under a normal path, which it carries. -/
  normal : ∀ entry ∈ program.files, Path.normalize entry.1 = entry.1 ∧ entry.2.path = entry.1
  /-- A file is read from the text of the last edit of its path. -/
  file?_eq : ∀ path, program.file? path =
    (textLeft? edits path).map (SourceFile.read program.config.templateTag (Path.normalize path))
  hasFile_eq : ∀ path, program.hasFile path = (textLeft? edits path).isSome
  /-- There are as many files as paths for which a text was left. -/
  length_eq : program.files.length =
    (distinct (edits.map Edit.path)).countP fun path => (textLeft? edits path).isSome
  takeFile_eq : ∀ path, program.takeFile path =
    (program.removeFile path, (textLeft? edits path).isSome)
  mem_sourceFiles_iff : ∀ file, file ∈ program.sourceFiles ↔ program.file? file.path = some file
  /-- The files come in the order of the edits that last made their paths present. -/
  ordered : program.sourceFiles.Pairwise fun a b =>
    ∃ i j, AddedSince edits a.path i ∧ AddedSince edits b.path j ∧ i < j

variable {edits : List Edit} {path : Text}

/-! ## What the edits leave -/

theorem run_append (program : Program) (edits : List Edit) (edit : Edit) :
    program.run (edits ++ [edit]) = edit.applyTo (program.run edits) := by
  unfold run
  rw [List.foldl_append]
  rfl

theorem textLeft?_append (edits : List Edit) (edit : Edit) (path : Text) :
    textLeft? (edits ++ [edit]) path =
      if edit.path = Path.normalize path then edit.text? else textLeft? edits path := by
  unfold textLeft?
  rw [List.reverse_append, List.reverse_singleton, List.singleton_append, List.find?_cons]
  by_cases hPath : edit.path = Path.normalize path
  · rw [decide_eq_true hPath, if_pos hPath]
    rfl
  · rw [decide_eq_false hPath, if_neg hPath]

theorem latest?_onTexts (edits : List Edit) (path : Text) :
    latest? (edits.map Edit.onTexts) (Path.normalize path) = textLeft? edits path := by
  induction edits using List.reverseRecOn with
  | nil => rfl
  | append_singleton edits edit ih =>
    rw [List.map_append, List.map_singleton, latest?_append, Edit.leaves_onTexts, ih,
      textLeft?_append]

/-- The files are read from the texts that the edits leave. -/
theorem files_run (config : Config) (edits : List Edit) :
    (empty config).run edits =
      ⟨config, mapValues (SourceFile.read config.templateTag)
        (replay (edits.map Edit.onTexts))⟩ := by
  induction edits using List.reverseRecOn with
  | nil => rfl
  | append_singleton edits edit ih =>
    rw [run_append, ih, List.map_append, List.map_singleton, replay_append]
    cases edit with
    | update path text => exact congrArg (Program.mk config) (put_mapValues _ _ _ _)
    | remove path => exact congrArg (Program.mk config) (remove_mapValues _ _ _)

theorem wellFormed_run (config : Config) (edits : List Edit) :
    ((empty config).run edits).WellFormed :=
  List.foldlRecOn edits _ (motive := WellFormed) (wellFormed_empty config)
    fun program h edit _ => by
    cases edit with
    | update path text => exact h.addFile path text
    | remove path => exact h.removeFile path

/-! ## Paths -/

theorem exists_edit_of_mem_keys {key : Text} (h : key ∈ keys (replay (edits.map Edit.onTexts))) :
    ∃ edit ∈ edits, edit.path = key := by
  obtain ⟨i, hSince⟩ := exists_presentSince h
  obtain ⟨text, hStored⟩ := hSince.stored
  rw [List.getElem?_map, Option.map_eq_some_iff] at hStored
  obtain ⟨edit, hEdit, hPut⟩ := hStored
  exact ⟨edit, List.mem_of_getElem? hEdit, (Edit.path_of_onTexts_eq_put hPut).1⟩

/-- The paths that are present are those for which a text was left. -/
theorem perm_keys (edits : List Edit) : (keys (replay (edits.map Edit.onTexts))).Perm
    ((distinct (edits.map Edit.path)).filter fun path => (textLeft? edits path).isSome) := by
  have hNodup := (nodup_distinct (edits.map Edit.path)).filter fun path =>
    (textLeft? edits path).isSome
  refine (List.perm_ext_iff_of_nodup (nodup_keys_replay _) hNodup).mpr fun key => ?_
  rw [List.mem_filter, mem_distinct, List.mem_map]
  constructor
  · intro hKey
    obtain ⟨edit, hEdit, rfl⟩ := exists_edit_of_mem_keys hKey
    refine ⟨⟨edit, hEdit, rfl⟩, ?_⟩
    rwa [← latest?_onTexts, edit.normalize_path, ← mem_keys_replay_iff]
  · rintro ⟨⟨edit, -, rfl⟩, hLeft⟩
    rwa [mem_keys_replay_iff, ← edit.normalize_path, latest?_onTexts]

/-- Under a normal path, what holds of the map holds of the edits. -/
theorem AddedSince.of_presentSince {i : Nat} (hNormal : Path.normalize path = path)
    (h : PresentSince (edits.map Edit.onTexts) path i) : AddedSince edits path i := by
  have hTake : ∀ j, latest? ((edits.map Edit.onTexts).take j) path =
      textLeft? (edits.take j) path := by
    intro j
    rw [← List.map_take, ← latest?_onTexts, hNormal]
  refine ⟨?_, ?_, fun j hij hj => ?_⟩
  · obtain ⟨text, hStored⟩ := h.stored
    rw [List.getElem?_map, Option.map_eq_some_iff] at hStored
    obtain ⟨edit, hEdit, hPut⟩ := hStored
    obtain ⟨hPath, spelling, rfl⟩ := Edit.path_of_onTexts_eq_put hPut
    exact ⟨spelling, text, hEdit, by rw [hNormal]; exact hPath⟩
  · rw [← hTake]
    exact h.absent
  · rw [← hTake]
    exact h.present j hij (by rwa [List.length_map])

/-! ## Answers -/

theorem file?_run (config : Config) (edits : List Edit) (path : Text) :
    ((empty config).run edits).file? path =
      (textLeft? edits path).map (SourceFile.read config.templateTag (Path.normalize path)) := by
  rw [files_run, file?, get?_mapValues, get?_replay, latest?_onTexts]

theorem length_files_run (config : Config) (edits : List Edit) :
    ((empty config).run edits).files.length =
    (distinct (edits.map Edit.path)).countP fun path => (textLeft? edits path).isSome := by
  have hLength : ((empty config).run edits).files.length =
      (keys (replay (edits.map Edit.onTexts))).length := by
    rw [files_run, ← keys_mapValues (SourceFile.read config.templateTag), keys, List.length_map]
  rw [hLength, (perm_keys edits).length_eq, List.countP_eq_length_filter]

theorem takeFile_run (config : Config) (edits : List Edit) (path : Text) :
    ((empty config).run edits).takeFile path =
      (((empty config).run edits).removeFile path, (textLeft? edits path).isSome) := by
  have hAnswer : (((empty config).run edits).takeFile path).2 = (textLeft? edits path).isSome := by
    rw [← Option.isSome_map, ← file?_run config edits path]
    rfl
  rw [← hAnswer]
  rfl

/-- The files come in the order of the edits that last made their paths present, since the
paths of the map do. -/
theorem pairwise_sourceFiles_run (config : Config) (edits : List Edit) :
    ((empty config).run edits).sourceFiles.Pairwise fun a b =>
      ∃ i j, AddedSince edits a.path i ∧ AddedSince edits b.path j ∧ i < j := by
  have hWellFormed := wellFormed_run config edits
  have hPaths : ((empty config).run edits).sourceFiles.map (·.path) =
      keys (replay (edits.map Edit.onTexts)) := by
    rw [← hWellFormed.keys_eq, files_run, keys_mapValues]
  have hNormal : ∀ {file}, file ∈ ((empty config).run edits).sourceFiles →
      Path.normalize file.path = file.path :=
    fun hFile => hWellFormed.normal _ (hWellFormed.mem_sourceFiles_iff.mp hFile)
  have hKeys := pairwise_keys_replay (edits.map Edit.onTexts)
  rw [← hPaths, List.pairwise_map] at hKeys
  refine hKeys.imp_of_mem ?_
  rintro a b ha hb ⟨i, j, hi, hj, hij⟩
  exact ⟨i, j, .of_presentSince (hNormal ha) hi, .of_presentSince (hNormal hb) hj, hij⟩

/-- After any edits of an initially empty program, it answers from what the edits left. -/
theorem follows_edits (config : Config) (edits : List Edit) :
    ((empty config).run edits).Follows edits where
  normal entry hEntry := by
    have hWellFormed := wellFormed_run config edits
    exact ⟨hWellFormed.normal entry hEntry, hWellFormed.path_eq hEntry⟩
  file?_eq path := by
    have hConfig : ((empty config).run edits).config = config := by rw [files_run]
    rw [hConfig, file?_run]
  hasFile_eq path := by rw [hasFile_eq_isSome_file?, file?_run, Option.isSome_map]
  length_eq := length_files_run config edits
  takeFile_eq := takeFile_run config edits
  mem_sourceFiles_iff file := by
    have hWellFormed := wellFormed_run config edits
    exact ⟨hWellFormed.file?_path, fun hFile => (hWellFormed.of_file?_eq_some hFile).1⟩
  ordered := pairwise_sourceFiles_run config edits

/-- A file that is replaced keeps its place, and one that is removed and added again comes last. -/
example :
    (((empty {}).run [.update "a.ts" "1", .update "b.ts" "2", .remove "./x/../a.ts",
      .update "b.ts/" "3", .update "a.ts" "4"]).sourceFiles.map fun file =>
        (file.path, file.text)) =
      [("b.ts".toList, "3".toList), ("a.ts".toList, "4".toList)] := by decide +kernel

end Program

end TemplateCheck
