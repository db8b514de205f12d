import TemplateCheck.Proofs.Distinct
import TemplateCheck.Proofs.OrderedMap.History
import TemplateCheck.Proofs.Registry

/-!
# The registry and its history

A registry that starts empty answers from what its history of changes left.

1. Up to marks, the published components are an ordered map: a publication stores the components
   of its path, and one without components forgets the path (`Change.onComponents`). The scans are
   another (`Change.onScans`). Each change of the registry is a change of both
   (`declarations_apply`, `scans_apply`), and so is a whole history (`declarations_run`,
   `scans_run`).
2. The marks are recomputed with the components, so they always tell which names are declared twice
   (`isDuplicated_iff`).
-/

namespace TemplateCheck

namespace Registry

open OrderedMap

/-- A change of the registry. -/
inductive Change where
  | publish (path : Text) (components : List Component)
  | setScan (path : Text) (scan : FileScan)
  | removeFile (path : Text)
  | reset
deriving DecidableEq, Repr

/-- The registry after a change. -/
def apply (registry : Registry) (change : Change) : Registry :=
  match change with
  | .publish path components => registry.publish path components
  | .setScan path scan => registry.setScan path scan
  | .removeFile path => registry.removeFile path
  | .reset => registry.reset

/-- The registry after changes one after the other. -/
def run (registry : Registry) (history : List Change) : Registry := history.foldl apply registry

/-- What a change does to the published components. -/
def Change.onComponents : Change → OrderedMap.Change Text (List Component)
  | publish path components => if components = [] then .remove path else .put path components
  | setScan _ _ => .keep
  | removeFile path => .remove path
  | reset => .clear

/-- What a change does to the scans. -/
def Change.onScans : Change → OrderedMap.Change Text FileScan
  | publish _ _ => .keep
  | setScan path scan => .put path scan
  | removeFile path => .remove path
  | reset => .clear

/-- The components published last for a path, none when it was published without components,
removed or reset since. -/
def published? (history : List Change) (path : Text) : Option (List Component) :=
  latest? (history.map Change.onComponents) path

/-- The last scan of a path, none when it was removed or reset since. -/
def scanned? (history : List Change) (path : Text) : Option FileScan :=
  latest? (history.map Change.onScans) path

/-- The publication at place `i` of the history is the one that last made the path present. -/
def PublishedSince (history : List Change) (path : Text) (i : Nat) : Prop :=
  PresentSince (history.map Change.onComponents) path i

/-- The names of the components that the last scan of a path found, in order. -/
def scannedNames (history : List Change) (path : Text) : List Text :=
  ((scanned? history path).map fun scan => scan.used.map (·.name)).getD []

/-- The registry answers from what its history left. -/
structure Follows (registry : Registry) (history : List Change) : Prop where
  /-- The components are, up to marks, those published last for each path that has some, in the
  order of the publications that last made the paths present. -/
  components_eq : ∃ paths : List Text,
    (∀ path, path ∈ paths ↔ (published? history path).isSome) ∧
    (paths.Pairwise fun a b =>
      ∃ i j, PublishedSince history a i ∧ PublishedSince history b j ∧ i < j) ∧
    registry.components.map Component.unmarked =
      (paths.filterMap (published? history)).flatten.map Component.unmarked
  /-- A component is marked when at least two components have its name. -/
  isDuplicated_iff : ∀ component ∈ registry.components,
    (component.isDuplicated = true ↔ 2 ≤ registry.components.countP (·.name = component.name))
  find?_eq_none_iff : ∀ name,
    registry.find? name = none ↔ ∀ component ∈ registry.components, component.name ≠ name
  /-- What is found is the first component with the name. -/
  find?_eq_some_iff : ∀ name component,
    registry.find? name = some component ↔ component.name = name ∧
      ∃ before after, registry.components = before ++ component :: after ∧
        ∀ other ∈ before, other.name ≠ name
  nodup_usedNames : ∀ path, (registry.usedNames path).Nodup
  mem_usedNames_iff : ∀ path name,
    name ∈ registry.usedNames path ↔ name ∈ scannedNames history path
  /-- The used names come in the order of their first use. -/
  usedNames_ordered : ∀ path, (registry.usedNames path).Pairwise fun a b =>
    (scannedNames history path).idxOf a < (scannedNames history path).idxOf b

variable {registry : Registry} {m : Publications}

/-! ## Changes one by one -/

theorem run_append (registry : Registry) (history : List Change) (change : Change) :
    registry.run (history ++ [change]) = (registry.run history).apply change := by
  unfold run
  rw [List.foldl_append]
  rfl

theorem declarations_apply (h : registry.declarations = marked m) (hKeys : (keys m).Nodup)
    (change : Change) :
    (registry.apply change).declarations = marked (change.onComponents.applyTo m) := by
  cases change with
  | publish path components =>
    have hRecord : (Change.publish path components).onComponents.applyTo m =
        record m path components := by
      unfold Change.onComponents record
      dsimp only
      split_ifs
      · rfl
      · rfl
    rw [hRecord]
    exact declarations_publish h path components
  | setScan path scan => exact h
  | removeFile path => exact declarations_removeFile h hKeys path
  | reset => rfl

theorem scans_apply (registry : Registry) (change : Change) :
    (registry.apply change).scans = change.onScans.applyTo registry.scans := by
  cases change with
  | publish path components => rfl
  | setScan path scan => rfl
  | removeFile path => exact scans_removeFile registry path
  | reset => rfl

/-- A history publishes the components that it leaves, marked. -/
theorem declarations_run (history : List Change) :
    (empty.run history).declarations = marked (replay (history.map Change.onComponents)) := by
  induction history using List.reverseRecOn with
  | nil => rfl
  | append_singleton history change ih =>
    rw [run_append, declarations_apply ih (nodup_keys_replay _), List.map_append,
      List.map_singleton, replay_append]

theorem scans_run (history : List Change) :
    (empty.run history).scans = replay (history.map Change.onScans) := by
  induction history using List.reverseRecOn with
  | nil => rfl
  | append_singleton history change ih =>
    rw [run_append, scans_apply, ih, List.map_append, List.map_singleton, replay_append]

/-! ## Marks and names -/

theorem map_unmarked_components (h : registry.declarations = marked m) :
    registry.components.map Component.unmarked = (values m).flatten.map Component.unmarked := by
  rw [Registry.components_eq h, List.map_map]
  rfl

theorem isDuplicated_iff (h : registry.declarations = marked m) {component : Component}
    (hMem : component ∈ registry.components) :
    component.isDuplicated = true ↔ 2 ≤ registry.components.countP (·.name = component.name) := by
  rw [Registry.components_eq h] at hMem ⊢
  obtain ⟨plain, -, rfl⟩ := List.mem_map.mp hMem
  rw [List.countP_map]
  exact decide_eq_true_iff

theorem find?_eq_some_iff (registry : Registry) (name : Text) (component : Component) :
    registry.find? name = some component ↔ component.name = name ∧
      ∃ before after, registry.components = before ++ component :: after ∧
        ∀ other ∈ before, other.name ≠ name := by
  unfold find?
  rw [List.find?_eq_some_iff_append, decide_eq_true_iff]
  refine and_congr_right fun _ => exists_congr fun before => exists_congr fun after => ?_
  refine and_congr_right fun _ => forall_congr' fun other => forall_congr' fun _ => ?_
  rw [Bool.not_eq_true', decide_eq_false_iff_not]

theorem find?_eq_none_iff (registry : Registry) (name : Text) :
    registry.find? name = none ↔ ∀ component ∈ registry.components, component.name ≠ name := by
  unfold find?
  rw [List.find?_eq_none]
  refine forall_congr' fun component => forall_congr' fun _ => ?_
  rw [decide_eq_true_iff]

theorem usedNames_run (history : List Change) (path : Text) :
    (empty.run history).usedNames path = distinct (scannedNames history path) := by
  unfold usedNames usedIn scan? scannedNames scanned?
  rw [scans_run, get?_replay]
  cases latest? (history.map Change.onScans) path <;> rfl

theorem components_populate {program : Program} (h : program.WellFormed) (registry : Registry) :
    (registry.populate program).components = componentsOf program := by
  rw [Registry.components_eq (declarations_populate h registry), flatten_values_publicationsOf,
    componentsOf_eq]

/-! ## Histories -/

/-- After any history, an initially empty registry answers from what the history left; filled from a
program, it has the components extracted from the files of the program, marks included. -/
theorem follows_run (history : List Change) (config : Config) (files : List (Text × Text)) :
    let registry := empty.run history
    let program := Program.ofFiles config files
    registry.Follows history ∧ (registry.populate program).components = componentsOf program := by
  intro registry program
  have hDeclarations := declarations_run history
  constructor
  · exact {
      components_eq := by
        refine ⟨keys (replay (history.map Change.onComponents)), fun path => mem_keys_replay_iff,
          pairwise_keys_replay _, ?_⟩
        rw [map_unmarked_components hDeclarations, values_replay]
        rfl
      isDuplicated_iff := fun component hMem => isDuplicated_iff hDeclarations hMem
      find?_eq_none_iff := find?_eq_none_iff registry
      find?_eq_some_iff := find?_eq_some_iff registry
      nodup_usedNames := by
        intro path
        rw [usedNames_run]
        exact nodup_distinct (scannedNames history path)
      mem_usedNames_iff := by
        intro path name
        rw [usedNames_run]
        exact mem_distinct
      usedNames_ordered := by
        intro path
        rw [usedNames_run]
        exact pairwise_idxOf_distinct (scannedNames history path) }
  · exact components_populate (Program.wellFormed_ofFiles config files) registry

end Registry

end TemplateCheck
