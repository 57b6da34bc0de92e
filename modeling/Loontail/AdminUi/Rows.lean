import Loontail.AdminUi.Linking

/-! # The nodes of the tree show the artifacts

The first pass inserts folders, the second gives each artifact its row. -/

namespace Loontail.AdminUi

open Bundles

def Node.entry (node : Node) : TreeEntry :=
  ⟨node.relativePath, node.name, node.isDir, node.artifact⟩

def Node.fill (artifact : BundleArtifact) (node : Node) : Node :=
  { node with isDir := artifact.isDir, artifact := some artifact }

structure Filled (artifacts placed : List BundleArtifact) (nodes : Nodes) : Prop where
  linked : Linked nodes []
  reached : ∀ path ∈ nodes.keys, HasRow placed path ∨ Implied artifacts path
  rows : ∀ artifact ∈ placed,
    rowAt nodes artifact.relativePath = some (artifact.isDir, some artifact)
  folders : ∀ path ∈ nodes.keys, ¬HasRow placed path → rowAt nodes path = some (true, none)

theorem Filled.empty (artifacts : List BundleArtifact) : Filled artifacts [] .empty where
  linked := .empty
  reached _ member := (List.not_mem_nil member).elim
  rows _ member := (List.not_mem_nil member).elim
  folders _ member := (List.not_mem_nil member).elim

section Steps

variable {artifacts placed : List BundleArtifact} {nodes : Nodes} {artifact : BundleArtifact}

theorem Filled.present (filled : Filled artifacts placed nodes) {path : String}
    (row : HasRow placed path) : path ∈ nodes.keys := by
  obtain ⟨artifact, listed, rfl⟩ := row
  exact mem_keys_of_rowAt (filled.rows artifact listed)

theorem Filled.ensureParent (filled : Filled artifacts placed nodes)
    (listed : artifact ∈ artifacts) (normalized : Normalized artifact.relativePath) :
    Filled artifacts placed (ensureParent nodes artifact) := by
  change Filled artifacts placed (if parentPath artifact.relativePath ≠ "" then _ else nodes)
  split
  · rename_i nested
    have parent := (parentPath_folder normalized).resolve_left nested
    obtain ⟨linked, ensured⟩ := ensure_spec filled.linked parent true
    refine ⟨linked, fun path member => ?_, fun other among => ?_, fun path member rowless => ?_⟩
    · by_cases old : path ∈ nodes.keys
      · exact filled.reached path old
      · have above := (ensured.added path member old).1
        exact .inr ⟨artifact, listed, (below_iff_parentPath normalized).mpr ⟨nested, above⟩⟩
    · rw [ensured.kept _ (filled.present ⟨other, among, rfl⟩)]
      exact filled.rows other among
    · by_cases old : path ∈ nodes.keys
      · rw [ensured.kept path old]
        exact filled.folders path old rowless
      · rw [(ensured.added path member old).2, ite_self]
  · exact filled

theorem Linked.fill (linked : Linked nodes []) (artifact : BundleArtifact) (path : String) :
    Linked (nodes.modify path (Node.fill artifact)) [] := by
  have old : ∀ other node, (nodes.modify path (Node.fill artifact)).get other = some node →
      ∃ before, nodes.get other = some before ∧ node.relativePath = before.relativePath ∧
        node.name = before.name ∧ node.children = before.children := by
    intro other node found
    rw [OrderedMap.get_modify] at found
    split at found
    · rename_i same
      obtain ⟨before, present, rfl⟩ := Option.map_eq_some_iff.mp found
      exact ⟨before, same ▸ present, rfl, rfl, rfl⟩
    · exact ⟨node, found, rfl, rfl, rfl⟩
  refine ⟨?_, ?_, fun other node found => ?_, fun other node found => ?_, ?_⟩
  · rw [OrderedMap.keys_modify]
    exact linked.normalized
  · exact fun other none => (List.not_mem_nil none).elim
  · obtain ⟨before, present, path, name, -⟩ := old other node found
    rw [path, name]
    exact linked.named other before present
  · obtain ⟨before, present, -, -, children⟩ := old other node found
    rw [children, OrderedMap.keys_modify]
    exact linked.listed other before present
  · rw [OrderedMap.keys_modify]
    exact linked.parents

theorem rowAt_fill {path other : String} :
    rowAt (nodes.modify path (Node.fill artifact)) other =
      if other = path then (rowAt nodes path).map fun _ => (artifact.isDir, some artifact)
      else rowAt nodes other := by
  rw [rowAt, OrderedMap.get_modify]
  split
  · rw [rowAt, Option.map_map, Option.map_map]
    rfl
  · rfl

theorem hasRow_concat {path : String} : HasRow (placed ++ [artifact]) path ↔
    HasRow placed path ∨ path = artifact.relativePath := by
  simp [HasRow, or_and_right, exists_or, eq_comm]

theorem Filled.place (filled : Filled artifacts placed nodes)
    (listed : artifact ∈ artifacts) (normalized : Normalized artifact.relativePath)
    (fresh : ¬HasRow placed artifact.relativePath) :
    Filled artifacts (placed ++ [artifact]) (place nodes artifact) := by
  obtain ⟨linked, ensured⟩ := ensure_spec filled.linked normalized artifact.isDir
  change Filled _ _ ((ensure nodes artifact.relativePath artifact.isDir).modify
    artifact.relativePath (Node.fill artifact))
  have others : ∀ other ∈ placed, other.relativePath ≠ artifact.relativePath :=
    fun other among same => fresh ⟨other, among, same⟩
  refine ⟨linked.fill _ _, fun path member => ?_, fun other among => ?_,
    fun path member rowless => ?_⟩
  · rw [OrderedMap.keys_modify] at member
    rw [hasRow_concat]
    by_cases old : path ∈ nodes.keys
    · exact (filled.reached path old).imp_left .inl
    · rcases (ensured.added path member old).1 with here | above
      · exact .inl (.inr here)
      · exact .inr ⟨artifact, listed, above⟩
  · rw [rowAt_fill]
    rcases List.mem_append.mp among with earlier | last
    · rw [if_neg (others other earlier), ensured.kept _ (filled.present ⟨other, earlier, rfl⟩)]
      exact filled.rows other earlier
    · obtain rfl := List.mem_singleton.mp last
      obtain ⟨node, found⟩ := OrderedMap.mem_keys_iff.mp ensured.present
      rw [if_pos rfl, rowAt, found]
      rfl
  · rw [OrderedMap.keys_modify] at member
    rw [hasRow_concat, not_or] at rowless
    rw [rowAt_fill, if_neg rowless.2]
    by_cases old : path ∈ nodes.keys
    · rw [ensured.kept path old]
      exact filled.folders path old rowless.1
    · rw [(ensured.added path member old).2, if_neg rowless.2]

end Steps

/-! ## Both passes -/

theorem filled_folders {artifacts : List BundleArtifact} {given : List BundleArtifact}
    {nodes : Nodes} (filled : Filled artifacts [] nodes) (among : given ⊆ artifacts)
    (normalized : ∀ artifact ∈ artifacts, Normalized artifact.relativePath) :
    Filled artifacts [] (given.foldl ensureParent nodes) := by
  induction given generalizing nodes with
  | nil => exact filled
  | cons artifact rest induction =>
      rw [List.cons_subset] at among
      exact induction (filled.ensureParent among.1 (normalized artifact among.1)) among.2

theorem filled_rows {placed rest : List BundleArtifact} {nodes : Nodes}
    (filled : Filled (placed ++ rest) placed nodes) (paths : NormalPaths (placed ++ rest)) :
    Filled (placed ++ rest) (placed ++ rest) (rest.foldl place nodes) := by
  induction rest generalizing placed nodes with
  | nil => rwa [List.append_nil] at filled ⊢
  | cons artifact rest induction =>
      have listed : artifact ∈ placed ++ artifact :: rest := by simp
      have placing := filled.place listed (paths.normalized artifact listed) paths.fresh
      have whole : placed ++ artifact :: rest = placed ++ [artifact] ++ rest := by simp
      rw [whole] at paths placing ⊢
      exact induction placing paths

theorem buildNodes_filled {artifacts : List BundleArtifact} (paths : NormalPaths artifacts) :
    Filled artifacts artifacts (buildNodes artifacts) :=
  @filled_rows [] artifacts _
    (filled_folders (Filled.empty artifacts) (fun _ member => member) paths.normalized) paths

section Entries

variable {artifacts : List BundleArtifact} {nodes : Nodes}
    (filled : Filled artifacts artifacts nodes)

include filled

theorem Filled.mem_keys_iff {path : String} :
    path ∈ nodes.keys ↔ HasRow artifacts path ∨ Implied artifacts path := by
  constructor
  · exact filled.reached path
  · rintro (row | ⟨artifact, listed, below⟩)
    · exact filled.present row
    · exact filled.linked.above (filled.present ⟨artifact, listed, rfl⟩) below

theorem Filled.shows {path : String} {node : Node} (found : nodes.get path = some node) :
    Shows artifacts node.entry := by
  obtain ⟨here, name⟩ := filled.linked.named path node found
  have member : path ∈ nodes.keys := OrderedMap.mem_keys_iff.mpr ⟨node, found⟩
  have row : rowAt nodes path = some (node.isDir, node.artifact) := by
    rw [rowAt, found]
    rfl
  by_cases placed : HasRow artifacts path
  · obtain ⟨artifact, listed, rfl⟩ := placed
    rw [filled.rows artifact listed, Option.some.injEq, Prod.mk.injEq] at row
    rw [Node.entry, here, name, ← row.1, ← row.2]
    exact .row artifact listed
  · rw [filled.folders path member placed, Option.some.injEq, Prod.mk.injEq] at row
    rw [Node.entry, here, name, ← row.1, ← row.2]
    exact .folder path ((filled.reached path member).resolve_left placed) placed

theorem Filled.exists_node (paths : NormalPaths artifacts) {entry : TreeEntry}
    (shown : Shows artifacts entry) :
    ∃ node, nodes.get entry.relativePath = some node ∧ node.entry = entry := by
  have member : entry.relativePath ∈ nodes.keys := by
    rw [filled.mem_keys_iff]
    cases shown with
    | row artifact listed => exact .inl ⟨artifact, listed, rfl⟩
    | folder path implied _ => exact .inr implied
  obtain ⟨node, found⟩ := OrderedMap.mem_keys_iff.mp member
  have here := (filled.linked.named _ node found).1
  exact ⟨node, found, (filled.shows found).eq_of_path paths shown here⟩

end Entries

end Loontail.AdminUi
