import Loontail.AdminUi.Assembly
import Loontail.AdminUi.Listing

/-! # The file tree agrees with the flat listing -/

namespace Loontail.AdminUi

open Bundles

def childrenIn (tree : List FileTreeNode) (folder : String) : List FileTreeNode :=
  if folder = "" then tree
  else
    match (everyNodeOf tree).find? fun node => node.relativePath = folder with
    | some node => node.children
    | none => []

/-- Both list the same entries in order. Only ties can stand differently. -/
structure SameListing (collation : Collation) (nodes : List FileTreeNode)
    (entries : List TreeEntry) : Prop where
  same : (nodes.map FileTreeNode.entry).Perm entries
  nodesSorted : (nodes.map FileTreeNode.entry).Pairwise (TreeEntry.le collation · ·)
  entriesSorted : entries.Pairwise (TreeEntry.le collation · ·)

section Agreement

variable {collation : Collation} {artifacts : List BundleArtifact} {nodes : Nodes}
    (paths : NormalPaths artifacts) (filled : Filled artifacts artifacts nodes)

omit paths filled in
theorem childrenOf_sorted (currentPath : String) :
    (childrenOf collation artifacts currentPath).Pairwise (TreeEntry.le collation · ·) :=
  List.pairwise_mergeSort (TreeEntry.le_trans collation) (TreeEntry.le_total collation) _

include paths filled

theorem siblings_listing {folder : String} (folderPath : Folder folder) {siblings : List Node}
    (family : Siblings nodes folder siblings)
    (sorted : siblings.Pairwise (Node.le collation · ·)) {trees : List FileTreeNode}
    (shown : trees.map FileTreeNode.entry = siblings.map Node.entry) :
    SameListing collation trees (childrenOf collation artifacts folder) := by
  obtain ⟨distinct, members⟩ := childrenOf_spec collation paths folderPath
  have siblingsDistinct : (siblings.map Node.entry).Nodup := by
    refine List.Nodup.of_map TreeEntry.relativePath ?_
    rw [List.map_map]
    exact family.distinct
  refine ⟨?_, ?_, childrenOf_sorted folder⟩
  · rw [shown, List.perm_ext_iff_of_nodup siblingsDistinct (.of_map _ distinct)]
    intro entry
    rw [members, List.mem_map]
    constructor
    · rintro ⟨node, member, rfl⟩
      obtain ⟨found, parent⟩ := (family.mem node).mp member
      exact ⟨filled.shows found, parent⟩
    · rintro ⟨listed, parent⟩
      obtain ⟨node, found, rfl⟩ := filled.exists_node paths listed
      exact ⟨node, (family.mem node).mpr ⟨found, parent⟩, rfl⟩
  · rw [shown, List.pairwise_map]
    exact sorted

/-- A node of the tree is the entry of its path, with the entries of its folder below it. -/
theorem represented_listing {tree : FileTreeNode} (represents : Represents collation nodes tree) :
    Shows artifacts tree.entry ∧
      SameListing collation tree.children (childrenOf collation artifacts tree.relativePath) := by
  obtain ⟨node, siblings, found, same, family, sorted, shown⟩ := represents
  have member := OrderedMap.mem_keys_iff.mpr ⟨node, found⟩
  have folder : Folder tree.relativePath := .inr (filled.linked.normalized _ member)
  exact ⟨same ▸ filled.shows found, siblings_listing paths filled folder family sorted shown⟩

variable {tree : List FileTreeNode}
    (traversed : Traversed collation nodes (Within "") (everyNodeOf tree))

include traversed

theorem exists_tree {entry : TreeEntry} (shown : Shows artifacts entry) :
    ∃ node ∈ everyNodeOf tree, node.entry = entry := by
  obtain ⟨node, found, -⟩ := filled.exists_node paths shown
  have member := OrderedMap.mem_keys_iff.mpr ⟨node, found⟩
  have normalized := filled.linked.normalized _ member
  obtain ⟨other, among, same⟩ := List.mem_map.mp
    ((traversed.mem entry.relativePath).mpr ⟨member, within_root normalized⟩)
  have listed := (represented_listing paths filled (traversed.represents other among)).1
  exact ⟨other, among, listed.eq_of_path paths shown same⟩

theorem childrenOf_absent {folder : String} (nested : folder ≠ "") (folderPath : Folder folder)
    (absent : ∀ node ∈ everyNodeOf tree, node.relativePath ≠ folder) :
    childrenOf collation artifacts folder = [] := by
  refine List.eq_nil_iff_forall_not_mem.mpr fun entry member => ?_
  obtain ⟨shown, parent⟩ := ((childrenOf_spec collation paths folderPath).2 entry).mp member
  obtain ⟨node, found, -⟩ := filled.exists_node paths shown
  have key := OrderedMap.mem_keys_iff.mpr ⟨node, found⟩
  rcases filled.linked.parents _ key List.not_mem_nil with top | present
  · exact nested (parent.symm.trans top)
  · rw [parent] at present
    have normalized := filled.linked.normalized _ present
    obtain ⟨other, among, same⟩ := List.mem_map.mp
      ((traversed.mem folder).mpr ⟨present, within_root normalized⟩)
    exact absent other among same

theorem artifacts_perm : ((everyNodeOf tree).filterMap (·.artifact)).Perm artifacts := by
  have carried : ∀ node ∈ everyNodeOf tree, ∀ artifact, node.artifact = some artifact →
      artifact ∈ artifacts ∧ artifact.relativePath = node.relativePath :=
    fun node among artifact carries =>
      (represented_listing paths filled (traversed.represents node among)).1.listed carries
  have within (trees : List FileTreeNode) (among : trees ⊆ everyNodeOf tree) :
      ((trees.filterMap (·.artifact)).map (·.relativePath)).Sublist
        (trees.map (·.relativePath)) := by
    induction trees with
    | nil => exact .slnil
    | cons node rest induction =>
        rw [List.cons_subset] at among
        rw [List.filterMap_cons, List.map_cons]
        cases carries : node.artifact with
        | none => exact (induction among.2).cons _
        | some artifact =>
            rw [List.map_cons, (carried node among.1 artifact carries).2]
            exact (induction among.2).cons_cons _
  have once := traversed.distinct.sublist (within _ fun _ among => among)
  rw [List.perm_ext_iff_of_nodup (.of_map _ once) (.of_map _ paths.distinct)]
  intro artifact
  rw [List.mem_filterMap]
  constructor
  · rintro ⟨node, among, carries⟩
    exact (carried node among artifact carries).1
  · intro listed
    obtain ⟨node, among, same⟩ := exists_tree paths filled traversed (.row artifact listed)
    exact ⟨node, among, congrArg TreeEntry.artifact same⟩

end Agreement

/-- Each folder has in the tree what the flat listing gives for it, and no artifact is left out or
stands twice. -/
theorem file_tree_agrees (collation : Collation) (artifacts : List BundleArtifact)
    (paths : NormalPaths artifacts) :
    (∀ folder, Folder folder →
      SameListing collation (childrenIn (buildTree collation artifacts) folder)
        (childrenOf collation artifacts folder)) ∧
    ((everyNodeOf (buildTree collation artifacts)).map (·.relativePath)).Nodup ∧
    ((everyNodeOf (buildTree collation artifacts)).filterMap (·.artifact)).Perm artifacts := by
  have filled := buildNodes_filled paths
  obtain ⟨family, sorted, traversed⟩ := @traversed_roots collation _ filled.linked
  have whole := traversed
  refine ⟨fun folder folderPath => ?_, traversed.distinct, artifacts_perm paths filled traversed⟩
  rw [childrenIn]
  split
  · rename_i root
    subst root
    refine siblings_listing paths filled folderPath family sorted ?_
    rw [buildTree, List.map_map]
    exact List.map_congr_left fun node _ => assemble_entry
  · rename_i nested
    split
    · rename_i node found
      have same : node.relativePath = folder := by simpa using List.find?_some found
      have among := List.mem_of_find?_eq_some found
      rw [← same]
      exact (represented_listing paths filled (traversed.represents node among)).2
    · rename_i missing
      have absent : ∀ node ∈ everyNodeOf (buildTree collation artifacts),
          node.relativePath ≠ folder := fun node among same =>
        List.find?_eq_none.mp missing node among (decide_eq_true same)
      rw [childrenOf_absent paths filled traversed nested folderPath absent]
      exact ⟨.nil, .nil, .nil⟩

def byCode : Collation where
  le left right := decide (left ≤ right)
  total left right := by
    rw [Bool.or_eq_true, decide_eq_true_eq, decide_eq_true_eq]
    exact String.le_total left right
  trans left middle right lower upper :=
    decide_eq_true (String.le_trans (of_decide_eq_true lower) (of_decide_eq_true upper))

def nestedFile : List BundleArtifact :=
  [⟨1, 9, "mods/sub/a.jar", "a.jar", "mods", 100, none, false, false, none⟩,
    ⟨2, 9, "mods", "mods", "mods", 0, none, true, false, none⟩]

theorem nestedFile_normal : NormalPaths nestedFile :=
  ⟨by decide +kernel, by decide⟩

theorem file_tree_agrees_nested :
    (∀ folder, Folder folder →
      SameListing byCode (childrenIn (buildTree byCode nestedFile) folder)
        (childrenOf byCode nestedFile folder)) ∧
    ((everyNodeOf (buildTree byCode nestedFile)).map (·.relativePath)).Nodup ∧
    ((everyNodeOf (buildTree byCode nestedFile)).filterMap (·.artifact)).Perm nestedFile :=
  file_tree_agrees byCode nestedFile nestedFile_normal

end Loontail.AdminUi
