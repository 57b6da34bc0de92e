import Mathlib.Data.List.MinMax
import Loontail.AdminUi.Rows

/-! # Every node has its place in the tree -/

namespace Loontail.AdminUi

open Bundles

mutual

def FileTreeNode.everyNode : FileTreeNode → List FileTreeNode
  | ⟨id, relativePath, name, isDir, artifact, children⟩ =>
      ⟨id, relativePath, name, isDir, artifact, children⟩ :: everyNodeOf children

def everyNodeOf : List FileTreeNode → List FileTreeNode
  | [] => []
  | node :: rest => node.everyNode ++ everyNodeOf rest

end

theorem everyNodeOf_eq (tree : List FileTreeNode) :
    everyNodeOf tree = tree.flatMap FileTreeNode.everyNode := by
  induction tree with
  | nil => rfl
  | cons node rest induction => rw [everyNodeOf, induction, List.flatMap_cons]

theorem FileTreeNode.everyNode_eq (node : FileTreeNode) :
    node.everyNode = node :: everyNodeOf node.children := by
  cases node
  rw [FileTreeNode.everyNode]

def FileTreeNode.entry (node : FileTreeNode) : TreeEntry :=
  ⟨node.relativePath, node.name, node.isDir, node.artifact⟩

/-! ## Below a folder -/

def Within (folder path : String) : Prop :=
  ∃ name rest, pathSegments path = pathSegments folder ++ name :: rest

theorem within_root {path : String} (normalized : Normalized path) : Within "" path := by
  obtain ⟨name, rest, parts⟩ := List.exists_cons_of_ne_nil (pathSegments_ne_nil normalized)
  exact ⟨name, rest, by rw [parts, pathSegments_empty, List.nil_append]⟩

theorem within_iff {folder path : String} (folderPath : Folder folder)
    (normalized : Normalized path) : Within folder path ↔
      ∃ child, Normalized child ∧ parentPath child = folder ∧ (path = child ∨ Within child path) := by
  constructor
  · rintro ⟨name, rest, parts⟩
    obtain ⟨child, childParts, parent, -⟩ := child_spec folderPath normalized parts
    refine ⟨joinPath folder name, child, parent, ?_⟩
    cases rest with
    | nil =>
        exact .inl (Folder.eq_of_pathSegments (.inr normalized) (.inr child)
          (parts.trans childParts.symm))
    | cons next later =>
        exact .inr ⟨next, later, by rw [childParts, parts, List.append_assoc]; rfl⟩
  · rintro ⟨child, childNormalized, parent, here⟩
    obtain ⟨name, parts⟩ := (parentPath_eq_iff folderPath childNormalized).mp parent
    rcases here with rfl | ⟨next, later, whole⟩
    · exact ⟨name, [], parts⟩
    · exact ⟨name, next :: later, by rw [whole, parts, List.append_assoc]; rfl⟩

theorem eq_of_within {left right folder path : String} (folderPath : Folder folder)
    (leftNormalized : Normalized left) (rightNormalized : Normalized right)
    (leftParent : parentPath left = folder) (rightParent : parentPath right = folder)
    (inLeft : path = left ∨ Within left path) (inRight : path = right ∨ Within right path) :
    left = right := by
  have leads {child : String} (inside : path = child ∨ Within child path) :
      pathSegments child <+: pathSegments path := by
    rcases inside with rfl | ⟨name, rest, whole⟩
    · exact List.prefix_refl _
    · exact ⟨name :: rest, whole.symm⟩
  obtain ⟨leftName, leftParts⟩ := (parentPath_eq_iff folderPath leftNormalized).mp leftParent
  obtain ⟨rightName, rightParts⟩ := (parentPath_eq_iff folderPath rightNormalized).mp rightParent
  have lengths : (pathSegments left).length = (pathSegments right).length := by
    rw [leftParts, rightParts, List.length_append, List.length_append]
    rfl
  have shared := List.prefix_of_prefix_length_le (leads inLeft) (leads inRight) lengths.le
  exact Folder.eq_of_pathSegments (.inr leftNormalized) (.inr rightNormalized)
    (shared.eq_of_length lengths)

/-! ## Nodes with one parent -/

structure Siblings (nodes : Nodes) (folder : String) (siblings : List Node) : Prop where
  distinct : (siblings.map Node.relativePath).Nodup
  mem : ∀ node, node ∈ siblings ↔
    nodes.get node.relativePath = some node ∧ parentPath node.relativePath = folder

theorem Siblings.perm {nodes : Nodes} {folder : String} {siblings others : List Node}
    (family : Siblings nodes folder siblings) (same : others.Perm siblings) :
    Siblings nodes folder others where
  distinct := (same.map _).nodup_iff.mpr family.distinct
  mem node := by rw [same.mem_iff, family.mem]

section Linked

variable {nodes : Nodes} (linked : Linked nodes [])

include linked

theorem Linked.roots :
    Siblings nodes "" (nodes.values.filter fun node => parentPath node.relativePath = "") where
  distinct := by
    have keys := OrderedMap.map_values fun path node found => (linked.named path node found).1
    have distinct := nodes.keys_nodup
    rw [← keys] at distinct
    exact distinct.sublist (List.filter_sublist.map _)
  mem node := by
    rw [List.mem_filter, decide_eq_true_eq, OrderedMap.mem_values_iff]
    refine and_congr_left fun _ => ⟨?_, fun found => ⟨_, found⟩⟩
    rintro ⟨path, found⟩
    rwa [(linked.named path node found).1]

theorem Linked.children {path : String} {node : Node} (found : nodes.get path = some node) :
    Siblings nodes path (node.children.filterMap nodes.get) where
  distinct := by
    obtain ⟨distinct, children⟩ := linked.listed path node found
    have paths : ∀ given : List String, (∀ child ∈ given, child ∈ nodes.keys) →
        (given.filterMap nodes.get).map Node.relativePath = given := by
      intro given present
      induction given with
      | nil => rfl
      | cons first rest induction =>
          rw [List.forall_mem_cons] at present
          obtain ⟨child, there⟩ := OrderedMap.mem_keys_iff.mp present.1
          rw [List.filterMap_cons, there, List.map_cons, (linked.named first child there).1,
            induction present.2]
    rw [paths _ fun child member => ((children child).mp member).1]
    exact distinct
  mem child := by
    obtain ⟨-, children⟩ := linked.listed path node found
    rw [List.mem_filterMap]
    constructor
    · rintro ⟨childPath, member, there⟩
      rw [(linked.named childPath child there).1]
      exact ⟨there, ((children childPath).mp member).2.1⟩
    · rintro ⟨there, parent⟩
      exact ⟨_, (children _).mpr
        ⟨OrderedMap.mem_keys_iff.mpr ⟨child, there⟩, parent, List.not_mem_nil⟩, there⟩

end Linked

/-! ## The order of entries -/

section Order

variable (collation : Collation)

theorem TreeEntry.le_total (left right : TreeEntry) :
    (left.le collation right || right.le collation left) = true := by
  unfold TreeEntry.le
  by_cases same : left.isDir = right.isDir
  · rw [if_neg (not_not.mpr same), if_neg (not_not.mpr same.symm)]
    exact collation.total _ _
  · rw [if_pos same, if_pos (Ne.symm same)]
    revert same
    cases left.isDir <;> cases right.isDir <;> simp

theorem TreeEntry.le_trans (left middle right : TreeEntry)
    (lower : left.le collation middle = true) (upper : middle.le collation right = true) :
    left.le collation right = true := by
  have names := collation.trans left.name middle.name right.name
  revert lower upper
  unfold TreeEntry.le
  cases left.isDir <;> cases middle.isDir <;> cases right.isDir <;> simp <;> exact names

theorem sorted_mergeSort (siblings : List Node) :
    (siblings.mergeSort (Node.le collation)).Pairwise (Node.le collation · ·) :=
  List.pairwise_mergeSort
    (fun left middle right => TreeEntry.le_trans collation left.entry middle.entry right.entry)
    (fun left right => TreeEntry.le_total collation left.entry right.entry) siblings

end Order

/-! ## Trees -/

/-- The node is in the map, and its children are those of the map, in order. -/
def Represents (collation : Collation) (nodes : Nodes) (tree : FileTreeNode) : Prop :=
  ∃ node siblings, nodes.get tree.relativePath = some node ∧ tree.entry = node.entry ∧
    Siblings nodes tree.relativePath siblings ∧
    siblings.Pairwise (Node.le collation · ·) ∧
    tree.children.map FileTreeNode.entry = siblings.map Node.entry

structure Traversed (collation : Collation) (nodes : Nodes) (inside : String → Prop)
    (trees : List FileTreeNode) : Prop where
  distinct : (trees.map FileTreeNode.relativePath).Nodup
  mem : ∀ path, path ∈ trees.map FileTreeNode.relativePath ↔ path ∈ nodes.keys ∧ inside path
  represents : ∀ tree ∈ trees, Represents collation nodes tree

section Trees

variable {collation : Collation} {nodes : Nodes} (linked : Linked nodes [])

include linked

theorem traversed_forest {folder : String} {siblings : List Node} (folderPath : Folder folder)
    (family : Siblings nodes folder siblings) {tree : Node → FileTreeNode}
    (traversed : ∀ node ∈ siblings, Traversed collation nodes
      (fun path => path = node.relativePath ∨ Within node.relativePath path)
      (tree node).everyNode) :
    Traversed collation nodes (Within folder) (everyNodeOf (siblings.map tree)) := by
  have keyed : ∀ node ∈ siblings, node.relativePath ∈ nodes.keys := fun node member =>
    OrderedMap.mem_keys_iff.mpr ⟨node, ((family.mem node).mp member).1⟩
  rw [everyNodeOf_eq, List.flatMap_map]
  refine ⟨?_, fun path => ?_, fun other member => ?_⟩
  · rw [List.map_flatMap, List.nodup_flatMap]
    refine ⟨fun node member => (traversed node member).distinct, ?_⟩
    have apart := List.pairwise_map.mp family.distinct
    refine apart.imp_of_mem fun {left right} leftMember rightMember other => ?_
    intro path inLeft inRight
    refine other (eq_of_within folderPath (linked.normalized _ (keyed left leftMember))
      (linked.normalized _ (keyed right rightMember)) ((family.mem left).mp leftMember).2
      ((family.mem right).mp rightMember).2
      (((traversed left leftMember).mem path).mp inLeft).2
      (((traversed right rightMember).mem path).mp inRight).2)
  · rw [List.map_flatMap, List.mem_flatMap]
    constructor
    · rintro ⟨node, member, inside⟩
      obtain ⟨key, here⟩ := ((traversed node member).mem path).mp inside
      exact ⟨key, (within_iff folderPath (linked.normalized path key)).mpr
        ⟨node.relativePath, linked.normalized _ (keyed node member),
          ((family.mem node).mp member).2, here⟩⟩
    · rintro ⟨key, within⟩
      have normalized := linked.normalized path key
      obtain ⟨child, childNormalized, parent, here⟩ := (within_iff folderPath normalized).mp within
      have present : child ∈ nodes.keys := by
        rcases here with rfl | ⟨name, rest, whole⟩
        · exact key
        · exact linked.above key ((below_iff childNormalized normalized).mpr ⟨name, rest, whole⟩)
      obtain ⟨node, found⟩ := OrderedMap.mem_keys_iff.mp present
      obtain rfl := (linked.named child node found).1
      have member := (family.mem node).mpr ⟨found, parent⟩
      exact ⟨node, member, ((traversed node member).mem path).mpr ⟨key, here⟩⟩
  · obtain ⟨node, among, inside⟩ := List.mem_flatMap.mp member
    exact (traversed node among).represents other inside

omit linked in
theorem traversed_tree {node : Node} (found : nodes.get node.relativePath = some node)
    {siblings : List Node} (family : Siblings nodes node.relativePath siblings)
    (sorted : siblings.Pairwise (Node.le collation · ·)) {tree : Node → FileTreeNode}
    (shown : ∀ child ∈ siblings, (tree child).entry = child.entry)
    (below : Traversed collation nodes (Within node.relativePath)
      (everyNodeOf (siblings.map tree))) :
    Traversed collation nodes
      (fun path => path = node.relativePath ∨ Within node.relativePath path)
      (FileTreeNode.everyNode ⟨node.relativePath, node.relativePath, node.name, node.isDir,
        node.artifact, siblings.map tree⟩) := by
  rw [FileTreeNode.everyNode_eq]
  have apart : ¬Within node.relativePath node.relativePath := by
    rintro ⟨name, rest, parts⟩
    exact List.cons_ne_nil _ _ (List.append_right_eq_self.mp parts.symm)
  have key : node.relativePath ∈ nodes.keys := OrderedMap.mem_keys_iff.mpr ⟨node, found⟩
  refine ⟨?_, fun path => ?_, fun other member => ?_⟩
  · rw [List.map_cons, List.nodup_cons]
    exact ⟨fun member => apart ((below.mem _).mp member).2, below.distinct⟩
  · rw [List.map_cons, List.mem_cons, below.mem]
    constructor
    · rintro (rfl | ⟨present, within⟩)
      · exact ⟨key, .inl rfl⟩
      · exact ⟨present, .inr within⟩
    · rintro ⟨present, rfl | within⟩
      · exact .inl rfl
      · exact .inr ⟨present, within⟩
  · rcases List.mem_cons.mp member with rfl | later
    · refine ⟨node, siblings, found, rfl, family, sorted, ?_⟩
      rw [List.map_map]
      exact List.map_congr_left shown
    · exact below.represents other later

omit linked in
theorem assemble_entry {fuel : Nat} {node : Node} :
    (assemble collation nodes fuel node).entry = node.entry := by
  cases fuel <;> rfl

theorem assemble_spec {fuel : Nat} {node : Node}
    (found : nodes.get node.relativePath = some node)
    (deep : ∀ path ∈ nodes.keys,
      (pathSegments path).length ≤ fuel + (pathSegments node.relativePath).length) :
    Traversed collation nodes
      (fun path => path = node.relativePath ∨ Within node.relativePath path)
      (assemble collation nodes fuel node).everyNode := by
  have key : node.relativePath ∈ nodes.keys := OrderedMap.mem_keys_iff.mpr ⟨node, found⟩
  have folder : Folder node.relativePath := .inr (linked.normalized _ key)
  induction fuel generalizing node with
  | zero =>
      have empty : ∀ path ∈ nodes.keys, ¬Within node.relativePath path := by
        rintro path member ⟨name, rest, parts⟩
        have short := deep path member
        rw [parts, List.length_append, List.length_cons] at short
        omega
      have childless : Siblings nodes node.relativePath [] := by
        refine ⟨List.nodup_nil, fun child => ⟨fun none => (List.not_mem_nil none).elim, ?_⟩⟩
        rintro ⟨there, parent⟩
        have present := OrderedMap.mem_keys_iff.mpr ⟨child, there⟩
        obtain ⟨name, parts⟩ :=
          (parentPath_eq_iff folder (linked.normalized _ present)).mp parent
        exact (empty _ present ⟨name, [], parts⟩).elim
      refine @traversed_tree collation nodes node found [] childless .nil
        (assemble collation nodes 0) ?_ ?_
      · exact fun child none => (List.not_mem_nil none).elim
      · refine ⟨List.nodup_nil, fun path => ?_, fun tree none => (List.not_mem_nil none).elim⟩
        refine ⟨fun none => (List.not_mem_nil none).elim, ?_⟩
        rintro ⟨member, within⟩
        exact (empty path member within).elim
  | succ fuel induction =>
      have family := (linked.children found).perm (List.mergeSort_perm _ (Node.le collation))
      refine traversed_tree found family (sorted_mergeSort collation _)
        (fun child _ => assemble_entry) (traversed_forest linked folder family ?_)
      intro child member
      obtain ⟨there, parent⟩ := (family.mem child).mp member
      have present := OrderedMap.mem_keys_iff.mpr ⟨child, there⟩
      have normalized := linked.normalized _ present
      obtain ⟨name, parts⟩ := (parentPath_eq_iff folder normalized).mp parent
      refine induction there (fun path among => ?_) present (.inr normalized)
      have short := deep path among
      rw [parts, List.length_append, List.length_singleton]
      omega

omit linked in
theorem length_le_depth {path : String} (member : path ∈ nodes.keys) :
    (pathSegments path).length ≤ depth nodes :=
  List.le_max_of_le' 0 (List.mem_map.mpr ⟨path, member, rfl⟩) (Nat.le_refl _)

theorem traversed_roots :
    let roots := (nodes.values.filter fun node => parentPath node.relativePath = "").mergeSort
      (Node.le collation)
    Siblings nodes "" roots ∧ roots.Pairwise (Node.le collation · ·) ∧
      Traversed collation nodes (Within "")
        (everyNodeOf (roots.map (assemble collation nodes (depth nodes)))) := by
  have family := linked.roots.perm (List.mergeSort_perm _ (Node.le collation))
  refine ⟨family, sorted_mergeSort collation _, traversed_forest linked (.inl rfl) family ?_⟩
  intro node member
  refine assemble_spec linked ((family.mem node).mp member).1 fun path among => ?_
  exact Nat.le_add_right_of_le (length_le_depth among)

end Trees

end Loontail.AdminUi
