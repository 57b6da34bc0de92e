import Loontail.AdminUi.Paths

/-! # Folders are linked to what they contain

A path that is inserted waits until its parent lists it. -/

namespace Loontail.AdminUi

open Bundles

section Above

variable {path other : String}

theorem below_parentPath (normalized : Normalized path) (nested : parentPath path ≠ "") :
    Below (parentPath path) path := by
  have parent := (parentPath_folder normalized).resolve_left nested
  obtain ⟨name, parts⟩ := pathSegments_parentPath normalized
  exact (below_iff parent normalized).mpr ⟨name, [], parts⟩

theorem length_parentPath (normalized : Normalized path) (nested : parentPath path ≠ "") :
    (parentPath path).toList.length < path.toList.length := by
  obtain ⟨suffix, whole⟩ := leads_iff.mpr (below_parentPath normalized nested)
  rw [← whole]
  simp

theorem below_trans {first second third : String} (lower : Below first second)
    (upper : Below second third) : Below first third := by
  refine ⟨lower.1.trans upper.1, ?_⟩
  rintro rfl
  exact lower.2 (segments_injective (lower.1.eq_of_length_le upper.1.length_le))

theorem below_iff_parentPath (normalized : Normalized path) :
    Below other path ↔
      parentPath path ≠ "" ∧ (other = parentPath path ∨ Below other (parentPath path)) := by
  constructor
  · intro below
    have above := normalized_of_below below normalized
    obtain ⟨name, rest, whole⟩ := (below_iff above normalized).mp below
    obtain ⟨last, parts⟩ := pathSegments_parentPath normalized
    have nested : parentPath path ≠ "" := by
      intro top
      rw [top, pathSegments_empty, whole] at parts
      have lengths := congrArg List.length parts
      have filled := List.length_pos_iff.mpr (pathSegments_ne_nil above)
      simp only [List.length_append, List.length_cons, List.length_nil] at lengths
      omega
    have parent := (parentPath_folder normalized).resolve_left nested
    refine ⟨nested, ?_⟩
    have leads : pathSegments other <+: pathSegments (parentPath path) := by
      refine List.prefix_of_prefix_length_le ⟨name :: rest, whole.symm⟩ ⟨[last], parts.symm⟩ ?_
      have lengths := congrArg List.length (whole.symm.trans parts)
      simp only [List.length_append, List.length_cons, List.length_nil] at lengths
      omega
    by_cases same : other = parentPath path
    · exact .inl same
    · refine .inr ⟨?_, same⟩
      rwa [pathSegments_of_normalized above, pathSegments_of_normalized parent] at leads
  · rintro ⟨nested, rfl | below⟩
    · exact below_parentPath normalized nested
    · exact below_trans below (below_parentPath normalized nested)

end Above

/-! ## The links of a map -/

def insertNode (nodes : Nodes) (path : String) (isDir : Bool) : Nodes :=
  nodes.set path ⟨path, nameOf path, isDir, none, []⟩

def push (path : String) (node : Node) : Node := { node with children := node.children ++ [path] }

structure Linked (nodes : Nodes) (waiting : List String) : Prop where
  normalized : ∀ path ∈ nodes.keys, Normalized path
  known : ∀ path ∈ waiting, path ∈ nodes.keys
  named : ∀ path node, nodes.get path = some node →
    node.relativePath = path ∧ node.name = nameOf path
  listed : ∀ path node, nodes.get path = some node → node.children.Nodup ∧
    ∀ child, child ∈ node.children ↔
      child ∈ nodes.keys ∧ parentPath child = path ∧ child ∉ waiting
  parents : ∀ path ∈ nodes.keys, path ∉ waiting →
    parentPath path = "" ∨ parentPath path ∈ nodes.keys

theorem mem_keys_insertNode {nodes : Nodes} {path other : String} {isDir : Bool} :
    other ∈ (insertNode nodes path isDir).keys ↔ other = path ∨ other ∈ nodes.keys :=
  OrderedMap.mem_keys_set

theorem Linked.empty : Linked .empty [] := by
  refine ⟨?_, ?_, ?_, ?_, ?_⟩
  all_goals simp [OrderedMap.keys, OrderedMap.empty, OrderedMap.get]

namespace Linked

variable {nodes : Nodes} {waiting : List String} {path : String}

theorem insert (linked : Linked nodes waiting) (normalized : Normalized path)
    (fresh : path ∉ nodes.keys) (isDir : Bool) :
    Linked (insertNode nodes path isDir) (path :: waiting) where
  normalized other member := by
    rcases mem_keys_insertNode.mp member with rfl | old
    · exact normalized
    · exact linked.normalized other old
  known other member := by
    rw [mem_keys_insertNode]
    rcases List.mem_cons.mp member with here | old
    · exact .inl here
    · exact .inr (linked.known other old)
  named other node found := by
    rw [insertNode, OrderedMap.get_set] at found
    split at found
    · rename_i same
      cases found
      exact ⟨same.symm, by rw [same]⟩
    · exact linked.named other node found
  listed other node found := by
    have filled := ne_empty_of_normalized normalized
    rw [insertNode, OrderedMap.get_set] at found
    split at found
    · rename_i same
      cases found
      refine ⟨List.nodup_nil, fun child => ⟨fun none => (List.not_mem_nil none).elim, ?_⟩⟩
      rintro ⟨member, parent, settled⟩
      rw [List.mem_cons, not_or] at settled
      have old := (mem_keys_insertNode.mp member).resolve_left settled.1
      rcases linked.parents child old settled.2 with top | present
      · exact (filled (same.symm.trans (parent.symm.trans top))).elim
      · rw [parent, same] at present
        exact (fresh present).elim
    · obtain ⟨distinct, children⟩ := linked.listed other node found
      refine ⟨distinct, fun child => ?_⟩
      rw [children, mem_keys_insertNode, List.mem_cons, not_or]
      constructor
      · rintro ⟨member, parent, settled⟩
        refine ⟨.inr member, parent, ?_, settled⟩
        rintro rfl
        exact fresh member
      · rintro ⟨member, parent, other, settled⟩
        exact ⟨member.resolve_left other, parent, settled⟩
  parents other member settled := by
    rw [List.mem_cons, not_or] at settled
    have old := (mem_keys_insertNode.mp member).resolve_left settled.1
    rw [mem_keys_insertNode]
    exact (linked.parents other old settled.2).imp_right .inr

theorem settle (linked : Linked nodes (path :: waiting)) (top : parentPath path = "") :
    Linked nodes waiting where
  normalized := linked.normalized
  known other member := linked.known other (List.mem_cons_of_mem _ member)
  named := linked.named
  listed other node found := by
    obtain ⟨distinct, children⟩ := linked.listed other node found
    refine ⟨distinct, fun child => ?_⟩
    rw [children, List.mem_cons, not_or]
    constructor
    · rintro ⟨member, parent, -, settled⟩
      exact ⟨member, parent, settled⟩
    · rintro ⟨member, parent, settled⟩
      refine ⟨member, parent, ?_, settled⟩
      rintro rfl
      have present : other ∈ nodes.keys := OrderedMap.mem_keys_iff.mpr ⟨node, found⟩
      exact ne_empty_of_normalized (linked.normalized other present) (parent.symm.trans top)
  parents other member settled := by
    by_cases same : other = path
    · exact .inl (same ▸ top)
    · exact linked.parents other member (by simp [same, settled])

theorem adopt (linked : Linked nodes (path :: waiting)) (first : path ∉ waiting)
    (present : parentPath path ∈ nodes.keys) :
    Linked (nodes.modify (parentPath path) (push path)) waiting where
  normalized other member := linked.normalized other (by rwa [OrderedMap.keys_modify] at member)
  known other member := by
    rw [OrderedMap.keys_modify]
    exact linked.known other (List.mem_cons_of_mem _ member)
  named other node found := by
    rw [OrderedMap.get_modify] at found
    split at found
    · rename_i same
      obtain ⟨old, before, rfl⟩ := Option.map_eq_some_iff.mp found
      subst same
      exact linked.named _ old before
    · exact linked.named other node found
  listed other node found := by
    rw [OrderedMap.get_modify] at found
    simp only [OrderedMap.keys_modify]
    split at found
    · rename_i same
      obtain ⟨old, before, rfl⟩ := Option.map_eq_some_iff.mp found
      subst same
      obtain ⟨distinct, children⟩ := linked.listed _ old before
      have apart : path ∉ old.children := fun member =>
        ((children path).mp member).2.2 List.mem_cons_self
      refine ⟨List.nodup_append.mpr ⟨distinct, List.nodup_singleton _, ?_⟩, fun child => ?_⟩
      · rintro child member last among rfl
        rw [List.mem_singleton] at among
        exact apart (among ▸ member)
      · rw [push, List.mem_append, children, List.mem_singleton, List.mem_cons, not_or]
        constructor
        · rintro (⟨member, parent, -, settled⟩ | rfl)
          · exact ⟨member, parent, settled⟩
          · exact ⟨linked.known _ List.mem_cons_self, rfl, first⟩
        · rintro ⟨member, parent, settled⟩
          by_cases here : child = path
          · exact .inr here
          · exact .inl ⟨member, parent, here, settled⟩
    · rename_i other
      obtain ⟨distinct, children⟩ := linked.listed _ node found
      refine ⟨distinct, fun child => ?_⟩
      rw [children, List.mem_cons, not_or]
      constructor
      · rintro ⟨member, parent, -, settled⟩
        exact ⟨member, parent, settled⟩
      · rintro ⟨member, parent, settled⟩
        refine ⟨member, parent, ?_, settled⟩
        rintro rfl
        exact other parent.symm
  parents other member settled := by
    rw [OrderedMap.keys_modify] at member ⊢
    by_cases same : other = path
    · exact .inr (same ▸ present)
    · exact linked.parents other member (by simp [same, settled])

theorem above (linked : Linked nodes []) {other : String} (member : other ∈ nodes.keys)
    (below : Below path other) : path ∈ nodes.keys := by
  induction size : other.toList.length using Nat.strong_induction_on generalizing other with
  | _ size induction =>
      have normalized := linked.normalized other member
      obtain ⟨nested, here⟩ := (below_iff_parentPath normalized).mp below
      have parent := (linked.parents other member List.not_mem_nil).resolve_left nested
      rcases here with rfl | above
      · exact parent
      · exact induction _ (size ▸ length_parentPath normalized nested) parent above rfl

end Linked

/-! ## Inserting a path -/

def Node.row (node : Node) : Bool × Option BundleArtifact := (node.isDir, node.artifact)

def rowAt (nodes : Nodes) (path : String) : Option (Bool × Option BundleArtifact) :=
  (nodes.get path).map Node.row

theorem mem_keys_of_rowAt {nodes : Nodes} {path : String} {row : Bool × Option BundleArtifact}
    (found : rowAt nodes path = some row) : path ∈ nodes.keys := by
  obtain ⟨node, present, -⟩ := Option.map_eq_some_iff.mp found
  exact OrderedMap.mem_keys_iff.mpr ⟨node, present⟩

theorem rowAt_push {nodes : Nodes} {path parent other : String} :
    rowAt (nodes.modify parent (push path)) other = rowAt nodes other := by
  rw [rowAt, OrderedMap.get_modify, rowAt]
  split
  · rename_i same
    rw [same, Option.map_map]
    rfl
  · rfl

theorem rowAt_insertNode {nodes : Nodes} {path other : String} {isDir : Bool} :
    rowAt (insertNode nodes path isDir) other =
      if other = path then some (isDir, none) else rowAt nodes other := by
  rw [rowAt, insertNode, OrderedMap.get_set, rowAt]
  split <;> rfl

/-- The path and the folders above it are there. The nodes that were there keep their rows. -/
structure Ensured (nodes : Nodes) (path : String) (isDir : Bool) (after : Nodes) : Prop where
  present : path ∈ after.keys
  kept : ∀ other ∈ nodes.keys, rowAt after other = rowAt nodes other
  added : ∀ other ∈ after.keys, other ∉ nodes.keys → (other = path ∨ Below other path) ∧
    rowAt after other = some (if other = path then isDir else true, none)

theorem Ensured.grows {nodes after : Nodes} {path : String} {isDir : Bool}
    (ensured : Ensured nodes path isDir after) {other : String} (member : other ∈ nodes.keys) :
    other ∈ after.keys := by
  obtain ⟨node, found⟩ := OrderedMap.mem_keys_iff.mp member
  have kept := ensured.kept other member
  rw [rowAt, rowAt, found] at kept
  exact mem_keys_of_rowAt kept

theorem ensureWithin_succ {fuel : Nat} {nodes : Nodes} {path : String} {isDir : Bool}
    (fresh : path ∉ nodes.keys) : ensureWithin (fuel + 1) nodes path isDir =
      if parentPath path ≠ "" then
        (ensureWithin fuel (insertNode nodes path isDir) (parentPath path) true).modify
          (parentPath path) (push path)
      else insertNode nodes path isDir := by
  rw [ensureWithin, if_neg fun known => fresh (OrderedMap.has_eq_true_iff.mp known)]
  rfl

theorem Ensured.insert {nodes : Nodes} {path : String} {isDir : Bool} (fresh : path ∉ nodes.keys) :
    Ensured nodes path isDir (insertNode nodes path isDir) where
  present := mem_keys_insertNode.mpr (.inl rfl)
  kept other member := by
    rw [rowAt_insertNode, if_neg]
    rintro rfl
    exact fresh member
  added other member absent := by
    obtain rfl := (mem_keys_insertNode.mp member).resolve_right absent
    exact ⟨.inl rfl, by rw [rowAt_insertNode, if_pos rfl, if_pos rfl]⟩

theorem Ensured.nested {nodes after : Nodes} {path : String} {isDir : Bool}
    (fresh : path ∉ nodes.keys) (normalized : Normalized path) (nested : parentPath path ≠ "")
    (ensured : Ensured (insertNode nodes path isDir) (parentPath path) true after) :
    Ensured nodes path isDir (after.modify (parentPath path) (push path)) where
  present := by
    rw [OrderedMap.keys_modify]
    exact ensured.grows (mem_keys_insertNode.mpr (.inl rfl))
  kept other member := by
    rw [rowAt_push, ensured.kept other (mem_keys_insertNode.mpr (.inr member))]
    exact (Ensured.insert fresh).kept other member
  added other member absent := by
    rw [OrderedMap.keys_modify] at member
    rw [rowAt_push]
    by_cases here : other = path
    · subst here
      rw [ensured.kept other (mem_keys_insertNode.mpr (.inl rfl))]
      exact (Ensured.insert fresh).added other (mem_keys_insertNode.mpr (.inl rfl)) absent
    · have new : other ∉ (insertNode nodes path isDir).keys := fun inside =>
        absent ((mem_keys_insertNode.mp inside).resolve_left here)
      obtain ⟨above, row⟩ := ensured.added other member new
      refine ⟨.inr ((below_iff_parentPath normalized).mpr ⟨nested, above⟩), ?_⟩
      rw [row, if_neg here, ite_self]

theorem ensureWithin_spec {fuel : Nat} {nodes : Nodes} {waiting : List String} {path : String}
    (linked : Linked nodes waiting) (normalized : Normalized path)
    (enough : path.toList.length < fuel) (isDir : Bool) :
    Linked (ensureWithin fuel nodes path isDir) waiting ∧
      Ensured nodes path isDir (ensureWithin fuel nodes path isDir) := by
  induction fuel generalizing nodes waiting path isDir with
  | zero => exact (Nat.not_lt_zero _ enough).elim
  | succ fuel induction =>
      rcases Decidable.em (path ∈ nodes.keys) with known | fresh
      · rw [ensureWithin, if_pos (OrderedMap.has_eq_true_iff.mpr known)]
        exact ⟨linked, known, fun _ _ => rfl, fun other member fresh => (fresh member).elim⟩
      · have first : path ∉ waiting := fun member => fresh (linked.known path member)
        have inserted := linked.insert normalized fresh isDir
        rw [ensureWithin_succ fresh]
        split
        · rename_i nested
          have parent := (parentPath_folder normalized).resolve_left nested
          have shorter := length_parentPath normalized nested
          obtain ⟨within, ensured⟩ := induction inserted parent (by omega) true
          exact ⟨within.adopt first ensured.present, ensured.nested fresh normalized nested⟩
        · rename_i top
          exact ⟨inserted.settle (not_not.mp top), .insert fresh⟩

theorem ensure_spec {nodes : Nodes} {path : String} (linked : Linked nodes [])
    (normalized : Normalized path) (isDir : Bool) :
    Linked (ensure nodes path isDir) [] ∧ Ensured nodes path isDir (ensure nodes path isDir) :=
  ensureWithin_spec linked normalized (Nat.lt_succ_self _) isDir

end Loontail.AdminUi
