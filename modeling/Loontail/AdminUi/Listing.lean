import Loontail.AdminUi.Paths

/-! # The flat listing shows the contents of a folder -/

namespace Loontail.AdminUi

open Bundles

section Turn

variable {currentPath : String} {artifact : BundleArtifact} {children : Children}

theorem prefix_test :
    (decide (currentPath ≠ "") &&
        !(currentPath ++ "/").toList.isPrefixOf artifact.relativePath.toList) = false ↔
      currentPath = "" ∨ Below currentPath artifact.relativePath := by
  rw [Bool.and_eq_false_iff, decide_eq_false_iff_not, not_not, Bool.not_eq_false',
    List.isPrefixOf_iff_prefix, leads_iff]

theorem add_aside (folder : Folder currentPath) (normalized : Normalized artifact.relativePath)
    (aside : ¬∃ name rest,
      pathSegments artifact.relativePath = pathSegments currentPath ++ name :: rest) :
    children.add currentPath artifact = children := by
  have below : ¬(currentPath = "" ∨ Below currentPath artifact.relativePath) := by
    rintro (rfl | below)
    · obtain ⟨name, rest, parts⟩ := List.exists_cons_of_ne_nil (pathSegments_ne_nil normalized)
      exact aside ⟨name, rest, by rw [parts, pathSegments_empty, List.nil_append]⟩
    · exact aside ((below_iff (normalized_of_below below normalized) normalized).mp below)
  rw [← prefix_test, Bool.not_eq_false] at below
  rw [Children.add, if_pos below]

variable {name : String} {rest : List String}
    (folder : Folder currentPath) (normalized : Normalized artifact.relativePath)
    (parts : pathSegments artifact.relativePath = pathSegments currentPath ++ name :: rest)

include folder normalized parts

theorem add_below : children.add currentPath artifact =
    if rest = [] then
      { children with
        explicit := children.explicit.set (joinPath currentPath name)
          ⟨joinPath currentPath name, name, artifact.isDir, some artifact⟩ }
    else if children.implied.has (joinPath currentPath name) then children
    else
      { children with
        implied := children.implied.set (joinPath currentPath name)
          ⟨joinPath currentPath name, name, true, none⟩ } := by
  have below : currentPath = "" ∨ Below currentPath artifact.relativePath := by
    rcases folder with root | current
    · exact .inl root
    · exact .inr ((below_iff current normalized).mpr ⟨name, rest, parts⟩)
  have tested := prefix_test.mpr below
  have other : artifact.relativePath ≠ currentPath := by
    rintro same
    rw [same] at parts
    exact List.cons_ne_nil _ _ (List.append_right_eq_self.mp parts.symm)
  have named : (pathSegments artifact.relativePath)[(pathSegments currentPath).length]? =
      some name := by
    rw [parts, List.getElem?_append_right (Nat.le_refl _), Nat.sub_self]
    rfl
  have deep : (pathSegments artifact.relativePath).length = (pathSegments currentPath).length + 1 ↔
      rest = [] := by
    rw [parts, List.length_append, List.length_cons, ← List.length_eq_zero_iff]
    omega
  rw [Children.add, if_neg (by rw [tested]; exact Bool.false_ne_true), if_neg other]
  simp only [named, deep]

theorem parent_iff : parentPath artifact.relativePath = currentPath ↔ rest = [] := by
  rw [parentPath_eq_iff folder normalized, parts]
  constructor
  · rintro ⟨other, same⟩
    exact (List.cons.inj (List.append_cancel_left same)).2
  · rintro rfl
    exact ⟨name, rfl⟩

theorem child_eq (last : rest = []) : joinPath currentPath name = artifact.relativePath := by
  obtain ⟨child, childParts, -, -⟩ := child_spec folder normalized parts
  refine Folder.eq_of_pathSegments (.inr child) (.inr normalized) ?_
  rw [childParts, parts, last]

omit parts in
theorem above_iff {path : String} :
    Below path artifact.relativePath ∧ parentPath path = currentPath ↔
      ∃ name rest, pathSegments artifact.relativePath = pathSegments currentPath ++ name :: rest ∧
        rest ≠ [] ∧ path = joinPath currentPath name := by
  constructor
  · rintro ⟨below, parent⟩
    have above := normalized_of_below below normalized
    obtain ⟨name, own⟩ := (parentPath_eq_iff folder above).mp parent
    obtain ⟨next, rest, whole⟩ := (below_iff above normalized).mp below
    have parts : pathSegments artifact.relativePath =
        pathSegments currentPath ++ name :: next :: rest := by
      rw [whole, own, List.append_assoc]
      rfl
    refine ⟨name, next :: rest, parts, List.cons_ne_nil _ _, ?_⟩
    obtain ⟨child, childParts, -, -⟩ := child_spec folder normalized parts
    exact Folder.eq_of_pathSegments (.inr above) (.inr child) (own.trans childParts.symm)
  · rintro ⟨name, rest, parts, deep, rfl⟩
    obtain ⟨child, childParts, parent, -⟩ := child_spec folder normalized parts
    refine ⟨(below_iff child normalized).mpr ?_, parent⟩
    obtain ⟨next, later, rfl⟩ := List.exists_cons_of_ne_nil deep
    exact ⟨next, later, by rw [childParts, parts, List.append_assoc]; rfl⟩

theorem above_child_iff (path : String) :
    Below path artifact.relativePath ∧ parentPath path = currentPath ↔
      rest ≠ [] ∧ path = joinPath currentPath name := by
  rw [above_iff folder normalized]
  constructor
  · rintro ⟨other, later, same, deep, rfl⟩
    obtain ⟨rfl, rfl⟩ := List.cons.inj (List.append_cancel_left (parts.symm.trans same))
    exact ⟨deep, rfl⟩
  · rintro ⟨deep, rfl⟩
    exact ⟨name, rest, parts, deep, rfl⟩

end Turn

/-! ## What the loop gathers -/

structure Gathered (artifacts : List BundleArtifact) (currentPath : String)
    (children : Children) : Prop where
  explicit : ∀ path entry, children.explicit.get path = some entry ↔
    ∃ artifact ∈ artifacts, artifact.relativePath = path ∧ parentPath path = currentPath ∧
      entry = rowEntry artifact
  implied : ∀ path entry, children.implied.get path = some entry ↔
    Implied artifacts path ∧ parentPath path = currentPath ∧ entry = folderEntry path

theorem Gathered.empty (currentPath : String) : Gathered [] currentPath .empty := by
  refine ⟨fun path entry => ?_, fun path entry => ?_⟩
  · simp [Children.empty]
  · simp [Children.empty, Implied]

theorem implied_concat {artifacts : List BundleArtifact} {artifact : BundleArtifact}
    {path : String} : Implied (artifacts ++ [artifact]) path ↔
      Implied artifacts path ∨ Below path artifact.relativePath := by
  simp [Implied, or_and_right, exists_or]

section Loop

variable {currentPath : String} {before : List BundleArtifact} {artifact : BundleArtifact}
    {children : Children} (folder : Folder currentPath)
    (gathered : Gathered before currentPath children)
    (normalized : Normalized artifact.relativePath)

include folder gathered normalized

theorem Gathered.add_implied (path : String) (entry : TreeEntry) :
    (children.add currentPath artifact).implied.get path = some entry ↔
      Implied (before ++ [artifact]) path ∧ parentPath path = currentPath ∧
        entry = folderEntry path := by
  rw [implied_concat]
  by_cases inside : ∃ name rest,
      pathSegments artifact.relativePath = pathSegments currentPath ++ name :: rest
  · obtain ⟨name, rest, parts⟩ := inside
    have above := above_child_iff folder normalized parts path
    have named := (child_spec folder normalized parts).2.2.2
    have entered : (⟨joinPath currentPath name, name, true, none⟩ : TreeEntry) =
        folderEntry (joinPath currentPath name) := by rw [folderEntry, named]
    rw [add_below folder normalized parts, entered]
    split
    · rename_i last
      simp only [last, ne_eq, not_true_eq_false, false_and, iff_false] at above
      rw [gathered.implied]
      tauto
    · rename_i deep
      simp only [ne_eq, deep, not_false_eq_true, true_and] at above
      split
      · rename_i known
        obtain ⟨old, found⟩ := OrderedMap.mem_keys_iff.mp (OrderedMap.has_eq_true_iff.mp known)
        have already := ((gathered.implied _ _).mp found).1
        rw [gathered.implied]
        constructor
        · rintro ⟨implied, rest⟩
          exact ⟨.inl implied, rest⟩
        · rintro ⟨implied | below, parent, rfl⟩
          · exact ⟨implied, parent, rfl⟩
          · refine ⟨?_, parent, rfl⟩
            rw [above.mp ⟨below, parent⟩]
            exact already
      · rw [OrderedMap.get_set]
        split
        · rename_i same
          obtain ⟨below, parent⟩ := above.mpr same
          rw [Option.some.injEq, ← same]
          constructor
          · rintro rfl
            exact ⟨.inr below, parent, rfl⟩
          · rintro ⟨-, -, rfl⟩
            rfl
        · rename_i other
          rw [gathered.implied]
          tauto
  · have aside : ¬(Below path artifact.relativePath ∧ parentPath path = currentPath) := by
      rw [above_iff folder normalized]
      rintro ⟨name, rest, parts, -⟩
      exact inside ⟨name, rest, parts⟩
    rw [add_aside folder normalized inside, gathered.implied]
    tauto

theorem Gathered.add_explicit (fresh : ¬HasRow before artifact.relativePath) (path : String)
    (entry : TreeEntry) :
    (children.add currentPath artifact).explicit.get path = some entry ↔
      ∃ listed ∈ before ++ [artifact], listed.relativePath = path ∧
        parentPath path = currentPath ∧ entry = rowEntry listed := by
  have old : (∃ listed ∈ before ++ [artifact], listed.relativePath = path ∧
      parentPath path = currentPath ∧ entry = rowEntry listed) ↔
      children.explicit.get path = some entry ∨
        artifact.relativePath = path ∧ parentPath path = currentPath ∧
          entry = rowEntry artifact := by
    rw [gathered.explicit]
    simp [or_and_right, exists_or]
  rw [old]
  have unchanged (aside : ¬(artifact.relativePath = path ∧ parentPath path = currentPath)) :
      children.explicit.get path = some entry ↔ children.explicit.get path = some entry ∨
        artifact.relativePath = path ∧ parentPath path = currentPath ∧
          entry = rowEntry artifact := by
    constructor
    · exact .inl
    · rintro (found | ⟨same, parent, -⟩)
      · exact found
      · exact (aside ⟨same, parent⟩).elim
  by_cases inside : ∃ name rest,
      pathSegments artifact.relativePath = pathSegments currentPath ++ name :: rest
  · obtain ⟨name, rest, parts⟩ := inside
    have parent := parent_iff folder normalized parts
    have child := child_eq folder normalized parts
    have named := (child_spec folder normalized parts).2.2.2
    rw [add_below folder normalized parts]
    split
    · rename_i last
      rw [child last] at named ⊢
      have entered : (⟨artifact.relativePath, name, artifact.isDir, some artifact⟩ : TreeEntry) =
          rowEntry artifact := by rw [rowEntry, named]
      rw [entered, OrderedMap.get_set]
      split
      · rename_i same
        subst same
        have absent : ¬children.explicit.get artifact.relativePath = some entry := fun found => by
          obtain ⟨listed, member, same, -⟩ := (gathered.explicit _ _).mp found
          exact fresh ⟨listed, member, same⟩
        rw [Option.some.injEq]
        constructor
        · rintro rfl
          exact .inr ⟨rfl, parent.mpr last, rfl⟩
        · rintro (found | ⟨-, -, rfl⟩)
          · exact (absent found).elim
          · rfl
      · rename_i other
        exact unchanged fun both => other both.1.symm
    · rename_i deep
      have aside : ¬(artifact.relativePath = path ∧ parentPath path = currentPath) := by
        rintro ⟨rfl, here⟩
        exact deep (parent.mp here)
      split
      · exact unchanged aside
      · exact unchanged aside
  · have aside : ¬(artifact.relativePath = path ∧ parentPath path = currentPath) := by
      rintro ⟨rfl, here⟩
      obtain ⟨name, parts⟩ := (parentPath_eq_iff folder normalized).mp here
      exact inside ⟨name, [], parts⟩
    rw [add_aside folder normalized inside]
    exact unchanged aside

end Loop

theorem gathered_foldl {currentPath : String} (folder : Folder currentPath)
    {before artifacts : List BundleArtifact} {children : Children}
    (gathered : Gathered before currentPath children) (paths : NormalPaths (before ++ artifacts)) :
    Gathered (before ++ artifacts) currentPath
      (artifacts.foldl (Children.add currentPath) children) := by
  induction artifacts generalizing before children with
  | nil => rwa [List.append_nil]
  | cons artifact rest induction =>
      have normalized := paths.normalized artifact (by simp)
      have whole : before ++ artifact :: rest = before ++ [artifact] ++ rest := by simp
      have gathering : Gathered (before ++ [artifact]) currentPath
          (children.add currentPath artifact) :=
        ⟨gathered.add_explicit folder normalized paths.fresh,
          gathered.add_implied folder normalized⟩
      rw [whole] at paths ⊢
      exact induction gathering paths

/-! ## The merged maps -/

section Merge

variable {artifacts : List BundleArtifact} {currentPath : String} {children : Children}
    (gathered : Gathered artifacts currentPath children)

include gathered

theorem Gathered.merged (path : String) (entry : TreeEntry) :
    children.merged.get path = some entry ↔
      Shows artifacts entry ∧ entry.relativePath = path ∧ parentPath path = currentPath := by
  have rows : path ∈ children.explicit.keys ↔
      HasRow artifacts path ∧ parentPath path = currentPath := by
    simp only [OrderedMap.mem_keys_iff, gathered.explicit]
    constructor
    · rintro ⟨_, artifact, listed, same, parent, -⟩
      exact ⟨⟨artifact, listed, same⟩, parent⟩
    · rintro ⟨⟨artifact, listed, same⟩, parent⟩
      exact ⟨_, artifact, listed, same, parent, rfl⟩
  rw [Children.merged, OrderedMap.get_foldl_set children.explicit.distinct,
    ← OrderedMap.get_eq_some_iff, gathered.explicit, gathered.implied]
  change _ ∨ path ∉ children.explicit.keys ∧ _ ↔ _
  rw [rows]
  constructor
  · rintro (⟨artifact, listed, same, parent, rfl⟩ | ⟨rowless, implied, parent, rfl⟩)
    · exact ⟨.row artifact listed, same, parent⟩
    · exact ⟨.folder path implied fun row => rowless ⟨row, parent⟩, rfl, parent⟩
  · rintro ⟨shown, same, parent⟩
    cases shown with
    | row artifact listed => exact .inl ⟨artifact, listed, same, parent, rfl⟩
    | folder above implied rowless =>
        obtain rfl : above = path := same
        exact .inr ⟨fun row => rowless row.1, implied, parent, rfl⟩

end Merge

/-- The entries of a folder, each once and in order. -/
theorem childrenOf_spec (collation : Collation) {artifacts : List BundleArtifact}
    (paths : NormalPaths artifacts) {currentPath : String} (folder : Folder currentPath) :
    ((childrenOf collation artifacts currentPath).map TreeEntry.relativePath).Nodup ∧
      (∀ entry, entry ∈ childrenOf collation artifacts currentPath ↔
        Shows artifacts entry ∧ parentPath entry.relativePath = currentPath) := by
  have gathered := gathered_foldl folder (Gathered.empty currentPath) paths
  have merged := gathered.merged
  rw [List.nil_append] at merged
  have sorted := List.mergeSort_perm
    (artifacts.foldl (Children.add currentPath) .empty).merged.values (TreeEntry.le collation)
  refine ⟨?_, fun entry => ?_⟩
  · rw [childrenOf, (sorted.map _).nodup_iff, OrderedMap.map_values fun path entry found =>
      ((merged path entry).mp found).2.1]
    exact OrderedMap.keys_nodup _
  · rw [childrenOf, sorted.mem_iff, OrderedMap.mem_values_iff]
    simp only [merged]
    constructor
    · rintro ⟨path, shown, rfl, parent⟩
      exact ⟨shown, parent⟩
    · rintro ⟨shown, parent⟩
      exact ⟨_, shown, rfl, parent⟩

end Loontail.AdminUi
