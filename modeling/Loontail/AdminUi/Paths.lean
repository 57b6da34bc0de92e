import Loontail.AdminUi.FileTree

/-! # Folders by their segments

The root is the empty path. Every other folder is named by a normalized path. -/

namespace Loontail.AdminUi

open Bundles

def Folder (path : String) : Prop := path = "" ∨ Normalized path

section Segments

variable {path other name : String}

theorem ne_empty_of_normalized (normalized : Normalized path) : path ≠ "" := by
  rintro rfl
  have empty : segments "" = [""] := by decide +kernel
  exact (normalized "" (by rw [empty]; exact List.mem_singleton.mpr rfl)).filled rfl

theorem pathSegments_of_normalized (normalized : Normalized path) :
    pathSegments path = segments path :=
  List.filter_eq_self.mpr fun part member => decide_eq_true (normalized part member).filled

theorem pathSegments_empty : pathSegments "" = [] := by decide +kernel

theorem pathSegments_ne_nil (normalized : Normalized path) : pathSegments path ≠ [] := by
  rw [pathSegments_of_normalized normalized]
  exact segments_ne_nil path

theorem Folder.eq_of_pathSegments (folder : Folder path) (otherFolder : Folder other)
    (same : pathSegments path = pathSegments other) : path = other := by
  rcases folder with rfl | normalized
  · rcases otherFolder with rfl | otherNormalized
    · rfl
    · rw [pathSegments_empty] at same
      exact (pathSegments_ne_nil otherNormalized same.symm).elim
  · rcases otherFolder with rfl | otherNormalized
    · rw [pathSegments_empty] at same
      exact (pathSegments_ne_nil normalized same).elim
    · rw [pathSegments_of_normalized normalized, pathSegments_of_normalized otherNormalized] at same
      exact segments_injective same

theorem joinPath_spec (folder : Folder path) (safe : SafeSegment name) (plain : '/' ∉ name.toList) :
    Normalized (joinPath path name) ∧
      pathSegments (joinPath path name) = pathSegments path ++ [name] := by
  have one := segments_of_plain plain
  have normalizedName : Normalized name := by
    intro part member
    rw [one, List.mem_singleton] at member
    rw [member]
    exact safe
  rw [joinPath]
  split
  · rename_i root
    rw [root, pathSegments_empty, pathSegments_of_normalized normalizedName, one]
    exact ⟨normalizedName, rfl⟩
  · rename_i below
    have normalized := folder.resolve_left below
    have parts := segments_beneath path name
    have whole : Normalized (beneath path name) := by
      intro part member
      rw [parts] at member
      exact (List.mem_append.mp member).elim (normalized part) (normalizedName part)
    rw [pathSegments_of_normalized whole, parts, one, pathSegments_of_normalized normalized]
    exact ⟨whole, rfl⟩

theorem plain_of_mem (normalized : Normalized path) (member : name ∈ pathSegments path) :
    SafeSegment name ∧ '/' ∉ name.toList := by
  rw [pathSegments_of_normalized normalized] at member
  exact ⟨normalized name member, not_mem_of_mem_segments member⟩

theorem parentPath_beneath (plain : '/' ∉ name.toList) : parentPath (beneath path name) = path := by
  have chars : (beneath path name).toList = path.toList ++ '/' :: name.toList := by
    simp [beneath]
  have skipped : (name.toList.reverse ++ '/' :: path.toList.reverse).dropWhile (· ≠ '/') =
      '/' :: path.toList.reverse := by
    rw [List.dropWhile_append_of_pos]
    · rfl
    · intro char member
      refine decide_eq_true ?_
      rintro rfl
      exact plain (List.mem_reverse.mp member)
  rw [parentPath, chars, List.reverse_append, List.reverse_cons, List.append_assoc,
    List.singleton_append, skipped]
  simp

theorem parentPath_plain (plain : '/' ∉ name.toList) : parentPath name = "" := by
  have skipped : name.toList.reverse.dropWhile (· ≠ '/') = [] := by
    rw [List.dropWhile_eq_nil_iff]
    intro char member
    refine decide_eq_true ?_
    rintro rfl
    exact plain (List.mem_reverse.mp member)
  rw [parentPath, skipped]

theorem parentPath_joinPath (plain : '/' ∉ name.toList) :
    parentPath (joinPath path name) = path := by
  rw [joinPath]
  split
  · rename_i root
    rw [root]
    exact parentPath_plain plain
  · exact parentPath_beneath plain

theorem exists_joinPath (normalized : Normalized path) : ∃ parent name, Folder parent ∧
    SafeSegment name ∧ '/' ∉ name.toList ∧ path = joinPath parent name := by
  obtain ⟨front, name, parts⟩ := (List.eq_nil_or_concat (segments path)).resolve_left
    (segments_ne_nil path)
  rw [List.concat_eq_append] at parts
  have member : name ∈ segments path := by
    rw [parts]
    exact List.mem_append_right _ (List.mem_singleton.mpr rfl)
  have safe := normalized name member
  have plain := not_mem_of_mem_segments member
  by_cases top : front = []
  · refine ⟨"", name, .inl rfl, safe, plain, segments_injective ?_⟩
    rw [parts, top, joinPath, if_pos rfl, segments_of_plain plain, List.nil_append]
  · have apart : ∀ part ∈ front, '/' ∉ part.toList := fun part among =>
      not_mem_of_mem_segments (by rw [parts]; exact List.mem_append_left _ among)
    have rejoined := segments_joinSegments top apart
    have folder : Normalized (joinSegments front) := fun part among =>
      normalized part (by rw [rejoined] at among; rw [parts]; exact List.mem_append_left _ among)
    refine ⟨joinSegments front, name, .inr folder, safe, plain, segments_injective ?_⟩
    rw [parts, joinPath, if_neg (ne_empty_of_normalized folder), segments_beneath, rejoined,
      segments_of_plain plain]

theorem parentPath_eq_iff (folder : Folder path) (normalized : Normalized other) :
    parentPath other = path ↔ ∃ name, pathSegments other = pathSegments path ++ [name] := by
  obtain ⟨parent, last, parentFolder, safe, plain, rfl⟩ := exists_joinPath normalized
  rw [parentPath_joinPath plain, (joinPath_spec parentFolder safe plain).2]
  constructor
  · rintro rfl
    exact ⟨last, rfl⟩
  · rintro ⟨name, same⟩
    exact parentFolder.eq_of_pathSegments folder (List.append_inj' same rfl).1

theorem parentPath_folder (normalized : Normalized path) : Folder (parentPath path) := by
  obtain ⟨parent, last, parentFolder, -, plain, rfl⟩ := exists_joinPath normalized
  rw [parentPath_joinPath plain]
  exact parentFolder

theorem pathSegments_parentPath (normalized : Normalized path) :
    ∃ name, pathSegments path = pathSegments (parentPath path) ++ [name] :=
  (parentPath_eq_iff (parentPath_folder normalized) normalized).mp rfl

end Segments

/-! ## What a list of artifacts shows

An artifact is shown at its path. A path above an artifact is a folder, also where it has no row. -/

def nameOf (path : String) : String := (pathSegments path).getLast?.getD path

def rowEntry (artifact : BundleArtifact) : TreeEntry :=
  ⟨artifact.relativePath, nameOf artifact.relativePath, artifact.isDir, some artifact⟩

def folderEntry (path : String) : TreeEntry := ⟨path, nameOf path, true, none⟩

def HasRow (artifacts : List BundleArtifact) (path : String) : Prop :=
  ∃ artifact ∈ artifacts, artifact.relativePath = path

def Implied (artifacts : List BundleArtifact) (path : String) : Prop :=
  ∃ artifact ∈ artifacts, Below path artifact.relativePath

/-- A row wins over the folder that is implied at its path. -/
inductive Shows (artifacts : List BundleArtifact) : TreeEntry → Prop
  | row (artifact : BundleArtifact) (listed : artifact ∈ artifacts) :
      Shows artifacts (rowEntry artifact)
  | folder (path : String) (implied : Implied artifacts path) (rowless : ¬HasRow artifacts path) :
      Shows artifacts (folderEntry path)

structure NormalPaths (artifacts : List BundleArtifact) : Prop where
  normalized : ∀ artifact ∈ artifacts, Normalized artifact.relativePath
  distinct : (artifacts.map (·.relativePath)).Nodup

section Segments

variable {path other name : String}

theorem normalized_of_below (below : Below path other) (normalized : Normalized other) :
    Normalized path := fun part member => normalized part (below.1.subset member)

theorem below_iff (normalized : Normalized path) (otherNormalized : Normalized other) :
    Below path other ↔ ∃ name rest, pathSegments other = pathSegments path ++ name :: rest := by
  rw [Below, pathSegments_of_normalized normalized, pathSegments_of_normalized otherNormalized]
  constructor
  · rintro ⟨⟨rest, whole⟩, proper⟩
    cases rest with
    | nil => exact (proper (segments_injective (by simpa using whole))).elim
    | cons name rest => exact ⟨name, rest, whole.symm⟩
  · rintro ⟨name, rest, whole⟩
    refine ⟨⟨name :: rest, whole.symm⟩, ?_⟩
    rintro rfl
    exact List.cons_ne_nil _ _ (List.append_right_eq_self.mp whole.symm)

theorem nameOf_eq (parts : pathSegments path = pathSegments other ++ [name]) :
    nameOf path = name := by
  rw [nameOf, parts, List.getLast?_concat, Option.getD_some]

theorem child_spec {rest : List String} (folder : Folder path) (normalized : Normalized other)
    (parts : pathSegments other = pathSegments path ++ name :: rest) :
    Normalized (joinPath path name) ∧
      pathSegments (joinPath path name) = pathSegments path ++ [name] ∧
      parentPath (joinPath path name) = path ∧ nameOf (joinPath path name) = name := by
  have member : name ∈ pathSegments other := by
    rw [parts]
    exact List.mem_append_right _ List.mem_cons_self
  obtain ⟨safe, plain⟩ := plain_of_mem normalized member
  obtain ⟨child, childParts⟩ := joinPath_spec folder safe plain
  exact ⟨child, childParts, parentPath_joinPath plain, nameOf_eq childParts⟩

end Segments

theorem NormalPaths.eq_of_path {artifacts : List BundleArtifact} (paths : NormalPaths artifacts)
    {first second : BundleArtifact} (firstListed : first ∈ artifacts)
    (secondListed : second ∈ artifacts) (same : first.relativePath = second.relativePath) :
    first = second :=
  List.inj_on_of_nodup_map paths.distinct firstListed secondListed same

theorem NormalPaths.fresh {before rest : List BundleArtifact} {artifact : BundleArtifact}
    (paths : NormalPaths (before ++ artifact :: rest)) : ¬HasRow before artifact.relativePath := by
  rintro ⟨earlier, member, same⟩
  have distinct := paths.distinct
  rw [List.map_append, List.nodup_append] at distinct
  exact distinct.2.2 _ (List.mem_map.mpr ⟨earlier, member, rfl⟩) _
    (List.mem_map.mpr ⟨artifact, List.mem_cons_self, rfl⟩) same

theorem Shows.eq_of_path {artifacts : List BundleArtifact} (paths : NormalPaths artifacts)
    {first second : TreeEntry} (firstShown : Shows artifacts first)
    (secondShown : Shows artifacts second) (same : first.relativePath = second.relativePath) :
    first = second := by
  cases firstShown with
  | row left leftListed =>
      cases secondShown with
      | row right rightListed => rw [paths.eq_of_path leftListed rightListed same]
      | folder path _ rowless => exact (rowless ⟨left, leftListed, same⟩).elim
  | folder path _ rowless =>
      cases secondShown with
      | row right rightListed => exact (rowless ⟨right, rightListed, same.symm⟩).elim
      | folder other _ _ => rw [show path = other from same]

theorem Shows.listed {artifacts : List BundleArtifact} {entry : TreeEntry}
    (shown : Shows artifacts entry) {artifact : BundleArtifact}
    (carries : entry.artifact = some artifact) :
    artifact ∈ artifacts ∧ artifact.relativePath = entry.relativePath := by
  cases shown with
  | row listed member =>
      obtain rfl := Option.some.inj carries
      exact ⟨member, rfl⟩
  | folder path _ _ => exact (Option.some_ne_none _ carries.symm).elim

end Loontail.AdminUi
