import Loontail.Disk.Tree
import Mathlib.Data.Set.Card

/-! # Folders and what is in them -/

/-! ## Gathering things in a folder

What is renamed into a folder from elsewhere is there for good: each such rename leaves
one thing less outside, and each folder made on the way leaves one thing less to make. -/

namespace Disk.Tree

variable {Name Content : Type} {tree after : Tree Name Content} {folder source : List Name}

/-- What is neither on the way to the folder nor directly in it. -/
def strays (tree : Tree Name Content) (folder : List Name) : Set (List Name) :=
  { path | (tree.find path).isSome ∧ ¬path <+: folder ∧ ∀ name, path ≠ folder ++ [name] }

theorem strays_finite (tree : Tree Name Content) (folder : List Name) :
    (tree.strays folder).Finite :=
  (List.finite_toSet tree.known).subset fun path stray => tree.listed path stray.1

def missing (tree : Tree Name Content) (folder : List Name) : Set (List Name) :=
  { path | path <+: folder ∧ tree.find path = none }

theorem missing_finite (tree : Tree Name Content) (folder : List Name) :
    (tree.missing folder).Finite :=
  (List.finite_toSet folder.inits).subset fun path missing =>
    (List.mem_inits path folder).mpr missing.1

/-- How many things a gathering in the folder has still before it. -/
noncomputable def outstanding (tree : Tree Name Content) (folder : List Name) : Nat :=
  (tree.missing folder).ncard + (tree.strays folder).ncard

theorem outstanding_eq (same : after.find = tree.find) :
    after.outstanding folder = tree.outstanding folder := by
  simp only [outstanding, missing, strays, same]

theorem missing_empty (there : (tree.find folder).isSome) : tree.missing folder = ∅ := by
  refine Set.eq_empty_of_forall_notMem fun path ⟨within, lacking⟩ => ?_
  by_cases same : path = folder
  · rw [same] at lacking
    rw [lacking] at there
    cases there
  · rw [folder_of_above within same there] at lacking
    cases lacking

variable [DecidableEq Name]

theorem createDirAll_strays (made : tree.createDirAll folder = .ok after) :
    after.strays folder = tree.strays folder := by
  ext path
  simp only [strays, Set.mem_ofPred_eq]
  constructor <;> rintro ⟨there, outside, apart⟩ <;> refine ⟨?_, outside, apart⟩
  · rwa [createDirAll_apart made outside] at there
  · rwa [createDirAll_apart made outside]

/-- A rename into the folder of what was not there leaves fewer strays. -/
theorem rename_strays {name : Name} (renamed : tree.rename source (folder ++ [name]) = .ok after)
    (elsewhere : ∀ other, source ≠ folder ++ [other]) :
    (after.strays folder).ncard < (tree.strays folder).ncard := by
  rcases rename_ok renamed with ⟨same, -⟩ | ⟨-, moves, movable⟩
  · exact (elsewhere name same).elim
  obtain ⟨-, apart, -, replaces⟩ := movable
  have present : (tree.find source).isSome := by
    simp only [Tree.replaces, Bool.or_eq_true, Bool.and_eq_true] at replaces
    rcases replaces with ⟨file, -⟩ | ⟨⟨dir, -⟩, -⟩
    · obtain ⟨content, found⟩ := isFile_iff.mp file
      rw [found]
      rfl
    · rw [isFolder_iff.mp dir]
      rfl
  have stray : source ∈ tree.strays folder :=
    ⟨present, fun above => apart (above.trans (List.prefix_append _ _)), elsewhere⟩
  -- whatever strays now is a stray of before, or lies below what was moved
  have within : after.strays folder ⊆ (fun path =>
      if source <+: path then folder ++ [name] ++ path.drop source.length else path) ''
        (tree.strays folder \ {source}) := by
    rintro path ⟨there, outside, notIn⟩
    rw [moves, moved] at there
    split at there
    · rename_i below
      obtain ⟨rest, rfl⟩ := below
      rw [List.drop_left] at there
      have proper : rest ≠ [] := by
        rintro rfl
        exact notIn name (List.append_nil _)
      refine ⟨source ++ rest, ⟨⟨there, ?_, ?_⟩, ?_⟩, ?_⟩
      · exact fun above => apart (((List.prefix_append _ _).trans above).trans
          (List.prefix_append _ _))
      · intro other same
        have above : source <+: folder ++ [other] := ⟨rest, same⟩
        rcases List.prefix_concat_iff.mp above with whole | inside
        · exact elsewhere other whole
        · exact apart (inside.trans (List.prefix_append _ _))
      · simpa using proper
      · simp
    · split at there
      · cases there
      · rename_i kept
        refine ⟨path, ⟨⟨there, outside, notIn⟩, ?_⟩, if_neg kept⟩
        rintro rfl
        exact kept (List.prefix_refl _)
  calc (after.strays folder).ncard
      ≤ (tree.strays folder \ {source}).ncard :=
        (Set.ncard_le_ncard within (((strays_finite tree folder).sdiff).image _)).trans
          (Set.ncard_image_le (strays_finite tree folder).sdiff)
    _ < (tree.strays folder).ncard :=
        Set.ncard_sdiff_singleton_lt_of_mem stray (strays_finite tree folder)

theorem createDirAll_outstanding (made : tree.createDirAll folder = .ok after)
    (lacking : tree.find folder = none) : after.outstanding folder < tree.outstanding folder := by
  have there : after.find folder = some .folder := by
    rw [(createDirAll_ok made).1, withFolders, if_pos (List.prefix_refl _)]
  have done : (after.missing folder).ncard = 0 := by
    rw [missing_empty (by rw [there]; rfl), Set.ncard_empty]
  have pending : 0 < (tree.missing folder).ncard :=
    (Set.ncard_pos (missing_finite tree folder)).mpr ⟨folder, List.prefix_refl _, lacking⟩
  unfold outstanding
  rw [createDirAll_strays made, done]
  omega

theorem createDirAll_idle (made : tree.createDirAll folder = .ok after)
    (there : (tree.find folder).isSome) : after.find = tree.find := by
  funext path
  by_cases present : (tree.find path).isSome
  · exact createDirAll_keeps made present
  · refine createDirAll_apart made fun within => ?_
    have lacking : path ∈ tree.missing folder := ⟨within, by simpa using present⟩
    rw [missing_empty there] at lacking
    exact lacking

theorem rename_outstanding {name : Name}
    (renamed : tree.rename source (folder ++ [name]) = .ok after)
    (elsewhere : ∀ other, source ≠ folder ++ [other]) :
    after.outstanding folder < tree.outstanding folder := by
  have kept : after.missing folder = tree.missing folder := by
    have apart : ¬source <+: folder ++ [name] := by
      rcases rename_ok renamed with ⟨same, -⟩ | ⟨-, -, movable⟩
      · exact (elsewhere name same).elim
      · exact movable.2.1
    ext path
    refine and_congr_right fun within => ?_
    rw [rename_apart renamed]
    · exact fun above => apart ((above.trans within).trans (List.prefix_append _ _))
    · intro above
      have short := (above.trans within).length_le
      rw [List.length_append, List.length_singleton] at short
      omega
  unfold outstanding
  rw [kept]
  exact Nat.add_lt_add_left (rename_strays renamed elsewhere) _

end Disk.Tree

/-! ## What is seen from a folder

A call on what is in a folder goes by the folder, by what is in it and by what it lies in.
Where two trees agree on that, it goes the same way in both. -/

namespace Disk.Tree

variable {Name Content : Type} {left right : Tree Name Content} {folder path : List Name}

def Alike (folder : List Name) (left right : Tree Name Content) : Prop :=
  ∀ path, path <+: folder ∨ folder <+: path → left.find path = right.find path

theorem near_of_above {above : List Name} (within : folder <+: path) (higher : above <+: path) :
    above <+: folder ∨ folder <+: above := by
  rcases Nat.le_total above.length folder.length with short | long
  · exact .inl (List.prefix_of_prefix_length_le higher within short)
  · exact .inr (List.prefix_of_prefix_length_le within higher long)

theorem Alike.isFile (alike : Alike folder left right) (near : path <+: folder ∨ folder <+: path) :
    left.isFile path = right.isFile path := by
  unfold Tree.isFile
  rw [alike path near]

theorem Alike.isFolder (alike : Alike folder left right)
    (near : path <+: folder ∨ folder <+: path) : left.isFolder path = right.isFolder path := by
  unfold Tree.isFolder
  rw [alike path near]

theorem Alike.throughFile (alike : Alike folder left right) {below : List Name}
    (within : folder <+: below) (higher : path <+: below) :
    left.throughFile path = right.throughFile path := by
  unfold Tree.throughFile
  rw [Bool.eq_iff_iff, List.any_eq_true, List.any_eq_true]
  refine exists_congr fun above => and_congr_right fun member => ?_
  rw [alike.isFile (near_of_above within (((List.mem_inits _ _).mp member).trans higher))]

theorem Alike.unresolved (alike : Alike folder left right) {below : List Name}
    (within : folder <+: below) (higher : path <+: below) :
    left.unresolved path = right.unresolved path := by
  unfold Tree.unresolved
  rw [alike.throughFile within higher]

inductive Together (folder : List Name) :
    Except IoError (Tree Name Content) → Except IoError (Tree Name Content) → Prop where
  | error (error : IoError) : Together folder (.error error) (.error error)
  | ok {left right : Tree Name Content} (alike : Alike folder left right) :
      Together folder (.ok left) (.ok right)

variable [DecidableEq Name]

theorem Alike.createDirAll (alike : Alike folder left right) (within : folder <+: path) :
    Together folder (left.createDirAll path) (right.createDirAll path) := by
  unfold Tree.createDirAll
  rw [alike.isFile (.inr within), alike.throughFile within (List.prefix_refl path)]
  split
  · exact .error _
  · split
    · exact .error _
    · refine .ok fun other near => ?_
      simp only [withFolders]
      rw [alike other near]

theorem Alike.writeFile (alike : Alike folder left right) (within : folder <+: path)
    (content : Content) :
    Together folder (left.writeFile path content) (right.writeFile path content) := by
  have parent : path.dropLast <+: path := List.dropLast_prefix path
  have admits : left.Admits path ↔ right.Admits path := by
    unfold Admits
    rw [alike.isFolder (.inr within), alike.isFolder (near_of_above within parent)]
  unfold Tree.writeFile
  rw [alike.isFolder (.inr within), alike.unresolved within parent]
  by_cases admitted : right.Admits path
  · rw [dif_pos admitted, dif_pos (admits.mpr admitted)]
    refine .ok fun other near => ?_
    simp only [withFile]
    rw [alike other near]
  · rw [dif_neg admitted, dif_neg (admitted ∘ admits.mp)]
    split
    · exact .error _
    · exact .error _

end Disk.Tree
