import Loontail.Bundles.Service

/-! # Where the calls on the tree reach

The files of a build, its manifest and the temporary files of uploads lie apart, and a
call leaves what it does not name. -/

namespace Loontail.Bundles

open Disk

/-! ## The paths of a build -/

theorem toString_injective {left right : Nat} (same : toString left = toString right) :
    left = right := by
  rw [Nat.toString_eq_ofList_toDigits, Nat.toString_eq_ofList_toDigits,
    String.ofList_inj] at same
  rw [← @Nat.ofDigitChars_ten_toDigits left, same, Nat.ofDigitChars_ten_toDigits]

theorem uploadPath_injective {slug other : String} {left right : Nat}
    (same : uploadPath slug left = uploadPath other right) : slug = other ∧ left = right := by
  simp only [uploadPath, List.cons.injEq, and_true, ← String.toList_inj, String.toList_append,
    List.append_assoc, List.append_cancel_left_eq, List.append_cancel_right_eq] at same
  exact ⟨String.toList_inj.mp same.1, toString_injective (String.toList_inj.mp same.2)⟩

theorem not_within_files {slug other name : String} (different : name ≠ "files")
    (inside : List String) : ¬[slug, name] <+: filesPath other ++ inside := by
  rintro ⟨rest, same⟩
  simp only [filesPath, List.cons_append, List.nil_append, List.cons.injEq] at same
  exact different same.2.1

theorem uploadPath_ne {name : String} (other : name.toList.head? ≠ some 'u')
    (slug folder : String) (number : Nat) : uploadPath slug number ≠ [folder, name] := by
  intro same
  simp only [uploadPath, List.cons.injEq, and_true] at same
  rw [← same.2, String.toList_append, String.toList_append, List.append_assoc] at other
  simp at other

theorem upload_not_within_files (slug other : String) (number : Nat) (inside : List String) :
    ¬uploadPath slug number <+: filesPath other ++ inside := by
  refine not_within_files (fun name => ?_) inside
  exact @uploadPath_ne "files" (by decide) slug slug number (by rw [uploadPath, name])

theorem joinFiles_injective {slug other left right : String}
    (same : joinFiles (filesPath slug) left = joinFiles (filesPath other) right) :
    slug = other ∧ left = right := by
  simp only [joinFiles, filesPath, List.cons_append, List.nil_append, List.cons.injEq,
    true_and] at same
  exact ⟨same.1, segments_injective same.2⟩

/-! ## What a call leaves alone -/

namespace DiskCall

/-- The call does not name the path, nor a folder that it takes the path with. -/
def Spares (path : List String) : DiskCall → Prop
  | create other => path ≠ other
  | append other _ => path ≠ other
  | rename source target => ¬source <+: path ∧ path ≠ target
  | removeFile other => path ≠ other
  | removeDirAll other => ¬other <+: path
  | writeManifest slug _ => ¬stagedManifestPath slug <+: path ∧ path ≠ manifestPath slug
  | _ => True

theorem settle_find {disk : Builds} {result : Except IoError Builds} {path : List String}
    (kept : ∀ after, result = .ok after → after.find path = disk.find path) :
    (settle disk result).2.find path = disk.find path := by
  cases result with
  | error error => rfl
  | ok after => exact kept after rfl

theorem appended_keeps {disk after : Builds} {path other : List String} {data : Bytes}
    (written : appended disk path data = .ok after) (apart : other ≠ path) :
    after.find other = disk.find other := by
  unfold appended at written
  split at written
  · exact Tree.writeFile_keeps written apart
  · cases written
    rfl

theorem appended_puts {disk after : Builds} {path : List String} {content data : Bytes}
    (there : disk.find path = some (.file content))
    (written : appended disk path data = .ok after) :
    after.find path = some (.file (content ++ data)) := by
  simp only [appended, there] at written
  rw [(Tree.writeFile_ok written).1, Tree.withFile, if_pos rfl]

theorem replaceManifest_keeps {disk : Builds} {slug : String} {json : Bytes}
    {path : List String} (apart : ¬stagedManifestPath slug <+: path)
    (other : path ≠ manifestPath slug) (there : (disk.find path).isSome) :
    (replaceManifest disk slug json).2.find path = disk.find path := by
  have unstaged : path ≠ stagedManifestPath slug := by
    rintro rfl
    exact apart (List.prefix_refl _)
  unfold replaceManifest
  split
  · rfl
  · rename_i made created
    have first := Tree.createDirAll_keeps created there
    split
    · exact first
    · rename_i staged written
      have second := (Tree.writeFile_keeps written unstaged).trans first
      refine (settle_find fun after renamed => ?_).trans second
      exact Tree.rename_keeps renamed apart other (by rw [second]; exact there)

theorem replaceManifest_files (disk : Builds) (slug : String) (json : Bytes) (build : String)
    (inside : List String) :
    (replaceManifest disk slug json).2.find (filesPath build ++ inside) =
      disk.find (filesPath build ++ inside) := by
  have staged : ¬stagedManifestPath slug <+: filesPath build ++ inside :=
    not_within_files (by decide) inside
  have manifest : ¬manifestPath slug <+: filesPath build ++ inside :=
    not_within_files (by decide) inside
  have folder : ¬filesPath build ++ inside <+: buildPath slug := by
    intro within
    have short := within.length_le
    simp [filesPath, buildPath] at short
  unfold replaceManifest
  split
  · rfl
  · rename_i made created
    have first := Tree.createDirAll_apart created folder
    split
    · exact first
    · rename_i staging written
      refine (settle_find fun after renamed => ?_).trans ?_
      · exact Tree.rename_apart renamed staged manifest
      · refine (Tree.writeFile_keeps written ?_).trans first
        rintro same
        exact staged (by rw [same])

theorem staged_not_within (slug other : String) :
    ¬stagedManifestPath slug <+: manifestPath other := by
  intro within
  have same : stagedManifestPath slug = manifestPath other := within.eq_of_length rfl
  simp [stagedManifestPath, manifestPath] at same

/-- A manifest that is replaced holds what was written, one that is not stays. -/
theorem replaceManifest_cases (disk : Builds) (slug : String) (json : Bytes) :
    (∃ after, replaceManifest disk slug json = (.ok (), after) ∧
      after.find (manifestPath slug) = some (.file json)) ∨
    ∃ error after, replaceManifest disk slug json = (.error error, after) ∧
      ((disk.find (manifestPath slug)).isSome →
        after.find (manifestPath slug) = disk.find (manifestPath slug)) := by
  have other : manifestPath slug ≠ stagedManifestPath slug := by
    intro same
    exact staged_not_within slug slug (by rw [same])
  unfold replaceManifest
  split
  · exact .inr ⟨_, _, rfl, fun _ => rfl⟩
  · rename_i made created
    split
    · exact .inr ⟨_, _, rfl, Tree.createDirAll_keeps created⟩
    · rename_i staged written
      rcases settle_cases staged (staged.rename (stagedManifestPath slug) (manifestPath slug)) with
        ⟨tree, renamed, settled⟩ | ⟨error, -, settled⟩
      · refine .inl ⟨tree, settled, ?_⟩
        rw [Tree.rename_puts renamed, (Tree.writeFile_ok written).1, Tree.withFile, if_pos rfl]
      · refine .inr ⟨error, staged, settled, fun there => ?_⟩
        exact (Tree.writeFile_keeps written other).trans (Tree.createDirAll_keeps created there)

theorem perform_spares {disk : Builds} {call : DiskCall} {path : List String}
    (spares : call.Spares path) (there : (disk.find path).isSome) :
    (call.perform disk).2.find path = disk.find path := by
  cases call with
  | createDirAll other => exact settle_find fun _ made => Tree.createDirAll_keeps made there
  | create other => exact settle_find fun _ made => Tree.writeFile_keeps made spares
  | append other data => exact settle_find fun _ made => appended_keeps made spares
  | rename source target =>
      exact settle_find fun _ made => Tree.rename_keeps made spares.1 spares.2 there
  | removeFile other => exact settle_find fun _ made => Tree.removeFile_keeps made spares
  | removeDirAll other => exact settle_find fun _ made => Tree.removeDirAll_keeps made spares
  | tryExists other => rfl
  | isFile other => rfl
  | read other => rfl
  | probe filesRoot relativePaths => rfl
  | readDir other => rfl
  | scan filesRoot => rfl
  | writeManifest slug json => exact replaceManifest_keeps spares.1 spares.2 there

end DiskCall

end Loontail.Bundles
