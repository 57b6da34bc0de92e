import Loontail.Bundles.Extraction
import Loontail.Bundles.Rewrites

/-! # Rows that are on disk

A build is tidy when its rows are named after their paths and each is on disk, a folder
for a folder and a file for a file. Then no file row can have another row below it. -/

namespace Loontail.Bundles

open Concurrency Disk

def kindAt (disk : Builds) (path : List String) : Option Bool := (disk.find path).map Node.isFolder

theorem kindAt_folder {disk : Builds} {path : List String} :
    kindAt disk path = some true ↔ disk.find path = some .folder := by
  unfold kindAt
  cases disk.find path with
  | none => simp
  | some node => cases node <;> simp [Node.isFolder]

theorem kindAt_file {disk : Builds} {path : List String} :
    kindAt disk path = some false ↔ disk.isFile path = true := by
  unfold kindAt Tree.isFile
  cases disk.find path with
  | none => simp
  | some node => cases node <;> simp [Node.isFolder]

theorem present_of_kind {disk : Builds} {path : List String} {kind : Bool}
    (there : kindAt disk path = some kind) : (disk.find path).isSome := by
  unfold kindAt at there
  obtain ⟨node, found, -⟩ := Option.map_eq_some_iff.mp there
  rw [found]
  rfl

structure Tidy (id : Uuid) (slug : String) (rows : List BundleArtifact) (disk : Builds) : Prop where
  named : ∀ row ∈ rows, row.bundleId = id → row.Named
  placed : ∀ row ∈ rows, row.bundleId = id →
    kindAt disk (joinFiles (filesPath slug) row.relativePath) = some row.isDir
  plain : ∀ rest, (disk.find (filesPath slug ++ rest)).isSome → PlainNames rest

namespace Tidy

variable {id : Uuid} {slug : String} {rows : List BundleArtifact} {disk after : Builds}

theorem leaf (tidy : Tidy id slug rows disk) {file : BundleArtifact} (member : file ∈ rows)
    (build : file.bundleId = id) (isFile : file.isDir = false) {path : List String}
    (present : (disk.find path).isSome)
    (below : joinFiles (filesPath slug) file.relativePath <+: path) :
    joinFiles (filesPath slug) file.relativePath = path := by
  by_contra proper
  have folder := kindAt_folder.mpr (Tree.folder_of_above below proper present)
  rw [tidy.placed file member build, isFile] at folder
  cases folder

theorem congr (tidy : Tidy id slug rows disk)
    (same : ∀ rest, rest ≠ [] → after.find (filesPath slug ++ rest) =
      disk.find (filesPath slug ++ rest)) : Tidy id slug rows after where
  named := tidy.named
  placed := fun row member build => by
    rw [← tidy.placed row member build, kindAt, kindAt, joinFiles,
      same _ (segments_ne_nil row.relativePath)]
  plain := fun rest there => by
    by_cases empty : rest = []
    · rw [empty]
      exact .nil
    · exact tidy.plain rest (same rest empty ▸ there)

theorem fewer {remaining : List BundleArtifact} (tidy : Tidy id slug rows disk)
    (subset : ∀ row ∈ remaining, row ∈ rows) : Tidy id slug remaining disk where
  named := fun row member => tidy.named row (subset row member)
  placed := fun row member => tidy.placed row (subset row member)
  plain := tidy.plain

theorem createDirAll {path : List String} (tidy : Tidy id slug rows disk)
    (inner : Inner (filesPath slug) path) (made : disk.createDirAll path = .ok after) :
    Tidy id slug rows after where
  named := tidy.named
  placed := fun row member build => by
    have placed := tidy.placed row member build
    rw [kindAt, Tree.createDirAll_keeps made (present_of_kind placed)]
    exact placed
  plain := fun rest there => by
    obtain ⟨parts, plain, rfl⟩ := inner
    by_cases way : filesPath slug ++ rest <+: filesPath slug ++ parts
    · exact plain.of_prefix ((List.prefix_append_right_inj _).mp way)
    · rw [Tree.createDirAll_apart made way] at there
      exact tidy.plain rest there

theorem fileRenamed {source : List String} {relativePath : String}
    (tidy : Tidy id slug rows disk) (normalized : Normalized relativePath)
    (isFile : disk.isFile source = true)
    (elsewhere : ∀ rest, ¬source <+: filesPath slug ++ rest)
    (renamed : disk.rename source (joinFiles (filesPath slug) relativePath) = .ok after) :
    Tidy id slug rows after ∧
      kindAt after (joinFiles (filesPath slug) relativePath) = some false := by
  have arrived : kindAt after (joinFiles (filesPath slug) relativePath) = some false := by
    rw [kindAt, Tree.rename_puts renamed]
    exact kindAt_file.mpr isFile
  obtain ⟨-, moves, movable⟩ := (Tree.rename_ok renamed).resolve_left fun same =>
    elsewhere (segments relativePath) ⟨[], by rw [List.append_nil, same.1]; rfl⟩
  obtain ⟨content, file⟩ := Tree.isFile_iff.mp isFile
  have notFolder : disk.isFolder source = false := by simp [Tree.isFolder, file, Node.isFolder]
  have free : disk.isFolder (joinFiles (filesPath slug) relativePath) = false := by
    have replaces := movable.2.2.2
    simp only [Tree.replaces, isFile, notFolder, Bool.true_and, Bool.false_and,
      Bool.or_false, Bool.not_eq_true'] at replaces
    exact replaces
  refine ⟨⟨tidy.named, fun row member build => ?_, fun rest there => ?_⟩, arrived⟩
  · have placed := tidy.placed row member build
    by_cases same : row.relativePath = relativePath
    · rw [same] at placed ⊢
      rw [arrived]
      cases dir : row.isDir with
      | false => rfl
      | true =>
          rw [dir] at placed
          rw [Tree.isFolder_iff.mpr (kindAt_folder.mp placed)] at free
          cases free
    · have apart : joinFiles (filesPath slug) row.relativePath ≠
          joinFiles (filesPath slug) relativePath := fun equal =>
        same (joinFiles_injective equal).2
      have kept : after.find (joinFiles (filesPath slug) row.relativePath) =
          disk.find (joinFiles (filesPath slug) row.relativePath) :=
        Tree.rename_keeps renamed (elsewhere _) apart (present_of_kind placed)
      rw [kindAt, kept]
      exact placed
  · rw [moves, Tree.moved] at there
    split at there
    · rename_i within
      obtain ⟨below, whole⟩ := within
      have parts : rest = segments relativePath ++ below := by
        simpa [joinFiles, List.append_assoc] using whole.symm
      subst parts
      have gone : below = [] := by
        by_contra proper
        rw [← whole, List.drop_left] at there
        have folder := Tree.folder_above there proper
        rw [file] at folder
        cases folder
      rw [gone, List.append_nil]
      exact normalized.plainNames
    · rw [if_neg (elsewhere rest)] at there
      exact tidy.plain rest there

theorem unlinked {path : List String} (tidy : Tidy id slug rows disk)
    (clear : ∀ row ∈ rows, row.bundleId = id →
      ¬path <+: joinFiles (filesPath slug) row.relativePath)
    (kept : ∀ other, ¬path <+: other → after.find other = disk.find other)
    (left : ∀ other, (after.find other).isSome → (disk.find other).isSome) :
    Tidy id slug rows after where
  named := tidy.named
  placed := fun row member build => by
    rw [kindAt, kept _ (clear row member build)]
    exact tidy.placed row member build
  plain := fun rest there => tidy.plain rest (left _ there)

theorem dirUnlinked {path : List String} (tidy : Tidy id slug rows disk)
    (clear : ∀ row ∈ rows, row.bundleId = id →
      ¬path <+: joinFiles (filesPath slug) row.relativePath) :
    Tidy id slug rows (DiskCall.settle disk (disk.removeDirAll path)).2 := by
  cases removed : disk.removeDirAll path with
  | error error => exact tidy
  | ok after =>
      refine tidy.unlinked clear (fun other => Tree.removeDirAll_keeps removed) ?_
      intro other there
      change (after.find other).isSome at there
      rw [(Tree.removeDirAll_ok removed).1, Tree.withoutFolder] at there
      split at there
      · cases there
      · exact there

theorem fileUnlinked {path : List String} (tidy : Tidy id slug rows disk)
    (clear : ∀ row ∈ rows, row.bundleId = id →
      ¬path <+: joinFiles (filesPath slug) row.relativePath) :
    Tidy id slug rows (DiskCall.settle disk (disk.removeFile path)).2 := by
  cases removed : disk.removeFile path with
  | error error => exact tidy
  | ok after =>
      refine tidy.unlinked clear (fun other apart => Tree.removeFile_keeps removed ?_) ?_
      · rintro rfl
        exact apart (List.prefix_refl _)
      · intro other there
        change (after.find other).isSome at there
        rw [(Tree.removeFile_ok removed).1, Tree.withoutFile] at there
        split at there
        · cases there
        · exact there

/-- What is at and below a row's path is moved on disk as its rows are. -/
theorem moved {oldRel newRel : String} {entry : BundleArtifact} {remaining : List BundleArtifact}
    (tidy : Tidy id slug rows disk) (normalized : Normalized newRel) (member : entry ∈ rows)
    (build : entry.bundleId = id) (here : entry.relativePath = oldRel)
    (free : ∀ row ∈ rows, row.bundleId = id → row.relativePath ≠ newRel)
    (renamed : disk.rename (joinFiles (filesPath slug) oldRel)
      (joinFiles (filesPath slug) newRel) = .ok after)
    (image : ∀ row ∈ remaining, ∃ old ∈ rows, row = movedRow id oldRel newRel entry.isDir old) :
    Tidy id slug remaining after := by
  obtain ⟨-, moves, movable⟩ := (Tree.rename_ok renamed).resolve_left fun same =>
    free entry member build (here.trans (joinFiles_injective same.1).2)
  have arrived : ∀ rest, after.find (joinFiles (filesPath slug) newRel ++ rest) =
      disk.find (joinFiles (filesPath slug) oldRel ++ rest) := by
    intro rest
    rw [moves, Tree.moved, if_pos (List.prefix_append _ _), List.drop_left]
  refine ⟨fun row listed => ?_, fun row listed => ?_, fun rest there => ?_⟩
  · obtain ⟨old, present, rfl⟩ := image row listed
    unfold movedRow
    split
    · exact fun _ => relocated_named normalized old
    · split
      · rename_i below
        intro mine
        refine relocated_named (fun part within => ?_) old
        rw [segments_rebased] at within
        rcases List.mem_append.mp within with first | later
        · exact normalized part first
        · exact (tidy.named old present below.2.1).normalized part (List.mem_of_mem_drop later)
      · exact tidy.named old present
  · obtain ⟨old, present, rfl⟩ := image row listed
    unfold movedRow
    split
    · rename_i same
      intro _
      have placed := tidy.placed old present same.1
      rw [same.2] at placed
      rw [← List.append_nil (joinFiles _ oldRel)] at placed
      rw [← List.append_nil (joinFiles _ _)]
      simp only [kindAt, relocated] at placed ⊢
      rw [arrived]
      exact placed
    · split
      · rename_i other below
        intro _
        have placed := tidy.placed old present below.2.1
        obtain ⟨rest, parts⟩ := below.2.2.1
        have target : joinFiles (filesPath slug) (rebased oldRel newRel old.relativePath) =
            joinFiles (filesPath slug) newRel ++ rest := by
          rw [joinFiles, segments_rebased, ← parts, List.drop_left, joinFiles, List.append_assoc]
        have source : joinFiles (filesPath slug) old.relativePath =
            joinFiles (filesPath slug) oldRel ++ rest := by
          rw [joinFiles, ← parts, joinFiles, List.append_assoc]
        simp only [kindAt, relocated] at placed ⊢
        rw [target, arrived, ← source]
        exact placed
      · rename_i elsewhere outside
        intro mine
        have placed := tidy.placed old present mine
        have stays : ¬joinFiles (filesPath slug) oldRel <+:
            joinFiles (filesPath slug) old.relativePath := by
          intro within
          have different : oldRel ≠ old.relativePath := fun same => elsewhere ⟨mine, same.symm⟩
          cases dir : entry.isDir with
          | true => exact outside ⟨dir, mine, (List.prefix_append_right_inj _).mp within, different⟩
          | false =>
              subst here
              exact different (joinFiles_injective
                (tidy.leaf member build dir (present_of_kind placed) within)).2
        have apart : joinFiles (filesPath slug) old.relativePath ≠
            joinFiles (filesPath slug) newRel := fun same =>
          free old present mine (joinFiles_injective same).2
        rw [kindAt, Tree.rename_keeps renamed stays apart (present_of_kind placed)]
        exact placed
  · rw [moves, Tree.moved] at there
    split at there
    · rename_i within
      obtain ⟨below, whole⟩ := within
      have parts : rest = segments newRel ++ below := by
        simpa [joinFiles, List.append_assoc] using whole.symm
      rw [← whole, List.drop_left, joinFiles, List.append_assoc] at there
      rw [parts]
      exact PlainNames.append.mpr
        ⟨normalized.plainNames, (PlainNames.append.mp (tidy.plain _ there)).2⟩
    · split at there
      · cases there
      · exact tidy.plain rest there

end Tidy

end Loontail.Bundles
