import Loontail.Accounts.Admin
import Loontail.Bundles.Deletions
import Loontail.Guarantees.RecordedHashes

/-! # What a batch of deletions takes and reports

The batch reports how many of its listings name a row. A folder takes the rows below it
along, listed or not, and a row that is listed twice is removed once. -/

/-! ## Literal patterns

An escaped text stands for itself in a pattern, so a search finds what holds the text and
the deletion of a folder takes what lies in it. -/

namespace Loontail.Bundles

open Concurrency Relational Text

theorem like_startingWith (leading path : String) :
    like (startingWith leading).toList path.toList = true ↔ leading.toList <+: path.toList := by
  rw [startingWith, String.toList_ofList, like_startsWith, List.isPrefixOf_iff_prefix]

theorem cleared_folder {bundleId : Uuid} {folder : BundleArtifact} {before after : Service}
    (dir : folder.isDir = true) (cleared : Cleared bundleId [folder] before after)
    (row : BundleArtifact) :
    row ∈ after.database.artifacts.rows ↔ row ∈ before.database.artifacts.rows ∧
      row.id ≠ folder.id ∧
      ¬(row.bundleId = bundleId ∧
        (folder.relativePath ++ "/").toList <+: row.relativePath.toList) := by
  rw [cleared row]
  refine and_congr_right fun _ => ?_
  simp only [List.mem_singleton, forall_eq, Dropped, dir, true_and, leads_iff, not_or]

theorem folder_deletion_exact :
    (∀ leading path : String,
      like (startingWith leading).toList path.toList = true ↔
        leading.toList <+: path.toList) ∧
    (∀ needle text : List Char,
      like ('%' :: (escapeLikePattern needle ++ ['%'])) text = true ↔ needle <:+: text) ∧
    (∀ (state : Accounts.AppState) (query : String) (database : Accounts.Database)
      (user : Accounts.User), user ∈ state.searchUsers query database ↔
        user ∈ database.users.rows ∧
          (trim query = "" ∨
            (state.toLowercase (trim query)).toList <:+: user.normalizedUsername.toList ∨
            ∃ email ∈ user.email, (state.toLowercase (trim query)).toList <:+:
              (database.lower email).toList)) ∧
    ∀ (state : State) (service : Service) (slug : String) (bundle : Bundle)
      (folder : BundleArtifact), Names slug bundle service →
      folder ∈ service.database.artifacts.rows → folder.bundleId = bundle.id →
      folder.isDir = true → ∀ row,
        row ∈ ((deleteFile state slug (some folder.id)).run.evaluate
            service).2.database.artifacts.rows ↔
          row ∈ service.database.artifacts.rows ∧ row.id ≠ folder.id ∧
            ¬(row.bundleId = bundle.id ∧
              (folder.relativePath ++ "/").toList <+: row.relativePath.toList) := by
  refine ⟨like_startingWith, like_contains, Accounts.mem_searchUsers, ?_⟩
  intro state service slug bundle folder names member own dir
  have found : service.database.artifacts.find folder.id = some folder :=
    Table.find_eq_some.mpr ⟨member, rfl⟩
  exact cleared_folder dir (deleteFile_alone names found own).left

/-- A folder whose name is a wildcard, a file in it, and a file beside it. -/
def wildFolder : Service :=
  match Sql.upsertChunk 1 [folderEntry "a_", ⟨"a_/x", "x", "a_", 1, none, false, none⟩,
      ⟨"ab/x", "x", "ab", 1, none, false, none⟩] onePack.database with
  | .ok (_, database) => .boot database .empty
  | .error _ => onePack

theorem folder_deletion_exact_wild :
    ∀ row, row ∈ ((deleteFile shownState "pack" (some 1)).run.evaluate
        wildFolder).2.database.artifacts.rows ↔
      row ∈ wildFolder.database.artifacts.rows ∧ row.id ≠ 1 ∧
        ¬(row.bundleId = 1 ∧ "a_/".toList <+: row.relativePath.toList) :=
  folder_deletion_exact.2.2.2 shownState wildFolder "pack" packBundle
    ((folderEntry "a_").artifact 1 1) ⟨by decide +kernel, by decide +kernel⟩
    (by decide +kernel) (by decide +kernel) (by decide +kernel)

/-! ## Batches -/

section Batch

variable {bundleId : Uuid} {ids : List Uuid} {service : Service} {row : BundleArtifact}

def Taken (bundleId : Uuid) (ids : List Uuid) (rows : List BundleArtifact)
    (row : BundleArtifact) : Prop :=
  row.id ∈ ids ∨ ∃ folder ∈ rows, folder.id ∈ ids ∧ folder.isDir = true ∧
    row.bundleId = bundleId ∧ Below folder.relativePath row.relativePath

instance (bundleId : Uuid) (ids : List Uuid) (rows : List BundleArtifact) :
    DecidablePred (Taken bundleId ids rows) := fun _ => inferInstanceAs (Decidable (_ ∨ _))

def present (ids : List Uuid) (service : Service) : List Uuid :=
  ids.filter fun id => (service.database.artifacts.find id).isSome

/-- How often the list comes back to a row. -/
def repeats (ids : List Uuid) (service : Service) : Nat :=
  (present ids service).length - (present ids service).dedup.length

def unlistedBelow (bundleId : Uuid) (ids : List Uuid) (service : Service) :
    List BundleArtifact :=
  service.database.artifacts.rows.filter fun row =>
    Taken bundleId ids service.database.artifacts.rows row ∧ row.id ∉ ids

def removedRows (before after : Service) : List BundleArtifact :=
  before.database.artifacts.rows.filter fun row => row ∉ after.database.artifacts.rows

theorem mem_filterMap_find {entry : BundleArtifact} :
    entry ∈ ids.filterMap service.database.artifacts.find ↔
      entry ∈ service.database.artifacts.rows ∧ entry.id ∈ ids := by
  rw [List.mem_filterMap]
  constructor
  · rintro ⟨id, listed, found⟩
    obtain ⟨member, rfl⟩ := Table.find_eq_some.mp found
    exact ⟨member, listed⟩
  · rintro ⟨member, listed⟩
    exact ⟨entry.id, listed, Table.find_eq_some.mpr ⟨member, rfl⟩⟩

/-- The entries of the list take a row between them when one of them does. -/
theorem taken_iff_dropped (member : row ∈ service.database.artifacts.rows) :
    Taken bundleId ids service.database.artifacts.rows row ↔
      ∃ entry ∈ ids.filterMap service.database.artifacts.find, Dropped bundleId entry row := by
  constructor
  · rintro (listed | ⟨folder, there, listed, dir, below⟩)
    · exact ⟨row, mem_filterMap_find.mpr ⟨member, listed⟩, .inl rfl⟩
    · exact ⟨folder, mem_filterMap_find.mpr ⟨there, listed⟩, .inr ⟨dir, below⟩⟩
  · rintro ⟨entry, among, same | ⟨dir, below⟩⟩
    · exact .inl (same ▸ (mem_filterMap_find.mp among).2)
    · obtain ⟨there, listed⟩ := mem_filterMap_find.mp among
      exact .inr ⟨entry, there, listed, dir, below⟩

theorem cleared_iff {after : Service}
    (cleared : Cleared bundleId (ids.filterMap service.database.artifacts.find) service after) :
    row ∈ after.database.artifacts.rows ↔ row ∈ service.database.artifacts.rows ∧
      ¬Taken bundleId ids service.database.artifacts.rows row := by
  rw [cleared row]
  refine and_congr_right fun member => ?_
  rw [taken_iff_dropped member]
  simp only [not_exists, not_and]

theorem removedRows_eq {after : Service}
    (remaining : ∀ row, row ∈ after.database.artifacts.rows ↔
      row ∈ service.database.artifacts.rows ∧
        ¬Taken bundleId ids service.database.artifacts.rows row) :
    removedRows service after = service.database.artifacts.rows.filter
      fun row => Taken bundleId ids service.database.artifacts.rows row := by
  apply List.filter_congr
  intro row member
  simp [remaining, member]

/-- Each row is among the listings once, however often it is listed. -/
theorem listed_length (ids : List Uuid) (service : Service) :
    (service.database.artifacts.rows.filter fun row => row.id ∈ ids).length =
      (present ids service).dedup.length := by
  have once : ((service.database.artifacts.rows.filter fun row =>
      row.id ∈ ids).map BundleArtifact.id).Nodup :=
    (List.filter_sublist.map _).nodup service.database.artifacts.keysUnique
  have same : ((service.database.artifacts.rows.filter fun row =>
      row.id ∈ ids).map BundleArtifact.id).Perm (present ids service).dedup := by
    apply (List.perm_ext_iff_of_nodup once (List.nodup_dedup _)).mpr
    intro id
    simp only [List.mem_map, List.mem_filter, decide_eq_true_eq, List.mem_dedup, present,
      Option.isSome_iff_exists]
    constructor
    · rintro ⟨row, ⟨member, listed⟩, rfl⟩
      exact ⟨listed, row, Table.find_eq_some.mpr ⟨member, rfl⟩⟩
    · rintro ⟨listed, row, found⟩
      obtain ⟨member, rfl⟩ := Table.find_eq_some.mp found
      exact ⟨row, ⟨member, listed⟩, rfl⟩
  rw [← same.length_eq, List.length_map]

/-- The rows that go are those listed, once each, and those below them. -/
theorem taken_length (bundleId : Uuid) (ids : List Uuid) (service : Service) :
    (service.database.artifacts.rows.filter fun row =>
        Taken bundleId ids service.database.artifacts.rows row).length =
      (present ids service).dedup.length + (unlistedBelow bundleId ids service).length := by
  rw [← listed_length, unlistedBelow]
  generalize service.database.artifacts.rows = rows
  have split : ∀ among : List BundleArtifact,
      (among.filter fun row => Taken bundleId ids rows row).length =
        (among.filter fun row => row.id ∈ ids).length +
          (among.filter fun row => Taken bundleId ids rows row ∧ row.id ∉ ids).length := by
    intro among
    induction among with
    | nil => rfl
    | cons row rest induction =>
        by_cases listed : row.id ∈ ids
        · have taken : Taken bundleId ids rows row := .inl listed
          simp only [List.filter_cons, listed, taken, decide_true, if_true, List.length_cons,
            not_true, and_false, decide_false, Bool.false_eq_true, if_false, induction]
          omega
        · by_cases taken : Taken bundleId ids rows row
          · simp only [List.filter_cons, listed, taken, decide_true, if_true, List.length_cons,
              not_false_iff, and_self, decide_false, Bool.false_eq_true, if_false, induction]
            omega
          · simp only [List.filter_cons, listed, taken, decide_false, Bool.false_eq_true,
              if_false, false_and, induction]
  exact split rows

end Batch

/-- A batch takes the rows that it lists and those below a listed folder, and reports
their number when it comes back to a row as often as it leaves one unlisted. -/
theorem bulk_deletion_counted {state : State} {service after : Service} {slug : String}
    {bundle : Bundle} {ids : List Uuid} {result : Except AppError Nat}
    (names : Names slug bundle service) (filled : ids ≠ [])
    (own : ∀ id ∈ ids, ∀ entry, service.database.artifacts.find id = some entry →
      entry.bundleId = bundle.id)
    (ran : (bulkDelete state slug ids).run.evaluate service = (result, after)) :
    (∀ row, row ∈ after.database.artifacts.rows ↔ row ∈ service.database.artifacts.rows ∧
      ¬Taken bundle.id ids service.database.artifacts.rows row) ∧
    ∀ count, result = .ok count →
      (count = (removedRows service after).length ↔
        repeats ids service = (unlistedBelow bundle.id ids service).length) := by
  have deleted := @bulkDelete_alone state service bundle slug ids names filled own
  have remaining : ∀ row, row ∈ after.database.artifacts.rows ↔
      row ∈ service.database.artifacts.rows ∧
        ¬Taken bundle.id ids service.database.artifacts.rows row := by
    intro row
    have left := (deleted.mono (fun _ _ ended => ended.1) fun _ _ cleared => cleared).left
    rw [ran] at left
    exact cleared_iff left
  refine ⟨remaining, ?_⟩
  rintro count rfl
  have reported := (deleted.replied ran).2
  rw [List.length_filterMap_eq_countP, List.countP_eq_length_filter] at reported
  have fewer := (List.dedup_sublist (present ids service)).length_le
  rw [removedRows_eq remaining, taken_length, repeats, reported, ← present]
  omega

theorem bulk_deletion_counted_files :
    ∃ after, (bulkDelete shownState "pack" [2, 3]).run.evaluate wildFolder = (.ok 2, after) ∧
      2 = (removedRows wildFolder after).length := by
  have reported : ((bulkDelete shownState "pack" [2, 3]).run.evaluate wildFolder).1 = .ok 2 := by
    decide +kernel
  have counted := @bulk_deletion_counted shownState wildFolder _ "pack" packBundle [2, 3] _
    ⟨by decide +kernel, by decide +kernel⟩ (by decide) (by decide +kernel) rfl
  exact ⟨_, Prod.ext reported rfl, (counted.2 2 reported).mpr (by decide +kernel)⟩

/-- A folder with one file in it is reported as one row. -/
theorem bulk_deletion_miscounted :
    ¬∀ (state : State) (service after : Service) (slug : String) (bundle : Bundle)
      (ids : List Uuid) (count : Nat), Names slug bundle service → ids ≠ [] →
      (∀ id ∈ ids, ∀ entry, service.database.artifacts.find id = some entry →
        entry.bundleId = bundle.id) →
      (bulkDelete state slug ids).run.evaluate service = (.ok count, after) →
        count = (removedRows service after).length := by
  intro exact
  have reported : ((bulkDelete shownState "pack" [1]).run.evaluate wildFolder).1 = .ok 1 := by
    decide +kernel
  have counted := exact shownState wildFolder _ "pack" packBundle [1] 1
    ⟨by decide +kernel, by decide +kernel⟩ (by decide) (by decide +kernel)
    (Prod.ext reported rfl)
  revert counted
  decide +kernel

end Loontail.Bundles
