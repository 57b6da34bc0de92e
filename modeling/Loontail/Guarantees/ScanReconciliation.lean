import Loontail.Guarantees.BatchMoves
import Loontail.Bundles.Rewrites

/-! # Rows after a scan

The chunks of a scan are upserted one after another, and what the scan does not list is
deleted. While the paths of the scan are distinct no upsert comes to the row of another. -/

namespace Loontail.Bundles

open Concurrency Relational

/-! ## Chunks -/

theorem chunksFrom_flatten {Value : Type} {size : Nat} (positive : 0 < size) {fuel : Nat}
    {values : List Value} (enough : values.length ≤ fuel) :
    (chunksFrom size fuel values).flatten = values := by
  induction fuel generalizing values with
  | zero => exact (List.length_eq_zero_iff.mp (Nat.le_zero.mp enough)).symm
  | succ fuel induction =>
      cases values with
      | nil => rfl
      | cons value rest =>
          rw [chunksFrom, List.flatten_cons, induction, List.take_append_drop]
          rw [List.length_drop, List.length_cons]
          rw [List.length_cons] at enough
          omega

theorem chunks_flatten {Value : Type} {size : Nat} (positive : 0 < size) (values : List Value) :
    (chunks size values).flatten = values := chunksFrom_flatten positive le_rfl

/-! ## One upsert -/

section Upsert

variable {bundleId : Uuid} {entry : ScanEntry} {database after : Database}

theorem upsert_granted (there : (database.bundles.find bundleId).isSome) :
    ∃ after, Sql.upsert bundleId entry database = .ok ((), after) := by
  unfold Sql.upsert
  split
  · rename_i missing
    obtain ⟨artifacts, inserted⟩ : ∃ artifacts, database.artifacts.insert
        (entry.artifact (database.ids.next database.artifacts.issued) bundleId) =
          some artifacts := by
      refine Table.exists_insert.mpr ⟨database.ids.fresh _, fun slot claimed other member same => ?_⟩
      cases claimed
      obtain ⟨build, path⟩ := Prod.mk.inj (Option.some.inj same)
      have selected : Sql.at_ bundleId entry.relativePath other = true :=
        Sql.at_iff.mpr ⟨build, path⟩
      rw [Table.affected_eq_zero.mp missing other member] at selected
      cases selected
    simp only [inserted]
    exact ⟨_, rfl⟩
  · exact ⟨_, rfl⟩

theorem upsert_other {reply : Unit} {row : BundleArtifact}
    (upserted : Sql.upsert bundleId entry database = .ok (reply, after))
    (elsewhere : Sql.at_ bundleId entry.relativePath row = false) :
    row ∈ after.artifacts.rows ↔ row ∈ database.artifacts.rows := by
  constructor
  · intro member
    rcases Sql.mem_upsert upserted member with ⟨here, -⟩ | ⟨-, there⟩
    · rw [elsewhere] at here
      cases here
    · exact there
  · intro member
    obtain ⟨-, ⟨id, rows, -⟩ | rows⟩ := Sql.upsert_rows upserted
    · rw [rows]
      exact List.mem_cons_of_mem _ member
    · rw [rows]
      exact List.mem_map.mpr ⟨row, member, by rw [Table.revise, if_neg (by simp [elsewhere])]⟩

theorem upsert_here {reply : Unit}
    (upserted : Sql.upsert bundleId entry database = .ok (reply, after)) :
    ∃ row ∈ after.artifacts.rows,
      (row = entry.artifact row.id bundleId ∧
        ∀ old ∈ database.artifacts.rows, Sql.at_ bundleId entry.relativePath old = false) ∨
      ∃ old ∈ database.artifacts.rows, Sql.at_ bundleId entry.relativePath old = true ∧
        row = entry.overwrite old := by
  by_cases missing : database.artifacts.affected (Sql.at_ bundleId entry.relativePath) = 0
  · have absent := Table.affected_eq_zero.mp missing
    obtain ⟨-, ⟨id, rows, -⟩ | rows⟩ := Sql.upsert_rows upserted
    · exact ⟨entry.artifact id bundleId, by simp [rows], .inl ⟨rfl, absent⟩⟩
    · unfold Sql.upsert at upserted
      rw [if_pos missing] at upserted
      split at upserted
      · simp only at upserted
        split at upserted
        · rename_i inserted
          cases upserted
          exact ⟨_, (Table.mem_insert inserted).mpr (.inl rfl), .inl ⟨rfl, absent⟩⟩
        · cases upserted
      · cases upserted
  · obtain ⟨old, member, here⟩ := Table.affected_pos.mp (Nat.pos_of_ne_zero missing)
    obtain ⟨-, ⟨id, -, absent⟩ | rows⟩ := Sql.upsert_rows upserted
    · rw [absent old member] at here
      cases here
    · refine ⟨entry.overwrite old, ?_, .inr ⟨old, member, here, rfl⟩⟩
      rw [rows]
      exact List.mem_map.mpr ⟨old, member, by rw [Table.revise, if_pos here]⟩

end Upsert

/-! ## Many upserts -/

def onceAt (bundleId : Uuid) (relativePath : String) (before : List BundleArtifact) : Bool :=
  before.any fun row => Sql.at_ bundleId relativePath row && row.downloadOnce

/-- The row has what its entry says, and the flag and the identifier that its path had. -/
structure Recorded (bundleId : Uuid) (before : List BundleArtifact) (entry : ScanEntry)
    (row : BundleArtifact) : Prop where
  fields : row =
    { entry.artifact row.id bundleId with
      downloadOnce := onceAt bundleId entry.relativePath before }
  id : ∀ old ∈ before, Sql.at_ bundleId entry.relativePath old = true → row.id = old.id

/-- The entries are recorded, and the rows at other paths are as they were. -/
structure Upserted (bundleId : Uuid) (entries : List ScanEntry) (before after : Database) :
    Prop where
  bundles : after.bundles = before.bundles
  recorded : ∀ entry ∈ entries, ∃ row ∈ after.artifacts.rows,
    Recorded bundleId before.artifacts.rows entry row
  others : ∀ row, (∀ entry ∈ entries, Sql.at_ bundleId entry.relativePath row = false) →
    (row ∈ after.artifacts.rows ↔ row ∈ before.artifacts.rows)

section Many

variable {bundleId : Uuid} {before middle after : Database} {entry : ScanEntry}
  {entries : List ScanEntry}

theorem at_other {path other : String} {row : BundleArtifact} (different : path ≠ other)
    (here : Sql.at_ bundleId path row = true) : Sql.at_ bundleId other row = false := by
  rw [Bool.eq_false_iff]
  intro there
  exact different ((Sql.at_iff.mp here).2.symm.trans (Sql.at_iff.mp there).2)

theorem at_unique {database : Database} {path : String} {left right : BundleArtifact}
    (leftMem : left ∈ database.artifacts.rows) (rightMem : right ∈ database.artifacts.rows)
    (leftHere : Sql.at_ bundleId path left = true)
    (rightHere : Sql.at_ bundleId path right = true) : left = right := by
  obtain ⟨leftBuild, leftPath⟩ := Sql.at_iff.mp leftHere
  obtain ⟨rightBuild, rightPath⟩ := Sql.at_iff.mp rightHere
  have slot : artifactLayout.slot left = artifactLayout.slot right := by
    simp only [leftBuild, rightBuild, leftPath, rightPath]
  exact Table.eq_of_slot_eq leftMem rightMem rfl slot.symm

theorem Recorded.at_ {rows : List BundleArtifact} {row : BundleArtifact}
    (recorded : Recorded bundleId rows entry row) :
    Sql.at_ bundleId entry.relativePath row = true := by
  rw [recorded.fields]
  exact Sql.at_iff.mpr ⟨rfl, rfl⟩

theorem recorded_overwrite {old : BundleArtifact} (member : old ∈ before.artifacts.rows)
    (here : Sql.at_ bundleId entry.relativePath old = true) :
    Recorded bundleId before.artifacts.rows entry (entry.overwrite old) := by
  have only : ∀ other ∈ before.artifacts.rows,
      Sql.at_ bundleId entry.relativePath other = true → other = old :=
    fun other among there => at_unique among member there here
  have once : onceAt bundleId entry.relativePath before.artifacts.rows = old.downloadOnce := by
    rw [onceAt, Bool.eq_iff_iff, List.any_eq_true]
    constructor
    · rintro ⟨other, among, both⟩
      obtain ⟨there, set⟩ := Bool.and_eq_true_iff.mp both
      exact only other among there ▸ set
    · exact fun set => ⟨old, member, by rw [here, set]; rfl⟩
  obtain ⟨build, path⟩ := Sql.at_iff.mp here
  refine ⟨?_, fun other among there => by rw [only other among there]; rfl⟩
  rw [once, ← build, ScanEntry.artifact, ← path]
  rfl

theorem Upserted.step {reply : Unit} (upserted : Upserted bundleId entries before middle)
    (fresh : entry.relativePath ∉ entries.map (·.relativePath))
    (stepped : Sql.upsert bundleId entry middle = .ok (reply, after)) :
    Upserted bundleId (entries ++ [entry]) before after := by
  have apart : ∀ other ∈ entries, other.relativePath ≠ entry.relativePath := fun other member same =>
    fresh (List.mem_map.mpr ⟨other, member, same⟩)
  have untouched : ∀ row : BundleArtifact, Sql.at_ bundleId entry.relativePath row = true →
      (row ∈ middle.artifacts.rows ↔ row ∈ before.artifacts.rows) := fun row here =>
    upserted.others row fun other member => at_other (apart other member).symm here
  refine ⟨(Sql.upsert_rows stepped).1.trans upserted.bundles, fun other member => ?_,
    fun row elsewhere => ?_⟩
  · rcases List.mem_append.mp member with earlier | last
    · obtain ⟨row, there, recorded⟩ := upserted.recorded other earlier
      exact ⟨row, (upsert_other stepped (at_other (apart other earlier) recorded.at_)).mpr there,
        recorded⟩
    · rw [List.mem_singleton.mp last]
      obtain ⟨row, there, ⟨new, absent⟩ | ⟨old, present, here, rfl⟩⟩ := upsert_here stepped
      · have none : ∀ old ∈ before.artifacts.rows,
            Sql.at_ bundleId entry.relativePath old = false := by
          intro old present
          rw [Bool.eq_false_iff]
          intro here
          have seen := absent old ((untouched old here).mpr present)
          rw [here] at seen
          cases seen
        have off : onceAt bundleId entry.relativePath before.artifacts.rows = false := by
          rw [onceAt, List.any_eq_false]
          intro old present
          simp [none old present]
        refine ⟨row, there, ⟨by rw [off]; exact new, fun old present here => ?_⟩⟩
        rw [none old present] at here
        cases here
      · exact ⟨_, there, recorded_overwrite ((untouched old here).mp present) here⟩
  · have here := elsewhere entry (by simp)
    rw [upsert_other stepped here]
    exact upserted.others row fun other member => elsewhere other (by simp [member])

theorem Upserted.bundle (upserted : Upserted bundleId entries before middle)
    (there : (before.bundles.find bundleId).isSome) : (middle.bundles.find bundleId).isSome := by
  rw [upserted.bundles]
  exact there

theorem upsertChunk_upserted (there : (before.bundles.find bundleId).isSome)
    {chunk : List ScanEntry} (upserted : Upserted bundleId entries before middle)
    (distinct : ((entries ++ chunk).map (·.relativePath)).Nodup) :
    ∃ after, Sql.upsertChunk bundleId chunk middle = .ok ((), after) ∧
      Upserted bundleId (entries ++ chunk) before after := by
  induction chunk generalizing entries middle with
  | nil => exact ⟨middle, rfl, by rwa [List.append_nil]⟩
  | cons entry rest induction =>
      have parts := distinct
      rw [List.map_append, List.map_cons, List.nodup_append] at parts
      obtain ⟨-, later, apart⟩ := parts
      have fresh : entry.relativePath ∉ entries.map (·.relativePath) := fun member =>
        apart _ member _ List.mem_cons_self rfl
      have once : rest.any (fun other => other.relativePath = entry.relativePath) = false := by
        rw [List.any_eq_false]
        intro other member same
        exact (List.nodup_cons.mp later).1
          (List.mem_map.mpr ⟨other, member, of_decide_eq_true same⟩)
      obtain ⟨next, stepped⟩ := @upsert_granted bundleId entry middle (upserted.bundle there)
      have moved : entries ++ entry :: rest = (entries ++ [entry]) ++ rest := by simp
      obtain ⟨after, continued, done⟩ := induction (upserted.step fresh stepped) (moved ▸ distinct)
      refine ⟨after, ?_, moved ▸ done⟩
      simp only [Sql.upsertChunk, once, stepped, continued, Bool.false_eq_true, if_false]

theorem replay_chunks (there : (before.bundles.find bundleId).isSome)
    {chunks : List (List ScanEntry)} (upserted : Upserted bundleId entries before middle)
    (distinct : ((entries ++ chunks.flatten).map (·.relativePath)).Nodup) :
    ∃ after, replay middle (chunks.flatMap (upsertArtifactChunk bundleId)) = .ok after ∧
      Upserted bundleId (entries ++ chunks.flatten) before after := by
  induction chunks generalizing entries middle with
  | nil => exact ⟨middle, rfl, by simpa using upserted⟩
  | cons chunk rest induction =>
      rw [List.flatten_cons, ← List.append_assoc] at distinct ⊢
      have first : ((entries ++ chunk).map (·.relativePath)).Nodup := by
        rw [List.map_append] at distinct
        exact (List.nodup_append.mp distinct).1
      obtain ⟨next, executed, taken⟩ := upsertChunk_upserted there upserted first
      have run : replay middle (upsertArtifactChunk bundleId chunk) = .ok next := by
        unfold upsertArtifactChunk
        split
        · rename_i none
          rw [List.isEmpty_iff.mp none] at executed
          cases executed
          rfl
        · simp [replay, Statement.execute, unnest_columnsOf, executed]
      obtain ⟨after, continued, done⟩ := induction taken distinct
      refine ⟨after, ?_, done⟩
      rw [List.flatMap_cons, replay_append, run]
      exact continued

end Many

/-! ## The reconciliation -/

/-- The build has the rows of the scan and no others, and the other builds have theirs. -/
structure Reconciled (bundleId : Uuid) (scan : List ScanEntry) (before after : Database) :
    Prop where
  bundles : after.bundles = before.bundles
  others : ∀ row : BundleArtifact, row.bundleId ≠ bundleId →
    (row ∈ after.artifacts.rows ↔ row ∈ before.artifacts.rows)
  paths : ((Sql.ofBundle bundleId after).map (·.relativePath)).Perm (scan.map (·.relativePath))
  recorded : ∀ entry ∈ scan, ∃ row ∈ Sql.ofBundle bundleId after,
    Recorded bundleId before.artifacts.rows entry row

theorem nodup_paths (bundleId : Uuid) (database : Database) :
    ((Sql.ofBundle bundleId database).map (·.relativePath)).Nodup := by
  refine List.Nodup.map_on ?_ (List.Nodup.of_map _ database.artifacts.keysUnique |>.filter _)
  intro left leftMem right rightMem same
  obtain ⟨leftThere, leftBuild⟩ := List.mem_filter.mp leftMem
  obtain ⟨rightThere, rightBuild⟩ := List.mem_filter.mp rightMem
  exact at_unique leftThere rightThere (Sql.at_iff.mpr ⟨of_decide_eq_true leftBuild, rfl⟩)
    (Sql.at_iff.mpr ⟨of_decide_eq_true rightBuild, same.symm⟩)

theorem Upserted.reconciled {bundleId : Uuid} {scan : List ScanEntry} {before middle : Database}
    (upserted : Upserted bundleId scan before middle)
    (distinct : (scan.map (·.relativePath)).Nodup) :
    Reconciled bundleId scan before (Sql.deleteArtifacts (fun artifact =>
      artifact.bundleId = bundleId &&
        !(scan.map (·.relativePath)).contains artifact.relativePath) middle) := by
  have remaining : ∀ row : BundleArtifact, row ∈ (middle.artifacts.delete fun artifact =>
      artifact.bundleId = bundleId &&
        !(scan.map (·.relativePath)).contains artifact.relativePath).rows ↔
      row ∈ middle.artifacts.rows ∧
        (row.bundleId = bundleId → row.relativePath ∈ scan.map (·.relativePath)) := by
    intro row
    rw [Table.mem_delete]
    simp only [Bool.and_eq_false_iff, decide_eq_false_iff_not, Bool.not_eq_false',
      List.contains_iff_mem, imp_iff_not_or]
  have kept : ∀ entry ∈ scan, ∃ row ∈ Sql.ofBundle bundleId (Sql.deleteArtifacts (fun artifact =>
      artifact.bundleId = bundleId &&
        !(scan.map (·.relativePath)).contains artifact.relativePath) middle),
      Recorded bundleId before.artifacts.rows entry row := by
    intro entry listed
    obtain ⟨row, there, recorded⟩ := upserted.recorded entry listed
    obtain ⟨build, path⟩ := Sql.at_iff.mp recorded.at_
    refine ⟨row, List.mem_filter.mpr ⟨(remaining row).mpr ⟨there, fun _ => ?_⟩,
      decide_eq_true build⟩, recorded⟩
    rw [path]
    exact List.mem_map_of_mem listed
  refine ⟨upserted.bundles, fun row elsewhere => ?_, ?_, kept⟩
  · refine ((remaining row).trans (and_iff_left fun build => (elsewhere build).elim)).trans ?_
    refine upserted.others row fun entry _ => ?_
    rw [Bool.eq_false_iff]
    exact fun here => elsewhere (Sql.at_iff.mp here).1
  · refine (List.perm_ext_iff_of_nodup (nodup_paths bundleId _) distinct).mpr fun path => ?_
    constructor
    · intro member
      obtain ⟨row, owned, rfl⟩ := List.mem_map.mp member
      obtain ⟨there, build⟩ := List.mem_filter.mp owned
      exact ((remaining row).mp there).2 (of_decide_eq_true build)
    · intro member
      obtain ⟨entry, listed, rfl⟩ := List.mem_map.mp member
      obtain ⟨row, owned, recorded⟩ := kept entry listed
      exact List.mem_map.mpr ⟨row, owned, (Sql.at_iff.mp recorded.at_).2⟩

/-- After a scan of distinct paths the build has exactly the rows of the scan: what is new
has its flag off, what was there keeps it. -/
theorem scan_reconciled {service : Service} {bundleId : Uuid} {scan : List ScanEntry}
    (there : (service.database.bundles.find bundleId).isSome)
    (distinct : (scan.map (·.relativePath)).Nodup) :
    ∃ database, (upsertScan bundleId scan).run.evaluate service =
        (.ok (), { service with database }) ∧
      Reconciled bundleId scan service.database database := by
  have start : Upserted bundleId [] service.database service.database :=
    ⟨rfl, by simp, fun _ _ => Iff.rfl⟩
  have whole : (chunks upsertChunkSize scan).flatten = scan := chunks_flatten (by decide) scan
  obtain ⟨middle, upserts, upserted⟩ := @replay_chunks bundleId _ _ _ there
    (chunks upsertChunkSize scan) start (by simpa [whole] using distinct)
  rw [List.nil_append, whole] at upserted
  have deleted : replay middle [.deleteUnlisted bundleId (scan.map (·.relativePath))] =
      .ok (Sql.deleteArtifacts (fun artifact => artifact.bundleId = bundleId &&
        !(scan.map (·.relativePath)).contains artifact.relativePath) middle) := rfl
  have committed := replay_append service.database
    ((chunks upsertChunkSize scan).flatMap (upsertArtifactChunk bundleId))
    [.deleteUnlisted bundleId (scan.map (·.relativePath))]
  rw [upserts] at committed
  have meets : (upsertScan bundleId scan).Meets (.alone registry)
      (fun _ following => ∃ database, following = { service with database } ∧
        Reconciled bundleId scan service.database database) (fun _ _ => False) service := by
    unfold upsertScan
    rw [Fallible.meets_bind, alone_begin, Fallible.meets_bind]
    refine (@insideAll_granted service [] _ _ _ rfl upserts).mono ?_ fun _ _ impossible => impossible
    rintro log following ⟨rfl, rfl⟩
    rw [Fallible.meets_bind]
    refine (insideAll_granted upserts deleted).mono ?_ fun _ _ impossible => impossible
    rintro log last ⟨rfl, rfl⟩
    rw [alone_commit, show replay _ _ = _ from committed]
    exact ⟨_, rfl, upserted.reconciled distinct⟩
  have ended := Process.meets_alone.mp meets
  cases ran : (upsertScan bundleId scan).run.evaluate service with
  | mk outcome following =>
      rw [ran] at ended
      cases outcome with
      | error error => exact ended.elim
      | ok reply =>
          obtain ⟨database, rfl, reconciled⟩ := ended
          exact ⟨database, rfl, reconciled⟩

def flagged : Service :=
  served shownState onePack
    [.uploadFile "pack" (oneFile "a.jar" [65]), .toggleDownloadOnce "pack" (some 1) true]

def rescan : List ScanEntry :=
  [⟨"a.jar", "a.jar", "root", 2, none, false, none⟩, ⟨"mods", "mods", "root", 0, none, true, none⟩]

theorem scan_reconciled_flagged :
    ∃ database, (upsertScan 1 rescan).run.evaluate flagged = (.ok (), { flagged with database }) ∧
      Reconciled 1 rescan flagged.database database ∧
      onceAt 1 "a.jar" flagged.database.artifacts.rows = true := by
  have there : (flagged.database.bundles.find 1).isSome = true := by decide +kernel
  obtain ⟨database, evaluated, reconciled⟩ := scan_reconciled there
    (show (rescan.map (·.relativePath)).Nodup by decide)
  exact ⟨database, evaluated, reconciled, by decide +kernel⟩

end Loontail.Bundles
