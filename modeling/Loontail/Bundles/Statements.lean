import Loontail.Bundles.Schema
import Loontail.Bundles.Storage
import Loontail.Core.Text
import Mathlib.Data.List.Sort

/-! # Statements of the bundle registry

A statement runs by itself, or inside a transaction after the statements that the
transaction has run before it. -/

namespace Loontail.Bundles

open Relational Text

abbrev Executed (Reply : Type) := Except DatabaseError (Reply × Database)

/-- A file or folder as `scan_directory` finds it. -/
structure ScanEntry where
  relativePath : String
  name : String
  category : String
  size : Int
  sha256 : Option String
  isDir : Bool
  fileModifiedAt : Option Timestamp
  deriving DecidableEq, Repr

/-- What an upsert writes; `download_once` is not among it. -/
def ScanEntry.overwrite (entry : ScanEntry) (artifact : BundleArtifact) : BundleArtifact :=
  { artifact with
    name := entry.name
    category := entry.category
    size := entry.size
    sha256 := entry.sha256
    isDir := entry.isDir
    fileModifiedAt := entry.fileModifiedAt }

def ScanEntry.artifact (entry : ScanEntry) (id bundleId : Uuid) : BundleArtifact where
  id := id
  bundleId := bundleId
  relativePath := entry.relativePath
  name := entry.name
  category := entry.category
  size := entry.size
  sha256 := entry.sha256
  isDir := entry.isDir
  downloadOnce := false
  fileModifiedAt := entry.fileModifiedAt

/-! ## Chunks as columns -/

/-- The arrays that a chunk is bound as, one for each column. -/
structure ScanColumns where
  relativePaths : List String
  names : List String
  categories : List String
  sizes : List Int
  hashes : List (Option String)
  dirs : List Bool
  modified : List (Option Timestamp)
  deriving DecidableEq, Repr

def ScanColumns.push (columns : ScanColumns) (entry : ScanEntry) : ScanColumns where
  relativePaths := columns.relativePaths ++ [entry.relativePath]
  names := columns.names ++ [entry.name]
  categories := columns.categories ++ [entry.category]
  sizes := columns.sizes ++ [entry.size]
  hashes := columns.hashes ++ [entry.sha256]
  dirs := columns.dirs ++ [entry.isDir]
  modified := columns.modified ++ [entry.fileModifiedAt]

def columnsOf (chunk : List ScanEntry) : ScanColumns :=
  chunk.foldl ScanColumns.push ⟨[], [], [], [], [], [], []⟩

/-- `UNNEST` of arrays that have one length. -/
def ScanColumns.unnest (columns : ScanColumns) : List ScanEntry :=
  (columns.relativePaths.zip (columns.names.zip (columns.categories.zip (columns.sizes.zip
    (columns.hashes.zip (columns.dirs.zip columns.modified)))))).map
      fun (relativePath, name, category, size, sha256, isDir, fileModifiedAt) =>
        ⟨relativePath, name, category, size, sha256, isDir, fileModifiedAt⟩

theorem columnsOf_concat (chunk : List ScanEntry) (entry : ScanEntry) :
    columnsOf (chunk ++ [entry]) = (columnsOf chunk).push entry := by
  rw [columnsOf, List.foldl_append]
  rfl

theorem columnsOf_eq (chunk : List ScanEntry) :
    columnsOf chunk =
      ⟨chunk.map (·.relativePath), chunk.map (·.name), chunk.map (·.category),
        chunk.map (·.size), chunk.map (·.sha256), chunk.map (·.isDir),
        chunk.map (·.fileModifiedAt)⟩ := by
  induction chunk using List.reverseRecOn with
  | nil => rfl
  | append_singleton rest entry induction =>
      rw [columnsOf_concat, induction]
      simp [ScanColumns.push]

theorem unnest_columnsOf (chunk : List ScanEntry) : (columnsOf chunk).unnest = chunk := by
  simp only [columnsOf_eq, ScanColumns.unnest, List.zip_map', List.map_map]
  exact List.map_id _

namespace Sql

/-! ## Bundles -/

def findBySlug (slug : String) (database : Database) : Option Bundle :=
  database.bundles.rows.find? fun bundle => bundle.slug = slug

def insertBundle (name slug : String) (database : Database) : Executed Uuid :=
  let id := database.ids.next database.bundles.issued
  match database.bundles.insert ⟨id, slug, name, none, none, .draft, 0, 0, none⟩ with
  | some bundles => .ok (id, { database with bundles })
  | none => .error .uniqueViolation

/-- `UPDATE bundles SET … WHERE id = $1 RETURNING …`, read with `fetch_one`. -/
def reviseBundle (id : Uuid) (set : Bundle → Bundle)
    (keeps : ∀ bundle, (set bundle).id = bundle.id ∧ (set bundle).slug = bundle.slug)
    (database : Database) : Executed Bundle :=
  match database.bundles.find id with
  | none => .error .rowNotFound
  | some bundle =>
      .ok (set bundle,
        { database with
          bundles := database.bundles.update (fun row => row.id = id) set
            (fun row _ => (keeps row).1) (fun row _ => .inl (congrArg some (keeps row).2)) })

/-- The name is kept when it is not given, the others are set as they are given. -/
def updateBundleMeta (id : Uuid) (name description version : Option String)
    (database : Database) : Executed Bundle :=
  reviseBundle id
    (fun bundle => { bundle with name := name.getD bundle.name, description, version })
    (fun _ => ⟨rfl, rfl⟩) database

def setStatus (id : Uuid) (status : BundleStatus) (processingError : Option String)
    (database : Database) : Database :=
  { database with
    bundles := database.bundles.update (fun bundle => bundle.id = id)
      (fun bundle => { bundle with status, processingError }) }

def finishRegeneration (id : Uuid) (filesCount totalSize : Int) (database : Database) :
    Executed Bundle :=
  reviseBundle id
    (fun bundle =>
      { bundle with status := .ready, filesCount, totalSize, processingError := none })
    (fun _ => ⟨rfl, rfl⟩) database

def deleteBundle (id : Uuid) (database : Database) : Database :=
  { database with
    bundles := database.bundles.delete fun bundle => bundle.id = id
    artifacts := database.artifacts.delete fun artifact => artifact.bundleId = id }

/-! ## Artifacts -/

def ofBundle (bundleId : Uuid) (database : Database) : List BundleArtifact :=
  database.artifacts.rows.filter fun artifact => artifact.bundleId = bundleId

/-- `ORDER BY relative_path ASC`. -/
def listArtifacts (bundleId : Uuid) (database : Database) : List BundleArtifact :=
  (ofBundle bundleId database).insertionSort fun left right =>
    database.collation left.relativePath right.relativePath

/-- `relative_path LIKE pattern ESCAPE '\'`. -/
def matching (bundleId : Uuid) (pattern : String) (artifact : BundleArtifact) : Bool :=
  artifact.bundleId = bundleId && like pattern.toList artifact.relativePath.toList

def at_ (bundleId : Uuid) (relativePath : String) (artifact : BundleArtifact) : Bool :=
  artifact.bundleId = bundleId && artifact.relativePath = relativePath

/-- `INSERT … ON CONFLICT (bundle_id, relative_path) DO UPDATE`. -/
def upsert (bundleId : Uuid) (entry : ScanEntry) (database : Database) : Executed Unit :=
  if database.artifacts.affected (at_ bundleId entry.relativePath) = 0 then
    if (database.bundles.find bundleId).isSome then
      let id := database.ids.next database.artifacts.issued
      match database.artifacts.insert (entry.artifact id bundleId) with
      | some artifacts => .ok ((), { database with artifacts })
      | none => .error .uniqueViolation
    else .error .foreignKeyViolation
  else
    .ok ((),
      { database with
        artifacts := database.artifacts.update (at_ bundleId entry.relativePath)
          entry.overwrite })

/-- One statement for a whole chunk; it cannot touch a row twice. -/
def upsertChunk (bundleId : Uuid) : List ScanEntry → Database → Executed Unit
  | [], database => .ok ((), database)
  | entry :: rest, database =>
      if rest.any fun other => other.relativePath = entry.relativePath then
        .error .cardinalityViolation
      else
        match upsert bundleId entry database with
        | .ok (_, after) => upsertChunk bundleId rest after
        | .error error => .error error

def deleteArtifacts (selected : BundleArtifact → Bool) (database : Database) : Database :=
  { database with artifacts := database.artifacts.delete selected }

def setArtifact (id : Uuid) (set : BundleArtifact → BundleArtifact)
    (keeps : ∀ artifact, artifactLayout.key (set artifact) = artifactLayout.key artifact ∧
      artifactLayout.slot (set artifact) = artifactLayout.slot artifact)
    (database : Database) : Database :=
  { database with
    artifacts := database.artifacts.update (fun artifact => artifact.id = id) set
      (fun artifact _ => (keeps artifact).1) (fun artifact _ => .inl (keeps artifact).2) }

def updatePath (id : Uuid) (relativePath name category : String) (database : Database) :
    Executed Unit :=
  match database.artifacts.claim (fun artifact => artifact.id = id)
      (fun artifact => { artifact with relativePath, name, category }) with
  | some artifacts => .ok ((), { database with artifacts })
  | none => .error .uniqueViolation

/-! ## What the statements on artifacts leave -/

section Facts

variable {bundleId : Uuid} {entry : ScanEntry} {database after : Database}

theorem at_iff {bundleId : Uuid} {relativePath : String} {artifact : BundleArtifact} :
    at_ bundleId relativePath artifact = true ↔
      artifact.bundleId = bundleId ∧ artifact.relativePath = relativePath := by
  simp [at_]

/-- An upsert adds a row when there is none of its path, and revises that one otherwise. -/
theorem upsert_rows {reply : Unit} (upserted : upsert bundleId entry database = .ok (reply, after)) :
    after.bundles = database.bundles ∧
      ((∃ id, after.artifacts.rows = entry.artifact id bundleId :: database.artifacts.rows ∧
          ∀ row ∈ database.artifacts.rows, at_ bundleId entry.relativePath row = false) ∨
        after.artifacts.rows = database.artifacts.rows.map
          (Table.revise (at_ bundleId entry.relativePath) entry.overwrite)) := by
  unfold upsert at upserted
  split at upserted
  · rename_i missing
    split at upserted
    · simp only at upserted
      split at upserted
      · rename_i inserted
        cases upserted
        exact ⟨rfl, .inl ⟨_, (Table.insert_rows inserted).1, Table.affected_eq_zero.mp missing⟩⟩
      · cases upserted
    · cases upserted
  · cases upserted
    exact ⟨rfl, .inr rfl⟩

theorem mem_upsert {reply : Unit} (upserted : upsert bundleId entry database = .ok (reply, after))
    {row : BundleArtifact} (member : row ∈ after.artifacts.rows) :
    (at_ bundleId entry.relativePath row = true ∧ entry.overwrite row = row) ∨
      (at_ bundleId entry.relativePath row = false ∧ row ∈ database.artifacts.rows) := by
  obtain ⟨-, ⟨id, rows, missing⟩ | rows⟩ := upsert_rows upserted
  · rw [rows] at member
    rcases List.mem_cons.mp member with rfl | old
    · exact .inl ⟨at_iff.mpr ⟨rfl, rfl⟩, rfl⟩
    · exact .inr ⟨missing row old, old⟩
  · rw [rows] at member
    obtain ⟨old, there, rfl⟩ := List.mem_map.mp member
    unfold Table.revise
    split
    · rename_i chosen
      exact .inl ⟨chosen, rfl⟩
    · rename_i other
      exact .inr ⟨Bool.eq_false_iff.mpr other, there⟩

theorem upsert_persists {reply : Unit}
    (upserted : upsert bundleId entry database = .ok (reply, after)) {row : BundleArtifact}
    (member : row ∈ database.artifacts.rows) : ∃ kept ∈ after.artifacts.rows,
      kept.id = row.id ∧ kept.bundleId = row.bundleId ∧ kept.relativePath = row.relativePath := by
  obtain ⟨-, ⟨id, rows, -⟩ | rows⟩ := upsert_rows upserted
  · exact ⟨row, by rw [rows]; exact List.mem_cons_of_mem _ member, rfl, rfl, rfl⟩
  · refine ⟨_, by rw [rows]; exact List.mem_map_of_mem member, ?_⟩
    unfold Table.revise
    split <;> exact ⟨rfl, rfl, rfl⟩

end Facts

end Sql

inductive Statement where
  | findBySlug (slug : String)
  | insertBundle (name slug : String)
  | updateBundleMeta (id : Uuid) (name description version : Option String)
  | bundleSlugById (id : Uuid)
  | setStatus (id : Uuid) (status : BundleStatus) (processingError : Option String)
  | finishRegeneration (id : Uuid) (filesCount totalSize : Int)
  | deleteBundle (id : Uuid)
  | countArtifacts (bundleId : Uuid)
  | listArtifacts (bundleId : Uuid)
  | findArtifact (id : Uuid)
  | upsertArtifact (bundleId : Uuid) (entry : ScanEntry)
  | upsertChunk (bundleId : Uuid) (columns : ScanColumns)
  | deleteUnlisted (bundleId : Uuid) (paths : List String)
  | updateSha (id : Uuid) (sha256 : String)
  | setDownloadOnce (id : Uuid) (value : Bool)
  | deleteArtifact (id : Uuid)
  | deleteLike (bundleId : Uuid) (pattern : String)
  | countAt (bundleId : Uuid) (relativePath : String)
  | countLike (bundleId : Uuid) (pattern : String)
  | selectIdAt (bundleId : Uuid) (relativePath : String)
  | selectLike (bundleId : Uuid) (pattern : String)
  | updatePath (id : Uuid) (relativePath name category : String)
  deriving DecidableEq, Repr

namespace Statement

@[reducible] def Reply : Statement → Type
  | findBySlug _ => Option Bundle
  | insertBundle .. => Uuid
  | updateBundleMeta .. => Bundle
  | bundleSlugById _ => Option String
  | finishRegeneration .. => Bundle
  | countArtifacts _ => Nat
  | listArtifacts _ => List BundleArtifact
  | findArtifact _ => Option BundleArtifact
  | countAt .. => Nat
  | countLike .. => Nat
  | selectIdAt .. => Option Uuid
  | selectLike .. => List BundleArtifact
  | _ => Unit

def execute (database : Database) : (statement : Statement) → Executed statement.Reply
  | findBySlug slug => .ok (Sql.findBySlug slug database, database)
  | insertBundle name slug => Sql.insertBundle name slug database
  | updateBundleMeta id name description version =>
      Sql.updateBundleMeta id name description version database
  | bundleSlugById id => .ok ((database.bundles.find id).map (·.slug), database)
  | setStatus id status processingError =>
      .ok ((), Sql.setStatus id status processingError database)
  | finishRegeneration id filesCount totalSize =>
      Sql.finishRegeneration id filesCount totalSize database
  | deleteBundle id => .ok ((), Sql.deleteBundle id database)
  | countArtifacts bundleId => .ok ((Sql.ofBundle bundleId database).length, database)
  | listArtifacts bundleId => .ok (Sql.listArtifacts bundleId database, database)
  | findArtifact id => .ok (database.artifacts.find id, database)
  | upsertArtifact bundleId entry => Sql.upsert bundleId entry database
  | upsertChunk bundleId columns => Sql.upsertChunk bundleId columns.unnest database
  | deleteUnlisted bundleId paths =>
      .ok ((), Sql.deleteArtifacts
        (fun artifact => artifact.bundleId = bundleId && !paths.contains artifact.relativePath)
        database)
  | updateSha id sha256 =>
      .ok ((), Sql.setArtifact id (fun artifact => { artifact with sha256 := some sha256 })
        (fun _ => ⟨rfl, rfl⟩) database)
  | setDownloadOnce id value =>
      .ok ((), Sql.setArtifact id (fun artifact => { artifact with downloadOnce := value })
        (fun _ => ⟨rfl, rfl⟩) database)
  | deleteArtifact id =>
      .ok ((), Sql.deleteArtifacts (fun artifact => artifact.id = id) database)
  | deleteLike bundleId pattern =>
      .ok ((), Sql.deleteArtifacts (Sql.matching bundleId pattern) database)
  | countAt bundleId relativePath =>
      .ok (database.artifacts.affected (Sql.at_ bundleId relativePath), database)
  | countLike bundleId pattern =>
      .ok (database.artifacts.affected (Sql.matching bundleId pattern), database)
  | selectIdAt bundleId relativePath =>
      .ok ((database.artifacts.rows.find? (Sql.at_ bundleId relativePath)).map (·.id), database)
  | selectLike bundleId pattern =>
      .ok (database.artifacts.rows.filter (Sql.matching bundleId pattern), database)
  | updatePath id relativePath name category =>
      Sql.updatePath id relativePath name category database

end Statement

/-- The database as the statements of a transaction have made it. -/
def replay (database : Database) : List Statement → Except DatabaseError Database
  | [] => .ok database
  | statement :: rest =>
      match statement.execute database with
      | .ok (_, after) => replay after rest
      | .error error => .error error

/-! ## Rows that stay

Most statements leave every build and every artifact with its identifier, and with what
else it is found by. -/

structure Persists (before after : Database) : Prop where
  bundles : ∀ row ∈ before.bundles.rows, ∃ kept ∈ after.bundles.rows,
    kept.id = row.id ∧ kept.slug = row.slug
  artifacts : ∀ row ∈ before.artifacts.rows, ∃ kept ∈ after.artifacts.rows,
    kept.id = row.id ∧ kept.bundleId = row.bundleId ∧ kept.relativePath = row.relativePath

theorem Persists.refl (database : Database) : Persists database database :=
  ⟨fun row member => ⟨row, member, rfl, rfl⟩, fun row member => ⟨row, member, rfl, rfl, rfl⟩⟩

theorem reviseBundle_persists {id : Uuid} {set : Bundle → Bundle}
    {keeps : ∀ bundle, (set bundle).id = bundle.id ∧ (set bundle).slug = bundle.slug}
    {database revised : Database} {bundle : Bundle}
    (made : Sql.reviseBundle id set keeps database = .ok (bundle, revised)) :
    Persists database revised ∧ revised.artifacts = database.artifacts := by
  unfold Sql.reviseBundle at made
  split at made
  · cases made
  · cases made
    refine ⟨⟨fun row member => ⟨_, List.mem_map_of_mem member, ?_⟩,
      fun row member => ⟨row, member, rfl, rfl, rfl⟩⟩, rfl⟩
    unfold Table.revise
    split
    · exact keeps row
    · exact ⟨rfl, rfl⟩

theorem finishRegeneration_persists {id : Uuid} {filesCount totalSize : Int}
    {database revised : Database} {bundle : Bundle}
    (made : Sql.finishRegeneration id filesCount totalSize database = .ok (bundle, revised)) :
    Persists database revised ∧ revised.artifacts = database.artifacts := by
  unfold Sql.finishRegeneration at made
  exact reviseBundle_persists made

def Registered (database : Database) (id : Uuid) (slug : String) : Prop :=
  ∃ row ∈ database.bundles.rows, row.id = id ∧ row.slug = slug

theorem Registered.slug_eq {database : Database} {id : Uuid} {slug other : String}
    (registered : Registered database id slug) (again : Registered database id other) :
    slug = other := by
  obtain ⟨left, leftMem, rfl, rfl⟩ := registered
  obtain ⟨right, rightMem, same, rfl⟩ := again
  rw [Table.eq_of_key_eq leftMem rightMem same.symm]

theorem Persists.registered {before after : Database} (persists : Persists before after)
    {id : Uuid} {slug : String} (registered : Registered before id slug) :
    Registered after id slug := by
  obtain ⟨row, member, rfl, rfl⟩ := registered
  exact persists.bundles row member

end Loontail.Bundles
