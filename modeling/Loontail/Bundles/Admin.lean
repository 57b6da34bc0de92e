import Loontail.Bundles.Repo

/-! # The admin handlers of the registry

Uploads, per-file operations and the regeneration of a manifest, each for the build that
its slug names. The guard for administrators is not part of the handlers. -/

namespace Loontail.Bundles

open Concurrency Disk Text

def resolvedBundle (slug : String) : Handler Bundle := do
  Fallible.lift (validateSlug slug)
  requireBySlug slug

def artifactInBundle (bundleId entryId : Uuid) : Handler BundleArtifact := do
  let found ← query (.findArtifact entryId)
  Fallible.okOr (found.filter fun artifact => artifact.bundleId = bundleId)
    (.notFound "file entry not found in this build")

def resolvedEntry (slug : String) (entryId : Option Uuid) :
    Handler (Bundle × BundleArtifact) := do
  let bundle ← resolvedBundle slug
  let id ← Fallible.okOr entryId (.badRequest "invalid entry id")
  let entry ← artifactInBundle bundle.id id
  pure (bundle, entry)

/-! ## Builds -/

structure CreateBundle where
  name : String
  slug : String
  description : Option String
  version : Option String
  deriving DecidableEq, Repr

structure UpdateBundle where
  name : Option String
  description : Option String
  version : Option String
  deriving DecidableEq, Repr

def create (body : CreateBundle) : Handler Bundle := do
  Fallible.refuse (trim body.name = "" || trim body.slug = "")
    (.badRequest "name and slug are required")
  let id ← provisionBundle (trim body.slug) (trim body.name)
  if body.description.isSome || body.version.isSome then
    query (.updateBundleMeta id none body.description body.version)
  else requireBySlug (trim body.slug)

def update (slug : String) (body : UpdateBundle) : Handler Bundle := do
  let bundle ← resolvedBundle slug
  query (.updateBundleMeta bundle.id body.name body.description body.version)

/-- The row first, in a transaction of its own, the tree best-effort after it. -/
def delete (slug : String) : Handler Unit := do
  let bundle ← resolvedBundle slug
  begin
  let log ← insideAll [] [.deleteBundle bundle.id]
  commit log
  removeBundleDir bundle.slug

/-! ## Uploads -/

def maxUploadBytes : Nat := 10 * 1024 * 1024 * 1024

/-- A part of a multipart body: the chunks that arrive, how they end, and the text that
reading it as a text gives. -/
structure Field where
  name : Option String
  fileName : Option String
  chunks : List Bytes
  failure : Option String
  text : Except String String
  deriving DecidableEq, Repr

structure Multipart where
  fields : List Field
  failure : Option String
  deriving DecidableEq, Repr

def Multipart.ended (multipart : Multipart) : Except AppError Unit :=
  match multipart.failure with
  | none => .ok ()
  | some failure => .error (.badRequest ("invalid multipart: " ++ failure))

def writeChunks (path : List String) (written : Nat) : List Bytes → Handler Nat
  | [] => pure written
  | chunk :: rest => do
      let total := min (written + chunk.length) u64Max
      Fallible.refuse (maxUploadBytes < total)
        (.badRequest ("upload exceeds " ++ toString maxUploadBytes ++ " bytes"))
      io (.append path chunk) "write upload"
      writeChunks path total rest

def streamFieldToFile (field : Field) (path : List String) : Handler Nat := do
  io (.create path) "create temp upload"
  let written ← writeChunks path 0 field.chunks
  match field.failure with
  | none => pure written
  | some failure => throw (.badRequest ("read upload field: " ++ failure))

/-- `TempUpload::new`. -/
def tempUpload (slug : String) : Handler (List String) := do
  io (.createDirAll (buildPath slug)) "mkdir for temp"
  let number ← operate .newUpload
  pure (uploadPath slug number)

/-- The drop of a `TempUpload` that still owns its file; the error is ignored. -/
def dropUpload (path : List String) : Handler Unit := do
  let _ ← attempt (.removeFile path)

/-- The archive field is looked for and streamed; later fields are not read. -/
def streamArchive (path : List String) : List Field → Handler Bool
  | [] => pure false
  | field :: rest =>
      if field.name = some "archive" then do
        let _ ← streamFieldToFile field path
        pure true
      else streamArchive path rest

def clearFiles (filesRoot : List String) : Handler Unit := do
  if ← pathExists filesRoot then
    io (.removeDirAll filesRoot) "clear files dir"

def ingestArchive (state : State) (bundle : Bundle) (path : List String) : Handler Bundle := do
  let filesRoot := filesPath bundle.slug
  clearFiles filesRoot
  io (.createDirAll filesRoot) "recreate files dir"
  extractZip state path filesRoot
  let _ ← attempt (.removeFile path)
  let scan ← scanDirectory state filesRoot
  upsertScan bundle.id scan
  regenerateManifest state bundle

/-- `err.to_string()`. -/
def errorText (state : State) : AppError → String
  | .badRequest message => message
  | .unauthorized => "unauthorized"
  | .forbidden => "forbidden"
  | .notFound message => message
  | .conflict message => message
  | .tooManyRequests => "too many requests"
  | .database error => state.databaseText error
  | .internal message => message

def failing (state : State) (bundleId : Uuid) (work : Handler Bundle) : Handler Bundle := do
  match ← observe work with
  | .ok refreshed => pure refreshed
  | .error error =>
      query (.setStatus bundleId .failed (some (errorText state error)))
      throw error

def receiveArchive (state : State) (bundle : Bundle) (multipart : Multipart)
    (path : List String) : Handler Bundle := do
  let haveArchive ← streamArchive path multipart.fields
  if haveArchive then
    query (.setStatus bundle.id .processing none)
    failing state bundle.id (ingestArchive state bundle path)
  else
    Fallible.lift multipart.ended
    throw (.badRequest
      "no archive file provided — send the ZIP as form field \"archive\"")

def uploadArchive (state : State) (slug : String) (multipart : Multipart) : Handler Bundle := do
  let bundle ← resolvedBundle slug
  ensureBuildDir bundle.slug "ensure dir"
  let path ← tempUpload bundle.slug
  let result ← observe (receiveArchive state bundle multipart path)
  dropUpload path
  Fallible.lift result

/-- What `read_upload_parts` has gathered. -/
structure UploadParts where
  size : Option Nat
  targetPath : Option String
  fileName : Option String
  deriving DecidableEq, Repr

def readUploadField (path : List String) (parts : UploadParts) (field : Field) :
    Handler UploadParts :=
  if field.name = some "file" then do
    let size ← streamFieldToFile field path
    pure { parts with fileName := field.fileName, size := some size }
  else if field.name = some "targetPath" then
    match field.text with
    | .ok text => pure { parts with targetPath := some text }
    | .error failure => throw (.badRequest ("read targetPath: " ++ failure))
  else pure parts

def readUploadParts (path : List String) (parts : UploadParts) :
    List Field → Handler UploadParts
  | [] => pure parts
  | field :: rest => do
      let parts ← readUploadField path parts field
      readUploadParts path parts rest

def prepareUpload (filesRoot : List String) (multipart : Multipart) (path : List String) :
    Handler (Nat × String) := do
  let parts ← readUploadParts path ⟨none, none, none⟩ multipart.fields
  Fallible.lift multipart.ended
  let size ← Fallible.okOr parts.size
    (.badRequest "no file provided — send the file as form field \"file\"")
  let target := (parts.targetPath.filter fun target => trim target ≠ "").orElse
    fun _ => parts.fileName
  let raw ← Fallible.okOr target (.badRequest "targetPath or a filename is required")
  let normalized ← Fallible.lift (normalizeRelativePath raw "targetPath")
  io (.createDirAll (joinFiles filesRoot normalized).dropLast) "mkdir"
  pure (size, normalized)

/-- The staged file is unlinked unless it gets as far as its rename. -/
def uploadFile (state : State) (slug : String) (multipart : Multipart) : Handler Bundle := do
  let bundle ← resolvedBundle slug
  ensureBuildDir bundle.slug "ensure dir"
  let path ← tempUpload bundle.slug
  let filesRoot := filesPath bundle.slug
  match ← observe (prepareUpload filesRoot multipart path) with
  | .error error =>
      dropUpload path
      throw error
  | .ok (size, normalized) =>
      let dest := joinFiles filesRoot normalized
      io (.rename path dest) "move file into place"
      let sha256 ← hashFile state dest
      let (name, category) := splitRelativePath normalized
      query (.upsertArtifact bundle.id
        ⟨normalized, name, category, size, some sha256, false, state.modifiedTime dest⟩)
      regenerateManifest state bundle

/-! ## Folders -/

def ancestors (path : String) : List String :=
  ((segments path).inits.filter fun parts => parts ≠ []).map joinSegments

def folderEntry (path : String) : ScanEntry :=
  let (name, category) := splitRelativePath path
  ⟨path, name, category, 0, none, true, none⟩

def upsertFolders (bundleId : Uuid) : List String → Handler Unit
  | [] => pure ()
  | path :: rest => do
      query (.upsertArtifact bundleId (folderEntry path))
      upsertFolders bundleId rest

def createFolder (state : State) (slug : String) (relativePath : String) : Handler Bundle := do
  let bundle ← resolvedBundle slug
  let normalized ← Fallible.lift (normalizeRelativePath (trim relativePath) "relativePath")
  ensureBuildDir bundle.slug "ensure dir"
  let full := joinFiles (filesPath bundle.slug) normalized
  let taken ← attempt (.isFile full)
  Fallible.refuse (taken.toOption.getD false)
    (.badRequest "a file already exists at that path")
  io (.createDirAll full) "mkdir"
  upsertFolders bundle.id (ancestors normalized)
  regenerateManifest state bundle

/-! ## Deleting -/

def deleteEntryRows (bundleId : Uuid) (entry : BundleArtifact) : List Statement :=
  (if entry.isDir then [.deleteLike bundleId (startingWith (entry.relativePath ++ "/"))]
    else []) ++ [.deleteArtifact entry.id]

def unlinkEntry (filesRoot : List String) (entry : BundleArtifact) : Handler Unit := do
  let path := joinFiles filesRoot entry.relativePath
  if ← pathExists path then
    let _ ← attempt (if entry.isDir then .removeDirAll path else .removeFile path)

def unlinkEntries (filesRoot : List String) : List BundleArtifact → Handler Unit
  | [] => pure ()
  | entry :: rest => do
      unlinkEntry filesRoot entry
      unlinkEntries filesRoot rest

def deleteFile (state : State) (slug : String) (entryId : Option Uuid) : Handler Bool := do
  let (bundle, entry) ← resolvedEntry slug entryId
  begin
  let log ← insideAll [] (deleteEntryRows bundle.id entry)
  commit log
  unlinkEntry (filesPath bundle.slug) entry
  let _ ← regenerateManifest state bundle
  pure entry.isDir

/-- Identifiers that are gone are skipped, one of another build refuses the batch. -/
def resolveDeletions (bundleId : Uuid) : List Uuid → Handler (List BundleArtifact)
  | [] => pure []
  | id :: rest => do
      match ← query (.findArtifact id) with
      | none => resolveDeletions bundleId rest
      | some entry =>
          Fallible.refuse (entry.bundleId ≠ bundleId)
            (.notFound "file entry not found in this build")
          let entries ← resolveDeletions bundleId rest
          pure (entry :: entries)

def bulkDelete (state : State) (slug : String) (ids : List Uuid) : Handler Nat := do
  let bundle ← resolvedBundle slug
  Fallible.refuse ids.isEmpty (.badRequest "ids must be a non-empty array")
  let entries ← resolveDeletions bundle.id ids
  begin
  let log ← insideAll [] (entries.flatMap (deleteEntryRows bundle.id))
  commit log
  unlinkEntries (filesPath bundle.slug) entries
  let _ ← regenerateManifest state bundle
  pure entries.length

/-! ## Moving -/

/-- `""` is the root of the build. -/
def joinTargetDir (targetDir name : String) : Except AppError String :=
  let target := trim targetDir
  normalizeRelativePath (if target = "" then name else beneath target name) "targetDir"

def targetParts (targetDir : String) : List String :=
  (normalParts "targetDir" (components (unify (trim targetDir)))).toOption.getD []

theorem joinTargetDir_ok {targetDir name newRel : String} (safe : SafeSegment name)
    (plain : '/' ∉ name.toList) (joined : joinTargetDir targetDir name = .ok newRel) :
    segments newRel = targetParts targetDir ++ [name] := by
  unfold joinTargetDir at joined
  have self : unify name = name := unify_eq_self safe.plain
  by_cases here : trim targetDir = ""
  · have folder : targetParts targetDir = [] := by
      rw [targetParts, here]
      decide +kernel
    have alone : Normalized name := by
      intro segment member
      rw [segments_of_plain plain, List.mem_singleton] at member
      exact member ▸ safe
    simp only [here, if_true] at joined
    rw [alone.accepted] at joined
    rw [folder, ← Except.ok.inj joined, segments_of_plain plain, List.nil_append]
  · simp only [here, if_false] at joined
    have gathered := normalizeRelativePath_parts joined
    rw [unify_beneath, self, components_beneath safe plain, normalParts_concat] at gathered
    unfold targetParts
    cases parts : normalParts "targetDir" (components (unify (trim targetDir))) with
    | error error =>
        rw [parts] at gathered
        cases gathered
    | ok folder =>
        rw [parts] at gathered
        exact (Except.ok.inj gathered).symm

def validateMove (entry : BundleArtifact) (newRel : String) : Except AppError Unit :=
  if newRel = entry.relativePath then
    .error (.conflict "the entry is already at that path")
  else if entry.isDir && (entry.relativePath ++ "/").toList.isPrefixOf newRel.toList then
    .error (.badRequest "cannot move a folder into its own descendant")
  else .ok ()

def checkDestinationFree (log : List Statement) (bundleId : Uuid) (newRel : String)
    (isDir : Bool) : Handler Unit := do
  let taken ← inside log (.countAt bundleId newRel)
  Fallible.refuse (0 < taken) (.conflict "a file or folder already exists at that path")
  if isDir then
    let below ← inside log (.countLike bundleId (startingWith (newRel ++ "/")))
    Fallible.refuse (0 < below) (.conflict "a folder already exists at that path")

def moveOne (bundleId : Uuid) (filesRoot : List String) (log : List Statement)
    (entry : BundleArtifact) (newRel : String) : Handler (List Statement) := do
  checkDestinationFree log bundleId newRel entry.isDir
  moveSubtree log bundleId filesRoot entry.relativePath newRel entry.isDir

def applyMove (bundle : Bundle) (entry : BundleArtifact) (newRel : String) : Handler Unit := do
  let filesRoot := filesPath bundle.slug
  Fallible.lift (validateMove entry newRel)
  let taken ← pathExists (joinFiles filesRoot newRel)
  Fallible.refuse (taken && newRel ≠ entry.relativePath)
    (.conflict "a file or folder already exists at that path")
  begin
  let log ← moveOne bundle.id filesRoot [] entry newRel
  commit log

def renameFile (state : State) (slug : String) (entryId : Option Uuid)
    (newRelativePath : String) : Handler Bundle := do
  let (bundle, entry) ← resolvedEntry slug entryId
  let normalized ← Fallible.lift
    (normalizeRelativePath (trim newRelativePath) "newRelativePath")
  applyMove bundle entry normalized
  regenerateManifest state bundle

def moveFile (state : State) (slug : String) (entryId : Option Uuid) (targetDir : String) :
    Handler Bundle := do
  let (bundle, entry) ← resolvedEntry slug entryId
  let newRel ← Fallible.lift (joinTargetDir targetDir entry.name)
  applyMove bundle entry newRel
  regenerateManifest state bundle

def resolveMoves (bundleId : Uuid) (targetDir : String) :
    List Uuid → Handler (List (BundleArtifact × String))
  | [] => pure []
  | id :: rest => do
      let entry ← artifactInBundle bundleId id
      let newRel ← Fallible.lift (joinTargetDir targetDir entry.name)
      Fallible.lift (validateMove entry newRel)
      let moves ← resolveMoves bundleId targetDir rest
      pure ((entry, newRel) :: moves)

def moveAll (bundleId : Uuid) (filesRoot : List String) (log : List Statement) :
    List (BundleArtifact × String) → Handler (List Statement)
  | [] => pure log
  | (entry, newRel) :: rest => do
      let log ← moveOne bundleId filesRoot log entry newRel
      moveAll bundleId filesRoot log rest

def moveBatch (bundleId : Uuid) (filesRoot : List String)
    (moves : List (BundleArtifact × String)) : Handler Unit := do
  let log ← moveAll bundleId filesRoot [] moves
  commit log

def moveFiles (state : State) (slug : String) (ids : List Uuid) (targetDir : String) :
    Handler Bundle := do
  let bundle ← resolvedBundle slug
  Fallible.refuse ids.isEmpty (.badRequest "ids must be a non-empty array")
  let moves ← resolveMoves bundle.id targetDir ids
  begin
  moveBatch bundle.id (filesPath bundle.slug) moves
  regenerateManifest state bundle

/-! ## Rows -/

def toggleDownloadOnce (state : State) (slug : String) (entryId : Option Uuid)
    (downloadOnce : Bool) : Handler Bundle := do
  let (bundle, entry) ← resolvedEntry slug entryId
  query (.setDownloadOnce entry.id downloadOnce)
  regenerateManifest state bundle

def rehashFile (state : State) (slug : String) (entryId : Option Uuid) : Handler Bundle := do
  let (bundle, entry) ← resolvedEntry slug entryId
  Fallible.refuse entry.isDir (.badRequest "cannot rehash a directory")
  let path := joinFiles (filesPath bundle.slug) entry.relativePath
  let present ← pathExists path
  Fallible.refuse (!present) (.badRequest "physical file not found on disk")
  let sha256 ← hashFile state path
  query (.updateSha entry.id sha256)
  regenerateManifest state bundle

def regenerateNow (state : State) (slug : String) : Handler Bundle := do
  let bundle ← resolvedBundle slug
  query (.setStatus bundle.id .processing none)
  failing state bundle.id (regenerateManifest state bundle)

/-! ## Validation -/

structure ValidateResult where
  missing : List (Uuid × String × String)
  orphaned : List String
  deriving DecidableEq, Repr

def validate (state : State) (slug : String) : Handler ValidateResult := do
  let bundle ← resolvedBundle slug
  let artifacts ← query (.listArtifacts bundle.id)
  let files := artifacts.filter fun artifact => !artifact.isDir
  let filesRoot := filesPath bundle.slug
  let present ← io (.probe filesRoot (files.map (·.relativePath))) "validate task"
  let scan ← scanDirectory state filesRoot
  pure
    { missing := (files.filter fun file => !present.contains file.relativePath).map
        fun file => (file.id, file.relativePath, file.name)
      orphaned := (scan.filter fun entry => !entry.isDir &&
        !(files.map (·.relativePath)).contains entry.relativePath).map (·.relativePath) }

/-! ## Requests -/

inductive Request where
  | create (body : CreateBundle)
  | update (slug : String) (body : UpdateBundle)
  | delete (slug : String)
  | uploadArchive (slug : String) (multipart : Multipart)
  | uploadFile (slug : String) (multipart : Multipart)
  | createFolder (slug relativePath : String)
  | deleteFile (slug : String) (entryId : Option Uuid)
  | bulkDelete (slug : String) (ids : List Uuid)
  | renameFile (slug : String) (entryId : Option Uuid) (newRelativePath : String)
  | moveFile (slug : String) (entryId : Option Uuid) (targetDir : String)
  | moveFiles (slug : String) (ids : List Uuid) (targetDir : String)
  | toggleDownloadOnce (slug : String) (entryId : Option Uuid) (downloadOnce : Bool)
  | rehashFile (slug : String) (entryId : Option Uuid)
  | regenerate (slug : String)
  | validate (slug : String)
  deriving DecidableEq, Repr

inductive Reply where
  | bundle (bundle : Bundle)
  | message (text : String)
  | deleted (count : Nat)
  | validated (result : ValidateResult)
  deriving DecidableEq, Repr

def Request.handler (state : State) : Request → Handler Reply
  | create body => .bundle <$> Bundles.create body
  | update slug body => .bundle <$> Bundles.update slug body
  | delete slug => (fun _ => .message "build deleted") <$> Bundles.delete slug
  | uploadArchive slug multipart => .bundle <$> Bundles.uploadArchive state slug multipart
  | uploadFile slug multipart => .bundle <$> Bundles.uploadFile state slug multipart
  | createFolder slug relativePath => .bundle <$> Bundles.createFolder state slug relativePath
  | deleteFile slug entryId =>
      (fun isDir => .message (if isDir then "folder deleted" else "file deleted")) <$>
        Bundles.deleteFile state slug entryId
  | bulkDelete slug ids => .deleted <$> Bundles.bulkDelete state slug ids
  | renameFile slug entryId newRelativePath =>
      .bundle <$> Bundles.renameFile state slug entryId newRelativePath
  | moveFile slug entryId targetDir => .bundle <$> Bundles.moveFile state slug entryId targetDir
  | moveFiles slug ids targetDir => .bundle <$> Bundles.moveFiles state slug ids targetDir
  | toggleDownloadOnce slug entryId downloadOnce =>
      .bundle <$> Bundles.toggleDownloadOnce state slug entryId downloadOnce
  | rehashFile slug entryId => .bundle <$> Bundles.rehashFile state slug entryId
  | regenerate slug => .bundle <$> regenerateNow state slug
  | validate slug => .validated <$> Bundles.validate state slug

def handle (state : State) (request : Request) : Process registry (Except AppError Reply) :=
  (request.handler state).run

end Loontail.Bundles
