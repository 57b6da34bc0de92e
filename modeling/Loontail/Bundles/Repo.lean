import Loontail.Bundles.Archive

/-! # Rows and files together

The routines of the registry that touch both: provisioning, the reconciliation after a
scan, the move of a subtree and the regeneration of the manifest. -/

namespace Loontail.Bundles

open Concurrency Disk Text

def requireBySlug (slug : String) : Handler Bundle := do
  Fallible.okOr (← query (.findBySlug slug)) (.notFound "build not found")

/-! ## Provisioning -/

/-- On the caller's transaction, which is known by the writes it has run. -/
def provisionBundleRow (log : List Statement) (slug name : String) :
    Handler (Uuid × List Statement) := do
  Fallible.lift (validateSlug slug)
  let taken ← inside log (.findBySlug slug)
  Fallible.refuse taken.isSome (.conflict "a build with this slug already exists")
  let id ← inside log (.insertBundle name slug)
  pure (id, log ++ [.insertBundle name slug])

def ensureBuildDir (slug context : String) : Handler Unit :=
  io (.createDirAll (filesPath slug)) context

def provisionBundle (slug name : String) : Handler Uuid := do
  begin
  let (id, log) ← provisionBundleRow [] slug name
  commit log
  ensureBuildDir slug "mkdir build dir"
  pure id

/-- `delete_build_files`, whose error is only logged. -/
def removeBundleDir (slug : String) : Handler Unit := do
  if ← pathExists (buildPath slug) then
    let _ ← attempt (.removeDirAll (buildPath slug))

/-! ## Reconciliation -/

def upsertChunkSize : Nat := 10000

def chunksFrom {Value : Type} (size : Nat) : Nat → List Value → List (List Value)
  | 0, _ => []
  | _ + 1, [] => []
  | fuel + 1, value :: rest =>
      (value :: rest).take size :: chunksFrom size fuel ((value :: rest).drop size)

/-- `chunks(size)`. -/
def chunks {Value : Type} (size : Nat) (values : List Value) : List (List Value) :=
  chunksFrom size values.length values

def insideAll (log : List Statement) : List Statement → Handler (List Statement)
  | [] => pure log
  | statement :: rest => do
      let _ ← inside log statement
      insideAll (log ++ [statement]) rest

def upsertArtifactChunk (bundleId : Uuid) (chunk : List ScanEntry) : List Statement :=
  if chunk.isEmpty then [] else [.upsertChunk bundleId (columnsOf chunk)]

def upsertScan (bundleId : Uuid) (scan : List ScanEntry) : Handler Unit := do
  begin
  let log ← insideAll [] ((chunks upsertChunkSize scan).flatMap (upsertArtifactChunk bundleId))
  let log ← insideAll log [.deleteUnlisted bundleId (scan.map (·.relativePath))]
  commit log

/-! ## Moves -/

/-- `LIKE prefix || '%'`, the prefix taken literally. -/
def startingWith (leading : String) : String :=
  .ofList (escapeLikePattern leading.toList ++ ['%'])

/-- `strip_prefix`. -/
def withoutLeading (leading text : String) : Option String :=
  (stripLeading leading text.toList).map String.ofList

def movedChild (oldRel newRel : String) (child : BundleArtifact) : Option Statement :=
  (withoutLeading (oldRel ++ "/") child.relativePath).map fun suffix =>
    let path := beneath newRel suffix
    let (name, category) := splitRelativePath path
    .updatePath child.id path name category

def moveRows (log : List Statement) (bundleId : Uuid) (oldRel newRel : String)
    (isDir : Bool) : Handler (List Statement) := do
  let found ← inside log (.selectIdAt bundleId oldRel)
  let id ← Fallible.okOr found (.notFound "file entry not found in this build")
  let (name, category) := splitRelativePath newRel
  let log ← insideAll log [.updatePath id newRel name category]
  if isDir then
    let children ← inside log (.selectLike bundleId (startingWith (oldRel ++ "/")))
    insideAll log (children.filterMap (movedChild oldRel newRel))
  else pure log

def moveOnDisk (filesRoot : List String) (oldRel newRel : String) : Handler Unit := do
  if ← pathExists (joinFiles filesRoot oldRel) then
    io (.createDirAll (joinFiles filesRoot newRel).dropLast) "mkdir"
    io (.rename (joinFiles filesRoot oldRel) (joinFiles filesRoot newRel)) "rename"

/-- Rows first, the disk last, while the transaction is still open. -/
def moveSubtree (log : List Statement) (bundleId : Uuid) (filesRoot : List String)
    (oldRel newRel : String) (isDir : Bool) : Handler (List Statement) := do
  let log ← moveRows log bundleId oldRel newRel isDir
  moveOnDisk filesRoot oldRel newRel
  pure log

/-! ## The manifest -/

def regenerateManifest (state : State) (bundle : Bundle) : Handler Bundle := do
  let artifacts ← query (.listArtifacts bundle.id)
  let present ← io (.probe (filesPath bundle.slug) (artifacts.map (·.relativePath)))
    "manifest probe task"
  let built := buildManifest artifacts bundle.slug state.publicPrefix fun artifact =>
    present.contains artifact.relativePath
  io (.writeManifest bundle.slug (state.toJson built.manifest)) "write manifest"
  query (.finishRegeneration bundle.id built.filesCount built.totalSize)

end Loontail.Bundles
