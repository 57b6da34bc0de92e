import Loontail.Bundles.Service
import Mathlib.Algebra.Group.Nat.Defs

/-! # Archives

A ZIP is extracted entry by entry, then the tree is scanned for the rows. An archive is
what its reader yields: how many slots it has, and for each either an entry or why it
cannot be read. -/

namespace Loontail.Bundles

open Concurrency Disk Text

def maxUncompressed : Nat := 10 * 1024 * 1024 * 1024

def maxEntries : Nat := 100000

def u64Max : Nat := 2 ^ 64 - 1

/-- The declared size, the bytes that reading yields, and how reading ends. -/
structure ZipEntry where
  name : String
  isDir : Bool
  size : Nat
  content : Bytes
  failure : Option String
  deriving DecidableEq, Repr

abbrev ZipSlot := Except String ZipEntry

abbrev State := AppState ZipSlot

def trimStartMatches (char : Char) (text : String) : String :=
  .ofList (text.toList.dropWhile (· = char))

def isMacOs (name : String) : Bool :=
  name = "__MACOSX" || "__MACOSX/".toList.isPrefixOf name.toList

/-- `msg.contains("is required")`. -/
def saysRequired : AppError → Bool
  | .badRequest message => decide ("is required".toList <:+: message.toList)
  | _ => false

def zipSlip (name : String) : AppError := .badRequest ("zip-slip detected for entry: " ++ name)

/-- The path of an entry; `none` for one that is skipped. -/
def entryPath (name : String) : Except AppError (Option String) :=
  if isMacOs name then .ok none
  else
    let trimmed := trimStartMatches '/' name
    if trimmed = "" then .ok none
    else
      match normalizeRelativePath trimmed "entry" with
      | .ok safe => .ok (some safe)
      | .error error => if saysRequired error then .ok none else .error (zipSlip name)

def isWithin (candidate base : List String) : Bool :=
  base.isPrefixOf candidate && !candidate.contains ".."

/-- `io::copy`: the bytes that could be read are written even when reading fails then. -/
def copyEntry (entry : ZipEntry) (safe : String) (path : List String) : Handler Unit := do
  io (.append path entry.content) ("write " ++ safe)
  match entry.failure with
  | none => pure ()
  | some failure => throw (.internal ("write " ++ safe ++ ": " ++ failure))

def placeEntry (entry : ZipEntry) (safe : String) (path : List String) : Handler Unit :=
  if entry.isDir then io (.createDirAll path) ("mkdir " ++ safe)
  else do
    io (.createDirAll path.dropLast) ("mkdir parent " ++ safe)
    io (.create path) ("create " ++ safe)
    copyEntry entry safe path

def extractEntry (dest : List String) (total : Nat) : ZipSlot → Handler Nat
  | .error failure => throw (.badRequest ("read ZIP entry: " ++ failure))
  | .ok entry => do
      match ← Fallible.lift (entryPath entry.name) with
      | none => pure total
      | some safe =>
          let path := joinFiles dest safe
          Fallible.refuse (!isWithin path dest) (zipSlip entry.name)
          let declared := min (total + entry.size) u64Max
          Fallible.refuse (maxUncompressed < declared)
            (.badRequest ("ZIP total uncompressed size exceeds limit of " ++
              toString maxUncompressed ++ " bytes."))
          placeEntry entry safe path
          pure declared

def extractEntries (dest : List String) (total : Nat) : List ZipSlot → Handler Unit
  | [] => pure ()
  | slot :: rest => do
      let declared ← extractEntry dest total slot
      extractEntries dest declared rest

/-- The reader's view of an archive, unless it is refused as a whole. -/
def openArchive (state : State) (bytes : Bytes) : Except AppError (List ZipSlot) :=
  match state.openZip bytes with
  | .error failure => .error (.badRequest ("invalid ZIP archive: " ++ failure))
  | .ok slots =>
      if maxEntries < slots.length then
        .error (.badRequest ("ZIP contains too many entries (" ++ toString slots.length ++
          "). Limit is " ++ toString maxEntries ++ "."))
      else .ok slots

def extractZip (state : State) (archive dest : List String) : Handler Unit := do
  let bytes ← io (.read archive) "open archive"
  let slots ← Fallible.lift (openArchive state bytes)
  extractEntries dest 0 slots

/-! ## Scanning -/

def scanEntry (state : State) (filesRoot : List String) (found : List String × Node Bytes) :
    ScanEntry :=
  let relativePath := unify (joinSegments found.1)
  let (name, category) := splitRelativePath relativePath
  let modified := state.modifiedTime (filesRoot ++ found.1)
  match found.2 with
  | .folder => ⟨relativePath, name, category, 0, none, true, modified⟩
  | .file content =>
      ⟨relativePath, name, category, content.length, some (state.sha256 content), false, modified⟩

def refusedFolders (filesRoot : List String) :
    List (List String × Node Bytes) → Handler (List (List String))
  | [] => pure []
  | (_, .file _) :: rest => refusedFolders filesRoot rest
  | (inside, .folder) :: rest => do
      let read ← attempt (.readDir (filesRoot ++ inside))
      let refused ← refusedFolders filesRoot rest
      match read with
      | .ok _ => pure refused
      | .error _ => pure (inside :: refused)

def isReached (refused : List (List String)) (inside : List String) : Bool :=
  !refused.any fun folder => folder <+: inside && folder ≠ inside

/-- A tree that is not there scans as empty, and a folder that is refused as one with
nothing in it. -/
def scanDirectory (state : State) (filesRoot : List String) : Handler (List ScanEntry) := do
  if ← pathExists filesRoot then
    let found ← io (.scan filesRoot) "open"
    let refused ← refusedFolders filesRoot (([], .folder) :: found)
    pure ((found.filter fun item => isReached refused item.1).map (scanEntry state filesRoot))
  else pure []

/-- Opening a folder succeeds, reading it does not. -/
def hashError (error : IoError) : AppError :=
  match error with
  | .isADirectory => .internal ("read: " ++ error.text)
  | .device => .internal ("read: " ++ error.text)
  | _ => .internal ("open: " ++ error.text)

def hashFile (state : State) (path : List String) : Handler String := do
  match ← attempt (.read path) with
  | .ok content => pure (state.sha256 content)
  | .error error => throw (hashError error)

end Loontail.Bundles
