import Loontail.Concurrency.Fallible
import Loontail.Disk.Volume
import Loontail.Concurrency.Protocol

/-! # The course of a manifest's writer and of its reader

A writer carries what it has written and what is left, a reader what it has read. -/

/-! ## How a manifest is written and read

The calls that `write_manifest_atomic` and the read behind `get_manifest` make, one by
one, on the folder of a build. A call is one step; between two of them others run. -/

namespace Loontail.Bundles

open Concurrency Disk

inductive BuildFile where
  | manifest
  | staged
  deriving DecidableEq, Repr

abbrev BuildFolders := Volume String BuildFile

inductive FileCall where
  | createDirAll (slug : String)
  | create (slug : String) (file : BuildFile)
  | write (file offset : Nat) (data : Bytes)
  | rename (slug : String) (source target : BuildFile)
  | open (slug : String) (file : BuildFile)
  | read (file offset : Nat) (bound : Option Nat)
  deriving DecidableEq, Repr

namespace FileCall

@[reducible] def Answer : FileCall → Type
  | create .. => Nat
  | .open .. => Nat
  | read .. => Bytes
  | _ => Unit

def perform (folders : BuildFolders) :
    (call : FileCall) → Except IoError call.Answer × BuildFolders
  | createDirAll slug => (.ok (), folders.makeFolder slug)
  | create slug file =>
      match folders.create slug file with
      | .ok (number, after) => (.ok number, after)
      | .error error => (.error error, folders)
  | write file offset data => (.ok (), folders.write file offset data)
  | rename slug source target =>
      match folders.rename slug source target with
      | .ok after => (.ok (), after)
      | .error error => (.error error, folders)
  | .open slug file => (folders.openFile slug file, folders)
  | read file offset bound => (.ok (folders.read file offset bound), folders)

end FileCall

/-- Any call may fail on the device. -/
@[reducible] def buildFolders : Interface where
  State := BuildFolders
  Operation := FileCall
  Result := fun call => Except IoError call.Answer
  ready := fun _ _ => true
  perform := FileCall.perform
  fault := fun _ => some (.error .device)

abbrev FileProcess (Reply : Type) := Fallible buildFolders IoError Reply

/-- The call, with `?` on what it returns. -/
def call (call : FileCall) : FileProcess call.Answer := do
  Fallible.lift (← @Fallible.operate buildFolders IoError call)

/-- `write_all`: the system takes the text piece by piece. -/
def writeAll (file offset : Nat) : List Bytes → FileProcess Unit
  | [] => pure ()
  | piece :: pieces => do
      call (.write file offset piece)
      writeAll file (offset + piece.length) pieces

/-- The JSON is given by the pieces that the system takes of it. -/
def writeManifestAtomic (slug : String) (json : List Bytes) : FileProcess Unit := do
  call (.createDirAll slug)
  let file ← call (.create slug .staged)
  writeAll file 0 json
  call (.rename slug .staged .manifest)

/-- Reads pieces of at most these sizes until one is empty, and what is left at once when
the sizes are used up. -/
def readToEnd (file : Nat) (content : Bytes) : List Nat → FileProcess Bytes
  | [] => do
      let rest ← call (.read file content.length none)
      pure (content ++ rest)
  | size :: sizes => do
      let piece ← call (.read file content.length (some (size + 1)))
      if piece = [] then pure content else readToEnd file (content ++ piece) sizes

/-- `tokio::fs::read(manifest_path)`. -/
def readManifest (slug : String) (sizes : List Nat) : FileProcess Bytes := do
  let file ← call (.open slug .manifest)
  readToEnd file [] sizes

inductive ManifestRequest where
  | write (slug : String) (json : List Bytes)
  | read (slug : String) (sizes : List Nat)
  deriving DecidableEq, Repr

inductive ManifestReply where
  | written
  | content (bytes : Bytes)
  deriving DecidableEq, Repr

def handleFiles : ManifestRequest → Process buildFolders (Except IoError ManifestReply)
  | .write slug json => ((fun _ => .written) <$> writeManifestAtomic slug json).run
  | .read slug sizes => (.content <$> readManifest slug sizes).run

/-! ## The courses -/

inductive FilePhase where
  | arriving (request : ManifestRequest)
  | ensured (slug : String) (json : List Bytes)
  | staging (slug : String) (file : Nat) (written : Bytes) (rest : List Bytes)
  | reading (slug : String) (file : Nat) (content : Bytes)
  | answered (slug : String) (content : Bytes)
  | finished
  deriving DecidableEq, Repr

namespace FilePhase

def allows : FilePhase → FileCall → Prop
  | arriving (.write slug _), call => call = .createDirAll slug
  | arriving (.read slug _), call => call = .open slug .manifest
  | ensured slug _, call => call = .create slug .staged
  | staging _ file written (piece :: _), call => call = .write file written.length piece
  | staging slug _ _ [], call => call = .rename slug .staged .manifest
  | reading _ file content, call =>
      ∃ bound, bound ≠ some 0 ∧ call = .read file content.length bound
  | _, _ => False

/-- The phase after a piece was read: an empty piece and an unbounded one are the last. -/
def receive (slug : String) (file : Nat) (content piece : Bytes) (bound : Option Nat) :
    FilePhase :=
  if piece = [] ∨ bound = none then answered slug (content ++ piece)
  else reading slug file (content ++ piece)

def after (phase : FilePhase) (call : FileCall) (result : Except IoError call.Answer) :
    FilePhase :=
  match phase, call, result with
  | arriving (.write slug json), .createDirAll _, .ok _ => ensured slug json
  | ensured slug json, .create _ _, .ok file => staging slug file [] json
  | staging slug file written (piece :: rest), .write .., .ok _ =>
      staging slug file (written ++ piece) rest
  | arriving (.read slug _), .open _ _, .ok file => reading slug file []
  | reading slug file content, .read _ _ bound, .ok piece =>
      receive slug file content piece bound
  | _, _, _ => finished

def Serves (request : ManifestRequest) : FilePhase → Prop
  | arriving arrived => request = arrived
  | ensured slug json => request = .write slug json
  | staging slug _ written rest =>
      ∃ json, request = .write slug json ∧ json.flatten = written ++ rest.flatten
  | reading slug _ _ => ∃ sizes, request = .read slug sizes
  | answered slug _ => ∃ sizes, request = .read slug sizes
  | finished => True

theorem Serves.after {request : ManifestRequest} {phase : FilePhase} {call : FileCall}
    {result : Except IoError call.Answer} (serves : phase.Serves request) :
    (phase.after call result).Serves request := by
  unfold FilePhase.after
  split
  · exact serves
  · exact ⟨_, serves, rfl⟩
  · obtain ⟨json, asked, text⟩ := serves
    exact ⟨json, asked, by simpa using text⟩
  · exact ⟨_, serves⟩
  · unfold receive
    split <;> exact serves
  · trivial

end FilePhase

@[reducible] def fileProtocol : Protocol buildFolders ManifestRequest where
  Phase := FilePhase
  initial := .arriving
  allows := FilePhase.allows
  after := FilePhase.after

theorem serves_filePhase (request : ManifestRequest) (index : Nat)
    (history : List (Event buildFolders)) :
    (fileProtocol.phase request index history : FilePhase).Serves request := by
  refine @Protocol.phase_induction _ _ fileProtocol (FilePhase.Serves request) request rfl ?_
    index history
  exact fun _ _ _ serves => serves.after

def fileEnding : Except IoError ManifestReply → FilePhase → Prop
  | .ok (.content bytes), phase => ∃ slug, phase = .answered slug bytes
  | _, _ => True

/-! ## The processes follow the protocol -/

section Programs

variable {Reply : Type} {onError : IoError → FilePhase → Prop}

@[simp] theorem meets_call {logic : Logic buildFolders} (asked : FileCall)
    {onOk : asked.Answer → logic.Situation → Prop}
    {onError : IoError → logic.Situation → Prop} {situation : logic.Situation} :
    @Fallible.Meets buildFolders IoError (no_index asked.Answer) (call asked) logic onOk
        onError situation ↔
      logic.admits situation asked fun result following =>
        match result with
        | .ok answer => onOk answer following
        | .error error => onError error following := by
  rw [call, Fallible.meets_bind, Fallible.meets_operate]
  refine iff_of_eq (congrArg _ ?_)
  funext result following
  cases result <;> rfl

theorem writeAll_follows (slug : String) (file : Nat) (written : Bytes) (pieces : List Bytes)
    {onOk : Unit → FilePhase → Prop}
    (ended : onOk () (.staging slug file (written ++ pieces.flatten) []))
    (failed : ∀ error phase, onError error phase) :
    (writeAll file written.length pieces).Meets fileProtocol.logic onOk onError
      (.staging slug file written pieces) := by
  induction pieces generalizing written with
  | nil =>
      rw [writeAll, Fallible.meets_pure]
      simpa using ended
  | cons piece rest induction =>
      rw [writeAll, Fallible.meets_bind, meets_call]
      refine ⟨rfl, fun result => ?_⟩
      cases result with
      | error error => exact failed error _
      | ok answer =>
          have length : written.length + piece.length = (written ++ piece).length := by simp
          rw [length]
          exact induction (written ++ piece) (by simpa using ended)

theorem readToEnd_follows (slug : String) (file : Nat) (content : Bytes) (sizes : List Nat)
    {onOk : Bytes → FilePhase → Prop}
    (ended : ∀ bytes, onOk bytes (.answered slug bytes))
    (failed : ∀ error phase, onError error phase) :
    (readToEnd file content sizes).Meets fileProtocol.logic onOk onError
      (.reading slug file content) := by
  induction sizes generalizing content with
  | nil =>
      rw [readToEnd, Fallible.meets_bind, meets_call]
      refine ⟨⟨none, by simp, rfl⟩, fun result => ?_⟩
      cases result with
      | error error => exact failed error _
      | ok rest =>
          have last : FilePhase.after (.reading slug file content)
              (.read file content.length none) (.ok rest) =
                .answered slug (content ++ rest) := if_pos (.inr rfl)
          simp only [last, Fallible.meets_pure]
          exact ended _
  | cons size rest induction =>
      rw [readToEnd, Fallible.meets_bind, meets_call]
      refine ⟨⟨some (size + 1), by simp, rfl⟩, fun result => ?_⟩
      cases result with
      | error error => exact failed error _
      | ok piece =>
          refine (Fallible.meets_ite _ _ _).mpr ⟨?_, ?_⟩
          · rintro rfl
            have last : fileProtocol.after (.reading slug file content)
                (.read file content.length (some (size + 1))) (.ok []) =
                  .answered slug content := by
              simp [FilePhase.after, FilePhase.receive]
            rw [last, Fallible.meets_pure]
            exact ended content
          · intro more
            have next : fileProtocol.after (.reading slug file content)
                (.read file content.length (some (size + 1))) (.ok piece) =
                  .reading slug file (content ++ piece) := if_neg (by simp [more])
            rw [next]
            exact induction (content ++ piece)

theorem handleFiles_follows (request : ManifestRequest) :
    (handleFiles request).Meets fileProtocol.logic fileEnding (.arriving request) := by
  cases request with
  | write slug json =>
      rw [handleFiles, Fallible.meets_outcome, Fallible.meets_map, writeManifestAtomic, Fallible.meets_bind, meets_call]
      refine ⟨rfl, fun result => ?_⟩
      cases result with
      | error error => trivial
      | ok answer =>
          rw [Fallible.meets_bind, meets_call]
          refine ⟨rfl, fun result => ?_⟩
          cases result with
          | error error => trivial
          | ok file =>
              refine (Fallible.meets_bind _ _).mpr ?_
              refine writeAll_follows slug file [] json ?_ fun _ _ => trivial
              rw [meets_call]
              refine ⟨rfl, fun result => ?_⟩
              cases result <;> trivial
  | read slug sizes =>
      rw [handleFiles, Fallible.meets_outcome, Fallible.meets_map, readManifest, Fallible.meets_bind, meets_call]
      refine ⟨rfl, fun result => ?_⟩
      cases result with
      | error error => trivial
      | ok file =>
          exact readToEnd_follows slug file [] sizes (fun bytes => ⟨slug, rfl⟩)
            fun _ _ => trivial

end Programs

end Loontail.Bundles
