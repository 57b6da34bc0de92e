import Loontail.Bundles.FileOperations
import Loontail.Bundles.Rules

/-! # The course of a file operation

A process carries its build, the rows that its regeneration has read and which of them it
has found on disk. -/

namespace Loontail.Bundles

open Concurrency Disk

inductive FileOperation where
  | uploadArchive (slug : String) (multipart : Multipart)
  | uploadFile (slug : String) (multipart : Multipart)
  | createFolder (slug relativePath : String)
  | deleteFile (slug : String) (entryId : Option Uuid)
  | bulkDelete (slug : String) (ids : List Uuid)
  | renameFile (slug : String) (entryId : Option Uuid) (newRelativePath : String)
  | moveFile (slug : String) (entryId : Option Uuid) (targetDir : String)
  | moveFiles (slug : String) (ids : List Uuid) (targetDir : String)
  | toggleDownloadOnce (slug : String) (entryId : Option Uuid) (downloadOnce : Bool)
  | rehashFile (slug : String) (entryId : Option Uuid)
  | regenerate (slug : String)
  deriving DecidableEq, Repr

def FileOperation.request : FileOperation → Request
  | uploadArchive slug multipart => .uploadArchive slug multipart
  | uploadFile slug multipart => .uploadFile slug multipart
  | createFolder slug relativePath => .createFolder slug relativePath
  | deleteFile slug entryId => .deleteFile slug entryId
  | bulkDelete slug ids => .bulkDelete slug ids
  | renameFile slug entryId newRelativePath => .renameFile slug entryId newRelativePath
  | moveFile slug entryId targetDir => .moveFile slug entryId targetDir
  | moveFiles slug ids targetDir => .moveFiles slug ids targetDir
  | toggleDownloadOnce slug entryId downloadOnce =>
      .toggleDownloadOnce slug entryId downloadOnce
  | rehashFile slug entryId => .rehashFile slug entryId
  | regenerate slug => .regenerate slug

def handleFiling (state : State) (operation : FileOperation) :
    Process registry (Except AppError Reply) :=
  handle state operation.request

structure RegenerationPhase where
  bundle : Option (Uuid × String)
  rows : Option (List BundleArtifact)
  present : Option (List String)
  deriving DecidableEq, Repr

namespace RegenerationPhase

def beginning : RegenerationPhase := ⟨none, none, none⟩

def Builds (state : State) (phase : RegenerationPhase) (id : Uuid) (slug : String)
    (built : BuiltManifest) : Prop :=
  ∃ rows present, phase.bundle = some (id, slug) ∧ phase.rows = some rows ∧
    phase.present = some present ∧
    built = buildManifest rows slug state.publicPrefix fun artifact =>
      present.contains artifact.relativePath

def allows (state : State) (phase : RegenerationPhase) : Operation → Prop
  | .statement (.findBySlug _) => phase.bundle = none
  | .statement (.listArtifacts id) =>
      phase.rows = none ∧ phase.present = none ∧ ∃ slug, phase.bundle = some (id, slug)
  | .statement (.finishRegeneration id filesCount totalSize) => ∃ slug built,
      phase.Builds state id slug built ∧ filesCount = built.filesCount ∧
      totalSize = built.totalSize
  | .disk (.probe filesRoot relativePaths) => phase.present = none ∧
      ∃ id slug rows, phase.bundle = some (id, slug) ∧ phase.rows = some rows ∧
      filesRoot = filesPath slug ∧ relativePaths = rows.map (·.relativePath)
  | .disk (.writeManifest slug json) => ∃ id built,
      phase.Builds state id slug built ∧ json = state.toJson built.manifest
  | operation => operation.Free

def after (phase : RegenerationPhase) :
    (operation : Operation) → operation.Result → RegenerationPhase
  | .statement (.findBySlug _), .ok (some bundle) =>
      { phase with bundle := some (bundle.id, bundle.slug) }
  | .statement (.listArtifacts _), .ok rows => { phase with rows := some rows }
  | .disk (.probe ..), .ok present => { phase with present := some present }
  | _, _ => phase

end RegenerationPhase

@[reducible] def regenerationProtocol (state : State) : Protocol registry FileOperation where
  Phase := RegenerationPhase
  initial := fun _ => .beginning
  allows := RegenerationPhase.allows state
  after := RegenerationPhase.after

/-! ## The processes follow the protocol -/

section Programs

variable {state : State} {phase : RegenerationPhase}

theorem free_ignored (operation : Operation) (free : operation.Free) :
    (regenerationProtocol state).logic.Ignores phase operation := by
  have kept : RegenerationPhase.allows state phase operation ∧
      ∀ result, RegenerationPhase.after phase operation result = phase := by
    cases operation with
    | statement statement =>
        cases statement <;> first
          | exact free.elim
          | exact ⟨free, fun _ => rfl⟩
    | disk call =>
        cases call <;> first
          | exact free.elim
          | exact ⟨free, fun _ => rfl⟩
    | _ => exact ⟨free, fun _ => rfl⟩
  exact Protocol.ignores kept.1 kept.2

theorem follows_free {Value Reply : Type} {part : Handler Value} {next : Value → Handler Reply}
    {ok : Value → Prop} (leaves : Leaves part ok)
    (continued : ∀ value, ok value → (next value).Meets (regenerationProtocol state).logic
      (fun _ _ => True) (fun _ _ => True) phase) :
    (part >>= next).Meets (regenerationProtocol state).logic (fun _ _ => True) (fun _ _ => True)
      phase :=
  (Fallible.meets_bind part next).mpr
    (leaves.of_footprint free_ignored continued fun _ _ => trivial)

theorem follows_any {Value Reply : Type} {part : Handler Value} {next : Value → Handler Reply}
    (leaves : Leaves part fun _ => True)
    (continued : ∀ value, (next value).Meets (regenerationProtocol state).logic
      (fun _ _ => True) (fun _ _ => True) phase) :
    (part >>= next).Meets (regenerationProtocol state).logic (fun _ _ => True) (fun _ _ => True)
      phase := follows_free leaves fun value _ => continued value

def RegenerationPhase.of (bundle : Bundle) : RegenerationPhase :=
  ⟨some (bundle.id, bundle.slug), none, none⟩

theorem regenerateManifest_regenerates (bundle : Bundle) :
    (regenerateManifest state bundle).Meets (regenerationProtocol state).logic
      (fun _ _ => True) (fun _ _ => True) (.of bundle) := by
  rw [regenerateManifest, Fallible.meets_bind]
  refine follows_query ⟨rfl, rfl, bundle.slug, rfl⟩ (fun _ => trivial) fun artifacts => ?_
  rw [Fallible.meets_bind]
  refine follows_io ⟨rfl, bundle.id, bundle.slug, artifacts, rfl, rfl, rfl, rfl⟩ (fun _ => trivial)
    fun present => ?_
  refine (Fallible.meets_bind _ _).mpr (follows_io ?_ (fun _ => trivial) fun _ => ?_)
  · exact ⟨bundle.id, _, ⟨artifacts, present, rfl, rfl, rfl, rfl⟩, rfl⟩
  · refine follows_query ?_ (fun _ => trivial) fun _ => trivial
    exact ⟨bundle.slug, _, ⟨artifacts, present, rfl, rfl, rfl, rfl⟩, rfl, rfl⟩

theorem resolvedBundle_regenerates {Reply : Type} (slug : String) {next : Bundle → Handler Reply}
    (continued : ∀ bundle : Bundle, (next bundle).Meets (regenerationProtocol state).logic
      (fun _ _ => True) (fun _ _ => True) (.of bundle)) :
    (resolvedBundle slug >>= next).Meets (regenerationProtocol state).logic (fun _ _ => True)
      (fun _ _ => True) .beginning := by
  rw [resolvedBundle, Fallible.meets_bind, Fallible.meets_bind, Fallible.meets_lift]
  refine ⟨fun _ _ => trivial, fun _ _ => ?_⟩
  rw [requireBySlug, Fallible.meets_bind]
  refine follows_query rfl (fun _ => trivial) fun reply => ?_
  rw [Fallible.meets_okOr]
  refine ⟨fun _ => trivial, ?_⟩
  rintro bundle rfl
  exact continued bundle

theorem free_regenerates {Reply : Type} {part : Handler Reply}
    (leaves : Leaves part fun _ => True) :
    part.Meets (regenerationProtocol state).logic (fun _ _ => True) (fun _ _ => True) phase :=
  leaves.of_footprint free_ignored (fun _ _ => trivial) fun _ _ => trivial

theorem resolvedEntry_regenerates {Reply : Type} (slug : String) (entryId : Option Uuid)
    {next : Bundle × BundleArtifact → Handler Reply}
    (continued : ∀ bundle entry, (next (bundle, entry)).Meets (regenerationProtocol state).logic
      (fun _ _ => True) (fun _ _ => True) (.of bundle)) :
    (resolvedEntry slug entryId >>= next).Meets (regenerationProtocol state).logic
      (fun _ _ => True) (fun _ _ => True) .beginning := by
  rw [resolvedEntry, bind_assoc]
  refine resolvedBundle_regenerates slug fun bundle => ?_
  rw [bind_assoc]
  refine follows_any (leaves_okOr fun _ _ => trivial) fun id => ?_
  rw [bind_assoc]
  exact follows_any (artifactInBundle_leaves id) fun entry => continued bundle entry

theorem failing_regenerates {work : Handler Bundle}
    (follows : work.Meets (regenerationProtocol state).logic (fun _ _ => True)
      (fun _ _ => True) phase) (bundleId : Uuid) :
    (failing state bundleId work).Meets (regenerationProtocol state).logic (fun _ _ => True)
      (fun _ _ => True) phase := by
  rw [failing, Fallible.meets_bind, meets_observe]
  refine follows.mono (fun _ _ _ => trivial) fun error _ _ => ?_
  exact free_regenerates (leaves_bind (leaves_query trivial fun _ => trivial))

theorem ingestArchive_regenerates (bundle : Bundle) {path : List String} (clear : Clear path) :
    (ingestArchive state bundle path).Meets (regenerationProtocol state).logic
      (fun _ _ => True) (fun _ _ => True) (.of bundle) := by
  have files := clear_files bundle.slug
  unfold ingestArchive
  refine follows_any (clearFiles_leaves files) fun _ => ?_
  refine follows_any (leaves_io trivial fun _ => trivial) fun _ => ?_
  refine follows_any (extractZip_leaves files path) fun _ => ?_
  refine follows_any (leaves_attempt clear fun _ => trivial) fun _ => ?_
  refine follows_any scanDirectory_leaves fun scan => ?_
  refine follows_any (upsertScan_leaves scan) fun _ => ?_
  exact regenerateManifest_regenerates bundle

theorem uploadArchive_regenerates (slug : String) (multipart : Multipart) :
    (uploadArchive state slug multipart).Meets (regenerationProtocol state).logic
      (fun _ _ => True) (fun _ _ => True) .beginning := by
  unfold uploadArchive
  refine resolvedBundle_regenerates slug fun bundle => ?_
  refine follows_any (ensureBuildDir_leaves _ _) fun _ => ?_
  refine follows_free (tempUpload_leaves bundle.slug) fun path clear => ?_
  rw [Fallible.meets_bind, meets_observe]
  -- whichever way the archive is received, its temporary file is dropped
  have dropped : ∀ (result : Except AppError Bundle) (phase : RegenerationPhase),
      (do
        dropUpload path
        Fallible.lift result : Handler Bundle).Meets (regenerationProtocol state).logic
          (fun _ _ => True) (fun _ _ => True) phase := fun result phase =>
    free_regenerates (leaves_then (dropUpload_leaves clear) fun _ _ =>
      leaves_lift fun _ _ => trivial)
  have received : (receiveArchive state bundle multipart path).Meets
      (regenerationProtocol state).logic (fun _ _ => True) (fun _ _ => True) (.of bundle) := by
    unfold receiveArchive
    refine follows_any (streamArchive_leaves clear _) fun have_ => ?_
    split
    · refine follows_any (leaves_query trivial fun _ => trivial) fun _ => ?_
      exact failing_regenerates (ingestArchive_regenerates bundle clear) bundle.id
    · exact follows_any (leaves_lift fun _ _ => trivial) fun _ => trivial
  exact received.mono (fun _ phase _ => dropped _ phase) fun _ phase _ => dropped _ phase

theorem uploadFile_regenerates (slug : String) (multipart : Multipart) :
    (uploadFile state slug multipart).Meets (regenerationProtocol state).logic (fun _ _ => True)
      (fun _ _ => True) .beginning := by
  unfold uploadFile
  refine resolvedBundle_regenerates slug fun bundle => ?_
  refine follows_any (ensureBuildDir_leaves _ _) fun _ => ?_
  refine follows_free (tempUpload_leaves bundle.slug) fun path clear => ?_
  refine follows_any (leaves_observe (prepareUpload_leaves clear multipart)) fun result => ?_
  cases result with
  | error error => exact follows_any (dropUpload_leaves clear) fun _ => trivial
  | ok prepared =>
      have target := clear_joinFiles (clear_files bundle.slug) prepared.2
      refine follows_any (leaves_io ⟨clear, target⟩ fun _ => trivial) fun _ => ?_
      refine follows_any (hashFile_leaves _) fun sha256 => ?_
      refine follows_any (leaves_query trivial fun _ => trivial) fun _ => ?_
      exact regenerateManifest_regenerates bundle

theorem createFolder_regenerates (slug relativePath : String) :
    (createFolder state slug relativePath).Meets (regenerationProtocol state).logic
      (fun _ _ => True) (fun _ _ => True) .beginning := by
  unfold createFolder
  refine resolvedBundle_regenerates slug fun bundle => ?_
  refine follows_any (leaves_lift fun _ _ => trivial) fun normalized => ?_
  refine follows_any (ensureBuildDir_leaves _ _) fun _ => ?_
  refine follows_any (leaves_attempt trivial fun _ => trivial) fun taken => ?_
  refine follows_any (leaves_refuse trivial) fun _ => ?_
  refine follows_any (leaves_io trivial fun _ => trivial) fun _ => ?_
  refine follows_any (upsertFolders_leaves _) fun _ => ?_
  exact regenerateManifest_regenerates bundle

theorem deleteFile_regenerates (slug : String) (entryId : Option Uuid) :
    (deleteFile state slug entryId).Meets (regenerationProtocol state).logic (fun _ _ => True)
      (fun _ _ => True) .beginning := by
  unfold deleteFile
  refine resolvedEntry_regenerates slug entryId fun bundle entry => ?_
  refine follows_any (leaves_begin trivial) fun _ => ?_
  refine follows_free (@insideAll_leaves _ _ FilingLog ?_) fun log filing => ?_
  · exact fun statement => deleteEntryRows_filing entry
  refine follows_any (@leaves_commit log (fun _ => True) filing trivial) fun _ => ?_
  refine follows_any (unlinkEntry_leaves (clear_files bundle.slug) entry) fun _ => ?_
  rw [Fallible.meets_bind]
  exact (regenerateManifest_regenerates bundle).mono (fun _ _ _ => trivial) fun _ _ _ => trivial

theorem bulkDelete_regenerates (slug : String) (ids : List Uuid) :
    (bulkDelete state slug ids).Meets (regenerationProtocol state).logic (fun _ _ => True)
      (fun _ _ => True) .beginning := by
  unfold bulkDelete
  refine resolvedBundle_regenerates slug fun bundle => ?_
  refine follows_any (leaves_refuse trivial) fun _ => ?_
  refine follows_any (resolveDeletions_leaves ids) fun entries => ?_
  refine follows_any (leaves_begin trivial) fun _ => ?_
  refine follows_free (@insideAll_leaves _ _ FilingLog ?_) fun log filing => ?_
  · intro statement member
    obtain ⟨entry, -, within⟩ := List.mem_flatMap.mp member
    exact deleteEntryRows_filing entry within
  refine follows_any (@leaves_commit log (fun _ => True) filing trivial) fun _ => ?_
  refine follows_any (unlinkEntries_leaves (clear_files bundle.slug) entries) fun _ => ?_
  rw [Fallible.meets_bind]
  exact (regenerateManifest_regenerates bundle).mono (fun _ _ _ => trivial) fun _ _ _ => trivial

theorem renameFile_regenerates (slug : String) (entryId : Option Uuid) (newRelativePath : String) :
    (renameFile state slug entryId newRelativePath).Meets (regenerationProtocol state).logic
      (fun _ _ => True) (fun _ _ => True) .beginning := by
  unfold renameFile
  refine resolvedEntry_regenerates slug entryId fun bundle entry => ?_
  dsimp only
  generalize normalizeRelativePath (Text.trim newRelativePath) "newRelativePath" = normal
  refine follows_any (leaves_lift fun _ _ => trivial) fun normalized => ?_
  refine follows_any (applyMove_leaves bundle entry normalized) fun _ => ?_
  exact regenerateManifest_regenerates bundle

theorem moveFile_regenerates (slug : String) (entryId : Option Uuid) (targetDir : String) :
    (moveFile state slug entryId targetDir).Meets (regenerationProtocol state).logic
      (fun _ _ => True) (fun _ _ => True) .beginning := by
  unfold moveFile
  refine resolvedEntry_regenerates slug entryId fun bundle entry => ?_
  dsimp only
  -- whatever the name is joined to
  generalize joinTargetDir targetDir entry.name = joined
  refine follows_any (leaves_lift fun _ _ => trivial) fun newRel => ?_
  refine follows_any (applyMove_leaves bundle entry newRel) fun _ => ?_
  exact regenerateManifest_regenerates bundle

theorem moveFiles_regenerates (slug : String) (ids : List Uuid) (targetDir : String) :
    (moveFiles state slug ids targetDir).Meets (regenerationProtocol state).logic
      (fun _ _ => True) (fun _ _ => True) .beginning := by
  unfold moveFiles
  refine resolvedBundle_regenerates slug fun bundle => ?_
  refine follows_any (leaves_refuse trivial) fun _ => ?_
  refine follows_any (resolveMoves_leaves targetDir ids) fun moves => ?_
  refine follows_any (leaves_begin trivial) fun _ => ?_
  refine follows_any (moveBatch_leaves (clear_files bundle.slug) moves) fun _ => ?_
  exact regenerateManifest_regenerates bundle

theorem toggleDownloadOnce_regenerates (slug : String) (entryId : Option Uuid)
    (downloadOnce : Bool) :
    (toggleDownloadOnce state slug entryId downloadOnce).Meets
      (regenerationProtocol state).logic (fun _ _ => True) (fun _ _ => True) .beginning := by
  unfold toggleDownloadOnce
  refine resolvedEntry_regenerates slug entryId fun bundle entry => ?_
  refine follows_any (leaves_query trivial fun _ => trivial) fun _ => ?_
  exact regenerateManifest_regenerates bundle

theorem rehashFile_regenerates (slug : String) (entryId : Option Uuid) :
    (rehashFile state slug entryId).Meets (regenerationProtocol state).logic (fun _ _ => True)
      (fun _ _ => True) .beginning := by
  unfold rehashFile
  refine resolvedEntry_regenerates slug entryId fun bundle entry => ?_
  refine follows_any (leaves_refuse trivial) fun _ => ?_
  refine follows_any (leaves_pathExists fun _ => trivial) fun present => ?_
  refine follows_any (leaves_refuse trivial) fun _ => ?_
  refine follows_any (hashFile_leaves _) fun sha256 => ?_
  refine follows_any (leaves_query trivial fun _ => trivial) fun _ => ?_
  exact regenerateManifest_regenerates bundle

theorem regenerateNow_regenerates (slug : String) :
    (regenerateNow state slug).Meets (regenerationProtocol state).logic (fun _ _ => True)
      (fun _ _ => True) .beginning := by
  unfold regenerateNow
  refine resolvedBundle_regenerates slug fun bundle => ?_
  refine follows_any (leaves_query trivial fun _ => trivial) fun _ => ?_
  exact failing_regenerates (regenerateManifest_regenerates bundle) bundle.id

theorem handleFiling_follows (state : State) (operation : FileOperation) :
    (handleFiling state operation).Meets (regenerationProtocol state).logic (fun _ _ => True)
      .beginning := by
  refine Fallible.meets_outcome.mpr ?_
  cases operation with
  | uploadArchive slug multipart =>
      exact (Fallible.meets_map _ _).mpr (uploadArchive_regenerates slug multipart)
  | uploadFile slug multipart =>
      exact (Fallible.meets_map _ _).mpr (uploadFile_regenerates slug multipart)
  | createFolder slug relativePath =>
      exact (Fallible.meets_map _ _).mpr (createFolder_regenerates slug relativePath)
  | deleteFile slug entryId =>
      exact (Fallible.meets_map _ _).mpr (deleteFile_regenerates slug entryId)
  | bulkDelete slug ids => exact (Fallible.meets_map _ _).mpr (bulkDelete_regenerates slug ids)
  | renameFile slug entryId newRelativePath =>
      exact (Fallible.meets_map _ _).mpr (renameFile_regenerates slug entryId newRelativePath)
  | moveFile slug entryId targetDir =>
      exact (Fallible.meets_map _ _).mpr (moveFile_regenerates slug entryId targetDir)
  | moveFiles slug ids targetDir =>
      exact (Fallible.meets_map _ _).mpr (moveFiles_regenerates slug ids targetDir)
  | toggleDownloadOnce slug entryId downloadOnce =>
      exact (Fallible.meets_map _ _).mpr
        (toggleDownloadOnce_regenerates slug entryId downloadOnce)
  | rehashFile slug entryId =>
      exact (Fallible.meets_map _ _).mpr (rehashFile_regenerates slug entryId)
  | regenerate slug => exact (Fallible.meets_map _ _).mpr (regenerateNow_regenerates slug)

end Programs

def learned (state : State) (process : Nat) (history : List (Event registry)) :
    RegenerationPhase :=
  (regenerationProtocol state).phase (.regenerate "") process history

theorem phase_eq_learned (state : State) (operation : FileOperation) (process : Nat)
    (history : List (Event registry)) :
    (regenerationProtocol state).phase operation process history =
      learned state process history := rfl

theorem learned_own (state : State) (event : Event registry) (older : List (Event registry)) :
    learned state event.process (event :: older) =
      (learned state event.process older).after event.operation event.result :=
  Protocol.phase_cons_own _ event older

theorem learned_other {state : State} {event : Event registry} {process : Nat}
    (other : event.process ≠ process) (older : List (Event registry)) :
    learned state process (event :: older) = learned state process older :=
  Protocol.phase_cons_other _ event other older

end Loontail.Bundles
