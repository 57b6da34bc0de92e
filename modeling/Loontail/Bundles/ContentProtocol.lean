import Loontail.Bundles.Admin
import Loontail.Bundles.Rules

/-! # The course of an upload and of a rehash

A process carries what its own calls have told it: its build and entry, its temporary
file and how much it wrote there, where it put that file, and what it read where. -/

namespace Loontail.Bundles

open Concurrency Disk

inductive ContentRequest where
  | upload (slug : String) (multipart : Multipart)
  | rehash (slug : String) (entryId : Option Uuid)
  deriving DecidableEq, Repr

def ContentRequest.request : ContentRequest → Request
  | upload slug multipart => .uploadFile slug multipart
  | rehash slug entryId => .rehashFile slug entryId

def handleContent (state : State) (request : ContentRequest) :
    Process registry (Except AppError Reply) :=
  handle state request.request

structure ContentPhase where
  bundle : Option (Uuid × String)
  entry : Option BundleArtifact
  number : Option Nat
  temp : Option (List String × Nat)
  placed : Option (List String × Nat)
  read : Option (List String × Bytes)
  deriving DecidableEq, Repr

namespace ContentPhase

def unknowing : ContentPhase := ⟨none, none, none, none, none, none⟩

def Owns (phase : ContentPhase) (path : List String) : Prop :=
  ∃ slug number, phase.number = some number ∧ path = uploadPath slug number

def At (phase : ContentPhase) (bundleId : Uuid) (relativePath : String)
    (path : List String) : Prop :=
  ∃ slug, phase.bundle = some (bundleId, slug) ∧ path = joinFiles (filesPath slug) relativePath

/-- What an upload records is what it put in place and what it read there. -/
def Records (state : State) (phase : ContentPhase) (bundleId : Uuid) (entry : ScanEntry) :
    Prop :=
  ∃ path size content, phase.At bundleId entry.relativePath path ∧
    phase.placed = some (path, size) ∧ entry.size = size ∧
    phase.read = some (path, content) ∧ entry.sha256 = some (state.sha256 content)

def Rehashed (state : State) (phase : ContentPhase) (id : Uuid) (sha256 : String) : Prop :=
  ∃ entry path content, phase.entry = some entry ∧ entry.id = id ∧
    phase.At entry.bundleId entry.relativePath path ∧ phase.read = some (path, content) ∧
    sha256 = state.sha256 content

def allows (state : State) (phase : ContentPhase) : Operation → Prop
  | .statement (.findBySlug _) => phase.bundle = none
  | .statement (.findArtifact _) => True
  | .statement (.listArtifacts _) => True
  | .statement (.finishRegeneration ..) => True
  | .statement (.upsertArtifact bundleId entry) => phase.Records state bundleId entry
  | .statement (.updateSha id sha256) => phase.Rehashed state id sha256
  | .newUpload => phase.number = none
  | .disk (.createDirAll _) => True
  | .disk (.create path) => phase.Owns path
  | .disk (.append path _) => ∃ written, phase.temp = some (path, written)
  | .disk (.rename source target) => phase.placed = none ∧
      (∃ written, phase.temp = some (source, written)) ∧
      ∃ bundleId relativePath, phase.At bundleId relativePath target
  | .disk (.removeFile path) => phase.Owns path
  | .disk (.tryExists _) => True
  | .disk (.read _) => phase.read = none
  | .disk (.probe ..) => True
  | .disk (.writeManifest ..) => True
  | _ => False

def after (phase : ContentPhase) : (operation : Operation) → operation.Result → ContentPhase
  | .statement (.findBySlug _), .ok (some bundle) =>
      { phase with bundle := some (bundle.id, bundle.slug) }
  | .statement (.findArtifact _), .ok (some artifact) => { phase with entry := some artifact }
  | .newUpload, number => { phase with number := some number }
  | .disk (.create path), .ok _ => { phase with temp := some (path, 0) }
  | .disk (.append path data), .ok _ =>
      { phase with temp := phase.temp.map fun temp => (path, temp.2 + data.length) }
  | .disk (.rename _ target), .ok _ =>
      { phase with temp := none, placed := phase.temp.map fun temp => (target, temp.2) }
  | .disk (.removeFile _), .ok _ => { phase with temp := none }
  | .disk (.read path), .ok content => { phase with read := some (path, content) }
  | _, _ => phase

end ContentPhase

@[reducible] def contentProtocol (state : State) : Protocol registry ContentRequest where
  Phase := ContentPhase
  initial := fun _ => .unknowing
  allows := ContentPhase.allows state
  after := ContentPhase.after

/-! ## The processes follow the protocol -/

section Programs

variable {state : State} {phase : ContentPhase}

theorem regenerateManifest_follows (bundle : Bundle) :
    (regenerateManifest state bundle).Meets (contentProtocol state).logic (fun _ _ => True)
      (fun _ _ => True) phase := by
  rw [regenerateManifest, Fallible.meets_bind]
  refine follows_query trivial (fun _ => trivial) fun artifacts => ?_
  rw [Fallible.meets_bind]
  refine follows_io trivial (fun _ => trivial) fun present => ?_
  refine (Fallible.meets_bind _ _).mpr (follows_io trivial (fun _ => trivial) fun _ => ?_)
  exact follows_query trivial (fun _ => trivial) fun _ => trivial

theorem resolvedBundle_follows (slug : String) {onOk : Bundle → ContentPhase → Prop}
    (found : ∀ bundle : Bundle, onOk bundle
      { ContentPhase.unknowing with bundle := some (bundle.id, bundle.slug) }) :
    (resolvedBundle slug).Meets (contentProtocol state).logic onOk (fun _ _ => True)
      .unknowing := by
  rw [resolvedBundle, Fallible.meets_bind, Fallible.meets_lift]
  refine ⟨fun _ _ => trivial, fun _ _ => ?_⟩
  rw [requireBySlug, Fallible.meets_bind]
  refine follows_query rfl (fun _ => trivial) fun reply => ?_
  rw [Fallible.meets_okOr]
  refine ⟨fun _ => trivial, ?_⟩
  rintro bundle rfl
  exact found bundle

theorem artifactInBundle_follows (bundleId entryId : Uuid)
    {onOk : BundleArtifact → ContentPhase → Prop}
    (found : ∀ artifact : BundleArtifact, artifact.bundleId = bundleId →
      onOk artifact { phase with entry := some artifact }) :
    (artifactInBundle bundleId entryId).Meets (contentProtocol state).logic onOk
      (fun _ _ => True) phase := by
  rw [artifactInBundle, Fallible.meets_bind]
  refine follows_query trivial (fun _ => trivial) fun reply => ?_
  rw [Fallible.meets_okOr]
  refine ⟨fun _ => trivial, fun artifact kept => ?_⟩
  obtain ⟨rfl, same⟩ := Option.filter_eq_some_iff.mp kept
  exact found artifact (by simpa using same)

theorem hashFile_follows (path : List String) (unread : phase.read = none)
    {onOk : String → ContentPhase → Prop}
    (hashed : ∀ content, onOk (state.sha256 content)
      { phase with read := some (path, content) }) :
    (hashFile state path).Meets (contentProtocol state).logic onOk (fun _ _ => True) phase := by
  rw [hashFile, Fallible.meets_bind, meets_attempt]
  refine ⟨unread, fun result => ?_⟩
  cases result with
  | error error => trivial
  | ok content => exact hashed content

theorem rehashFile_follows (slug : String) (entryId : Option Uuid) :
    (rehashFile state slug entryId).Meets (contentProtocol state).logic (fun _ _ => True)
      (fun _ _ => True) .unknowing := by
  rw [rehashFile, resolvedEntry]
  simp only [Fallible.meets_bind, Fallible.meets_okOr, Fallible.meets_pure,
    Fallible.meets_refuse]
  refine resolvedBundle_follows slug fun bundle => ⟨fun _ => trivial, fun id _ => ?_⟩
  refine artifactInBundle_follows bundle.id id fun artifact within => ?_
  refine ⟨fun _ => trivial, fun _ => ?_⟩
  refine follows_pathExists trivial (fun _ => ⟨fun _ => trivial, fun absent => by cases absent⟩)
    fun present => ⟨fun _ => trivial, fun _ => ?_⟩
  refine hashFile_follows _ rfl fun content => ?_
  refine follows_query ?_ (fun _ => trivial) fun _ => regenerateManifest_follows bundle
  exact ⟨artifact, _, content, rfl, rfl, ⟨bundle.slug, by rw [within]; rfl, rfl⟩, rfl, rfl⟩

theorem writeChunks_follows {path : List String} (written : Nat) (chunks : List Bytes)
    {onOk : Nat → ContentPhase → Prop} {onError : AppError → ContentPhase → Prop}
    (ended : ∀ total, onOk total { phase with temp := some (path, total) })
    (failed : ∀ error total, onError error { phase with temp := some (path, total) }) :
    (writeChunks path written chunks).Meets (contentProtocol state).logic onOk onError
      { phase with temp := some (path, written) } := by
  induction chunks generalizing written with
  | nil => exact ended written
  | cons chunk rest induction =>
      rw [writeChunks]
      simp only [Fallible.meets_bind, Fallible.meets_refuse]
      refine ⟨fun _ => failed _ written, fun within => ?_⟩
      refine follows_io ⟨written, rfl⟩ (fun _ => failed _ written) fun _ => ?_
      -- a total below the limit is the sum itself
      have total : min (written + chunk.length) u64Max = written + chunk.length := by
        have bound := of_decide_eq_false within
        unfold maxUploadBytes u64Max at bound
        unfold u64Max
        omega
      rw [total]
      exact induction (written + chunk.length)

theorem streamFieldToFile_follows {path : List String} (owns : phase.Owns path) (field : Field)
    {onOk : Nat → ContentPhase → Prop} {onError : AppError → ContentPhase → Prop}
    (ended : ∀ size, onOk size { phase with temp := some (path, size) })
    (failed : ∀ error temp, onError error { phase with temp }) :
    (streamFieldToFile field path).Meets (contentProtocol state).logic onOk onError phase := by
  rw [streamFieldToFile]
  simp only [Fallible.meets_bind]
  refine follows_io owns (fun _ => failed _ phase.temp) fun _ => ?_
  refine writeChunks_follows 0 field.chunks (fun total => ?_) fun error _ => failed error _
  cases field.failure with
  | none => exact ended total
  | some failure => exact failed _ _

theorem readUploadField_follows {path : List String} (owns : phase.Owns path)
    (parts : UploadParts) (field : Field)
    {onOk : UploadParts → ContentPhase → Prop} {onError : AppError → ContentPhase → Prop}
    (gathered : ∀ size, parts.size = some size → phase.temp = some (path, size))
    (ended : ∀ parts temp, (∀ size, parts.size = some size → temp = some (path, size)) →
      onOk parts { phase with temp })
    (failed : ∀ error temp, onError error { phase with temp }) :
    (readUploadField path parts field).Meets (contentProtocol state).logic onOk onError
      phase := by
  unfold readUploadField
  split
  · rw [Fallible.meets_bind]
    refine streamFieldToFile_follows owns field (fun size => ?_) failed
    refine ended _ _ fun other same => ?_
    cases same
    rfl
  · split
    · split
      · exact ended _ phase.temp gathered
      · exact failed _ phase.temp
    · exact ended _ phase.temp gathered

theorem readUploadParts_follows {path : List String} (owns : phase.Owns path)
    (parts : UploadParts) (fields : List Field)
    {onOk : UploadParts → ContentPhase → Prop} {onError : AppError → ContentPhase → Prop}
    (gathered : ∀ size, parts.size = some size → phase.temp = some (path, size))
    (ended : ∀ parts temp, (∀ size, parts.size = some size → temp = some (path, size)) →
      onOk parts { phase with temp })
    (failed : ∀ error temp, onError error { phase with temp }) :
    (readUploadParts path parts fields).Meets (contentProtocol state).logic onOk onError
      phase := by
  induction fields generalizing parts phase with
  | nil => exact ended parts phase.temp gathered
  | cons field rest induction =>
      rw [readUploadParts, Fallible.meets_bind]
      refine readUploadField_follows owns parts field gathered (fun more temp sound => ?_) failed
      exact @induction { phase with temp } owns more sound ended failed

theorem prepareUpload_follows {path : List String} (owns : phase.Owns path)
    (filesRoot : List String) (multipart : Multipart)
    {onOk : Nat × String → ContentPhase → Prop} {onError : AppError → ContentPhase → Prop}
    (ended : ∀ size normalized,
      onOk (size, normalized) { phase with temp := some (path, size) })
    (failed : ∀ error temp, onError error { phase with temp }) :
    (prepareUpload filesRoot multipart path).Meets (contentProtocol state).logic onOk onError
      phase := by
  rw [prepareUpload, Fallible.meets_bind]
  refine readUploadParts_follows owns ⟨none, none, none⟩ multipart.fields (by simp)
    (fun parts temp sound => ?_) failed
  simp only [Fallible.meets_bind, Fallible.meets_lift, Fallible.meets_okOr, Fallible.meets_pure]
  refine ⟨fun _ _ => failed _ _, fun _ _ => ⟨fun _ => failed _ _, fun size counted => ?_⟩⟩
  refine ⟨fun _ => failed _ _, fun raw _ => ⟨fun _ _ => failed _ _, fun normalized _ => ?_⟩⟩
  refine follows_io trivial (fun _ => failed _ _) fun _ => ?_
  rw [sound size counted]
  exact ended size normalized

theorem tempUpload_follows (slug : String) (unnumbered : phase.number = none)
    {onOk : List String → ContentPhase → Prop}
    (ended : ∀ number, onOk (uploadPath slug number) { phase with number := some number }) :
    (tempUpload slug).Meets (contentProtocol state).logic onOk (fun _ _ => True) phase := by
  rw [tempUpload]
  simp only [Fallible.meets_bind, Fallible.meets_pure]
  refine follows_io trivial (fun _ => trivial) fun _ => ?_
  rw [meets_operate]
  exact ⟨unnumbered, ended⟩

theorem uploadFile_follows (slug : String) (multipart : Multipart) :
    (uploadFile state slug multipart).Meets (contentProtocol state).logic (fun _ _ => True)
      (fun _ _ => True) .unknowing := by
  rw [uploadFile, Fallible.meets_bind]
  refine resolvedBundle_follows slug fun bundle => ?_
  rw [Fallible.meets_bind, ensureBuildDir]
  refine follows_io trivial (fun _ => trivial) fun _ => ?_
  rw [Fallible.meets_bind]
  refine tempUpload_follows bundle.slug rfl fun number => ?_
  rw [Fallible.meets_bind, meets_observe]
  refine prepareUpload_follows ⟨bundle.slug, number, rfl, rfl⟩ _ multipart ?_ ?_
  · intro size normalized
    simp only [Fallible.meets_bind]
    have there : ContentPhase.At
        { ContentPhase.unknowing with
          bundle := some (bundle.id, bundle.slug)
          number := some number
          temp := some (uploadPath bundle.slug number, size) }
        bundle.id normalized (joinFiles (filesPath bundle.slug) normalized) :=
      ⟨bundle.slug, rfl, rfl⟩
    refine follows_io ⟨rfl, ⟨size, rfl⟩, bundle.id, normalized, there⟩ (fun _ => trivial)
      fun _ => ?_
    refine hashFile_follows _ rfl fun content => ?_
    refine follows_query ?_ (fun _ => trivial) fun _ => regenerateManifest_follows bundle
    exact ⟨_, size, content, ⟨bundle.slug, rfl, rfl⟩, rfl, rfl, rfl, rfl⟩
  · intro error temp
    rw [Fallible.meets_bind, dropUpload, Fallible.meets_bind, meets_attempt]
    exact ⟨⟨bundle.slug, number, rfl, rfl⟩, fun _ => trivial⟩

theorem handleContent_follows (state : State) (request : ContentRequest) :
    (handleContent state request).Meets (contentProtocol state).logic (fun _ _ => True)
      .unknowing := by
  cases request with
  | upload slug multipart =>
      refine Fallible.meets_outcome.mpr ?_
      exact (Fallible.meets_map _ _).mpr (uploadFile_follows slug multipart)
  | rehash slug entryId =>
      refine Fallible.meets_outcome.mpr ?_
      exact (Fallible.meets_map _ _).mpr (rehashFile_follows slug entryId)

end Programs

end Loontail.Bundles
