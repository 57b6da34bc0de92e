import Loontail.Concurrency.Custody
import Loontail.Concurrency.Protocol
import Loontail.Concurrency.Publication
import Loontail.Textures.Service

/-! # The course of a request for textures

An upload holds its file until its row is stored, and then owes the file of the row that it
knows of. A purge deletes no row but those whose files it has tested. A read opens the file of
the row that it has found. -/

namespace Loontail.Textures

open Concurrency Disk Relational
open Bundles (DiskCall Multipart)

abbrev TextureKey := Uuid × TextureKind

inductive TexturePhase where
  | fresh (target : Option (TextureKey × List String))
  | under (duty : Duty TextureKey (List String))
  | surveying
  | testing (kind : TextureKind) (listed missing : List Texture)

namespace TexturePhase

def duty : TexturePhase → Duty TextureKey (List String)
  | under duty => duty
  | _ => .free

def allows : TexturePhase → TextureOperation → Prop
  | fresh _, .disk (.createDirAll _) => True
  | fresh target, .disk (.create path) => ∃ key, target = some (key, path)
  | under (.holds _ _), .disk (.append _ _) => True
  | under (.holds key _), .statement (.filePath userId kind) => (userId, kind) = key
  | under (.informed key path _), .statement (.upsert row) => row.key = key ∧ row.filePath = path
  | under (.owes path), .disk (.removeFile other) => other = path
  | under .free, .statement (.deleteByUser ..) => True
  | surveying, .statement (.adminFetchAll ..) => True
  | testing .., .statement (.adminFetchAll ..) => True
  | testing .., .disk (.tryExists _) => True
  | testing kind _ missing, .statement (.deleteByUser other userId) =>
      other = kind ∧ ∃ row ∈ missing, row.userId = userId
  | _, _ => False

def tested (listed missing : List Texture) (path : List String) :
    Except IoError Bool → List Texture
  | .ok true => missing
  | _ => missing ++ listed.filter fun row => row.filePath = path

def after (phase : TexturePhase) (operation : TextureOperation) (result : operation.Result) :
    TexturePhase :=
  match phase, operation, result with
  | fresh (some (key, path)), .disk (.create _), .ok _ => under (.holds key path)
  | under (.holds key path), .statement (.filePath ..), .ok old => under (.informed key path old)
  | under (.informed _ path old), .statement (.upsert _), .ok _ =>
      under (if old = some path then .free else .owing old)
  | under (.owes _), .disk (.removeFile _), _ => under .free
  | under .free, .statement (.deleteByUser ..), .ok path => under (.owing path)
  | surveying, .statement (.adminFetchAll kind _), .ok rows => testing kind rows []
  | testing .., .statement (.adminFetchAll kind _), .ok rows => testing kind rows []
  | testing kind listed missing, .disk (.tryExists path), result =>
      testing kind listed (tested listed missing path result)
  | phase, _, _ => phase

end TexturePhase

def uploadTarget (storageRoot : List String) (segment : String) (user : AuthUser)
    (revision : Revision) : Option (TextureKey × List String) := do
  let kind ← TextureKind.parse segment
  let profileUuid ← user.profileUuid
  some ((user.id, kind), diskPath storageRoot kind profileUuid revision)

def TextureRequest.phase (storageRoot : List String) : TextureRequest → TexturePhase
  | upload segment user _ revision _ => .fresh (uploadTarget storageRoot segment user revision)
  | delete .. => .under .free
  | adminDelete .. => .under .free
  | orphans .. => .surveying
  | purgeMissing .. => .surveying

@[reducible] def textureProtocol (storageRoot : List String) :
    Protocol textureStore TextureRequest where
  Phase := TexturePhase
  initial := TextureRequest.phase storageRoot
  allows := TexturePhase.allows
  after := TexturePhase.after

/-- A request that succeeds has nothing left in hand. -/
def Discharged (outcome : Except AppError TextureReply) (phase : TexturePhase) : Prop :=
  ∀ reply, outcome = .ok reply → phase.duty = .free

/-! ## The handlers follow it -/

section Programs

variable {storageRoot : List String} {key : TextureKey} {path : List String}

theorem writeFile_follows (bytes : Bytes) :
    (writeFile path bytes).Meets (textureProtocol storageRoot).logic
      (fun _ following => following = .under (.holds key path)) (fun _ _ => True)
      (.fresh (some (key, path))) := by
  unfold writeFile
  simp only [Fallible.meets_bind, meets_ioTexture]
  refine ⟨trivial, fun result => ?_⟩
  cases result with
  | error error => trivial
  | ok made =>
      refine ⟨⟨key, rfl⟩, fun result => ?_⟩
      cases result with
      | error error => trivial
      | ok created =>
          refine ⟨trivial, fun result => ?_⟩
          cases result with
          | error error => trivial
          | ok written => exact rfl

theorem unlinkReplaced_follows (old : Option (List String)) :
    (unlinkReplaced path old).Meets (textureProtocol storageRoot).logic
      (fun _ following => following = .under .free) (fun _ _ => True)
      (.under (if old = some path then .free else .owing old)) := by
  unfold unlinkReplaced
  cases old with
  | none => exact rfl
  | some other =>
      dsimp only
      by_cases same : other = path
      · rw [if_pos (congrArg some same), if_neg (not_not.mpr same)]
        exact rfl
      · rw [if_neg fun here => same (Option.some.inj here), if_pos same]
        exact ⟨rfl, fun _ => rfl⟩

theorem storeTexture_follows (row : Texture) (file : Bytes) :
    (storeTexture row file).Meets (textureProtocol storageRoot).logic
      (fun _ following => following = .under .free) (fun _ _ => True)
      (.fresh (some (row.key, row.filePath))) := by
  unfold storeTexture
  simp only [Fallible.meets_bind, meets_ask]
  refine (writeFile_follows file).mono ?_ fun _ _ _ => trivial
  rintro _ following rfl
  refine ⟨rfl, fun result => ?_⟩
  cases result with
  | error error => trivial
  | ok old =>
      refine ⟨⟨rfl, rfl⟩, fun result => ?_⟩
      cases result with
      | error error => trivial
      | ok stored => exact unlinkReplaced_follows old

theorem unlinkDeleted_follows (removed : Option (List String)) :
    (unlinkDeleted removed).Meets (textureProtocol storageRoot).logic
      (fun _ following => following = .under .free) (fun _ _ => True)
      (.under (.owing removed)) := by
  cases removed with
  | none => exact rfl
  | some path => exact ⟨rfl, fun _ => rfl⟩

variable {kind : TextureKind} {listed missing : List Texture}

theorem missingOf_follows {rows : List Texture} (within : rows ⊆ listed) :
    (missingOf rows).Meets (textureProtocol storageRoot).logic
      (fun orphans following => ∃ more, following = .testing kind listed more ∧
        missing ⊆ more ∧ orphans ⊆ more)
      (fun _ _ => True) (.testing kind listed missing) := by
  induction rows generalizing missing with
  | nil => exact ⟨missing, rfl, List.Subset.refl _, List.nil_subset _⟩
  | cons row rest induction =>
      rw [List.cons_subset] at within
      unfold missingOf
      simp only [Fallible.meets_bind, meets_onDisk]
      refine ⟨trivial, fun result => ?_⟩
      refine (induction within.2).mono ?_ fun _ _ _ => trivial
      rintro orphans following ⟨more, rfl, known, found⟩
      have noted (lost : TexturePhase.tested listed missing row.filePath result =
          missing ++ listed.filter fun other => other.filePath = row.filePath) :
          missing ⊆ more ∧ row :: orphans ⊆ more := by
        rw [lost, List.append_subset] at known
        refine ⟨known.1, List.cons_subset.mpr ⟨known.2 ?_, found⟩⟩
        exact List.mem_filter.mpr ⟨within.1, decide_eq_true rfl⟩
      cases result with
      | error error => exact ⟨more, rfl, noted rfl⟩
      | ok present =>
          cases present with
          | false => exact ⟨more, rfl, noted rfl⟩
          | true => exact ⟨more, rfl, known, found⟩

def Surveys : TexturePhase → Prop
  | .surveying => True
  | .testing .. => True
  | _ => False

theorem collectOrphans_follows (arrangement : Arrangement Texture.recency) {phase : TexturePhase}
    (surveys : Surveys phase) :
    (collectOrphans kind arrangement).Meets (textureProtocol storageRoot).logic
      (fun orphans following => ∃ listed missing, following = .testing kind listed missing ∧
        orphans ⊆ missing)
      (fun _ _ => True) phase := by
  unfold collectOrphans
  simp only [Fallible.meets_bind, meets_ask]
  cases phase with
  | fresh => exact surveys.elim
  | under => exact surveys.elim
  | surveying =>
      refine ⟨trivial, fun result => ?_⟩
      cases result with
      | error error => trivial
      | ok rows =>
          refine (missingOf_follows (List.Subset.refl rows)).mono ?_ fun _ _ _ => trivial
          rintro orphans following ⟨more, rfl, -, found⟩
          exact ⟨rows, more, rfl, found⟩
  | testing =>
      refine ⟨trivial, fun result => ?_⟩
      cases result with
      | error error => trivial
      | ok rows =>
          refine (missingOf_follows (List.Subset.refl rows)).mono ?_ fun _ _ _ => trivial
          rintro orphans following ⟨more, rfl, -, found⟩
          exact ⟨rows, more, rfl, found⟩

theorem purgeRows_follows {rows : List Texture} (found : rows ⊆ missing) :
    (purgeRows kind rows).Meets (textureProtocol storageRoot).logic
      (fun _ following => following = .testing kind listed missing) (fun _ _ => True)
      (.testing kind listed missing) := by
  induction rows with
  | nil => exact rfl
  | cons row rest induction =>
      rw [List.cons_subset] at found
      unfold purgeRows
      simp only [Fallible.meets_bind, meets_ask]
      refine ⟨⟨rfl, row, found.1, rfl⟩, fun result => ?_⟩
      cases result with
      | error error => trivial
      | ok removed => exact induction found.2

theorem purgeKind_follows (arrangement : Arrangement Texture.recency) {phase : TexturePhase}
    (surveys : Surveys phase) :
    (purgeKind kind arrangement).Meets (textureProtocol storageRoot).logic
      (fun _ following => Surveys following ∧ following.duty = .free) (fun _ _ => True) phase := by
  unfold purgeKind
  rw [Fallible.meets_bind]
  refine (collectOrphans_follows arrangement surveys).mono ?_ fun _ _ _ => trivial
  rintro orphans following ⟨listed, missing, rfl, found⟩
  refine (purgeRows_follows found).mono ?_ fun _ _ _ => trivial
  rintro purged following rfl
  exact ⟨trivial, rfl⟩

theorem handleTexture_follows (request : TextureRequest) :
    (handleTexture storageRoot request).Meets (textureProtocol storageRoot).logic Discharged
      (request.phase storageRoot) := by
  have discharged : ∀ phase : TexturePhase, phase = .under .free → phase.duty = .free := by
    rintro phase rfl
    rfl
  refine Fallible.meets_outcome.mpr ?_
  have goal : (request.handler storageRoot).Meets (textureProtocol storageRoot).logic
      (fun _ following => following.duty = .free) (fun _ _ => True)
      (request.phase storageRoot) := by
    cases request with
    | upload segment user multipart revision now =>
        unfold TextureRequest.handler upload
        simp only [Fallible.meets_bind, Fallible.meets_okOr, Fallible.meets_lift]
        refine ⟨fun _ => trivial, fun kind parsed => ⟨fun _ _ => trivial, fun read _ => ?_⟩⟩
        refine ⟨fun _ => trivial, fun profileUuid known => ?_⟩
        have target : TextureRequest.phase storageRoot (.upload segment user multipart revision now) =
            .fresh (some ((user.id, kind), diskPath storageRoot kind profileUuid revision)) := by
          rw [TextureRequest.phase, uploadTarget, parsed, known]
          rfl
        rw [target]
        refine (storeTexture_follows _ read.1).mono ?_ fun _ _ _ => trivial
        rintro _ following rfl
        exact rfl
    | delete segment user =>
        unfold TextureRequest.handler delete
        simp only [Fallible.meets_bind, Fallible.meets_okOr, meets_ask]
        refine ⟨fun _ => trivial, fun kind parsed => ⟨trivial, fun result => ?_⟩⟩
        cases result with
        | error error => trivial
        | ok removed =>
            exact (unlinkDeleted_follows removed).mono (fun _ following => discharged following)
              fun _ _ _ => trivial
    | adminDelete kind userId =>
        unfold TextureRequest.handler adminDelete
        simp only [Fallible.meets_bind, Fallible.meets_okOr, meets_ask]
        refine ⟨fun _ => trivial, fun id parsed => ⟨trivial, fun result => ?_⟩⟩
        cases result with
        | error error => trivial
        | ok removed =>
            exact (unlinkDeleted_follows removed).mono (fun _ following => discharged following)
              fun _ _ _ => trivial
    | orphans skins capes =>
        unfold TextureRequest.handler
        simp only [Fallible.meets_bind]
        have surveys : Surveys .surveying := trivial
        refine (collectOrphans_follows skins surveys).mono ?_ fun _ _ _ => trivial
        rintro first following ⟨listed, missing, rfl, -⟩
        have surveys : Surveys (.testing .skin listed missing) := trivial
        refine (collectOrphans_follows capes surveys).mono ?_ fun _ _ _ => trivial
        rintro second following ⟨listed, missing, rfl, -⟩
        exact rfl
    | purgeMissing skins capes =>
        unfold TextureRequest.handler
        simp only [Fallible.meets_bind]
        have surveys : Surveys .surveying := trivial
        refine (purgeKind_follows skins surveys).mono ?_ fun _ _ _ => trivial
        rintro first following ⟨surveys, -⟩
        refine (purgeKind_follows capes surveys).mono ?_ fun _ _ _ => trivial
        rintro second following ⟨-, free⟩
        exact free
  exact goal.mono (fun reply following free other same => free) fun error following _ reply none => by
    cases none

end Programs

/-! ## Uploads and reads together -/

inductive TextureTraffic where
  | write (request : TextureRequest)
  | readPng (uuid segment : String) (owner : String → Except DatabaseError (Option Uuid))

inductive TrafficReply where
  | settled (reply : TextureReply)
  | png (bytes : Bytes)
  deriving DecidableEq, Repr

def TextureTraffic.handler (storageRoot : List String) : TextureTraffic → TextureHandler TrafficReply
  | write request => do
      let reply ← request.handler storageRoot
      pure (.settled reply)
  | readPng uuid segment owner => do
      let bytes ← Textures.readPng uuid segment owner
      pure (.png bytes)

def handleTraffic (storageRoot : List String) (request : TextureTraffic) :
    Process textureStore (Except AppError TrafficReply) :=
  (request.handler storageRoot).run

abbrev TrafficPool := Pool textureStore TextureTraffic (Except AppError TrafficReply)

def uploadedTexture (storageRoot : List String) :
    TextureRequest → Option (Texture × Bytes)
  | .upload segment user multipart revision now => do
      let kind ← TextureKind.parse segment
      let (file, variant) ← (readUpload kind multipart).toOption
      let profileUuid ← user.profileUuid
      some
        ({ userId := user.id
           kind := kind
           profileUuid := profileUuid
           username := user.username
           filePath := diskPath storageRoot kind profileUuid revision
           fileUrl := relativeTextureUrl profileUuid kind.asStr
           fileSize := Catalog.asI32 file.length
           variant := variant
           updatedAt := now }, file)
  | _ => none

def TextureTraffic.uploads (storageRoot : List String) :
    TextureTraffic → Option (Texture × Bytes)
  | write request => uploadedTexture storageRoot request
  | readPng .. => none

def TextureTraffic.reads : TextureTraffic → Option TextureKey
  | write _ => none
  | readPng uuid segment owner => do
      let kind ← TextureKind.parse segment
      let profileUuid ← (Text.undashUuid uuid).toOption
      let known ← (owner profileUuid).toOption
      let userId ← known
      some (userId, kind)

inductive ContentPhase where
  | publishing (stage : Concurrency.Stage Texture Bytes)
  | asking (key : TextureKey)
  | aware (key : TextureKey) (path : List String)
  | served (key : TextureKey) (content : Bytes)

namespace ContentPhase

def stage : ContentPhase → Concurrency.Stage Texture Bytes
  | publishing stage => stage
  | _ => .idle

def key : ContentPhase → Option TextureKey
  | publishing _ => none
  | asking key => some key
  | aware key _ => some key
  | served key _ => some key

def allows : ContentPhase → TextureOperation → Prop
  | publishing _, .disk (.createDirAll _) => True
  | publishing _, .disk (.tryExists _) => True
  | publishing _, .disk (.removeFile _) => True
  | publishing _, .statement (.filePath ..) => True
  | publishing _, .statement (.deleteByUser ..) => True
  | publishing _, .statement (.adminFetchAll ..) => True
  | publishing (.working row _ none), .disk (.create path) => path = row.filePath
  | publishing (.working row file (some [])), .disk (.append path data) =>
      path = row.filePath ∧ data = file
  | publishing (.working row file (some held)), .statement (.upsert stored) =>
      stored = row ∧ held = file
  | asking key, .statement (.filePath userId kind) => (userId, kind) = key
  | aware _ path, .disk (.read read) => read = path
  | _, _ => False

def after (phase : ContentPhase) (operation : TextureOperation) (result : operation.Result) :
    ContentPhase :=
  match phase, operation, result with
  | publishing (.working row file none), .disk (.create _), .ok _ =>
      publishing (.working row file (some []))
  | publishing (.working row file (some _)), .disk (.append _ data), .ok _ =>
      publishing (.working row file (some data))
  | publishing (.working _ _ (some _)), .statement (.upsert _), .ok _ => publishing .idle
  | asking key, .statement (.filePath ..), .ok (some path) => aware key path
  | aware key _, .disk (.read _), .ok content => served key content
  | phase, _, _ => phase

@[simp] theorem key_after (phase : ContentPhase) (operation : TextureOperation)
    (result : operation.Result) : (phase.after operation result).key = phase.key := by
  unfold after
  split <;> rfl

end ContentPhase

def TextureTraffic.phase (storageRoot : List String) (request : TextureTraffic) : ContentPhase :=
  match request.reads, request.uploads storageRoot with
  | some key, _ => .asking key
  | none, some (row, file) => .publishing (.working row file none)
  | none, none => .publishing .idle

@[reducible] def contentProtocol (storageRoot : List String) :
    Protocol textureStore TextureTraffic where
  Phase := ContentPhase
  initial := TextureTraffic.phase storageRoot
  allows := ContentPhase.allows
  after := ContentPhase.after

def Answered (outcome : Except AppError TrafficReply) (phase : ContentPhase) : Prop :=
  ∀ bytes, outcome = .ok (.png bytes) → ∃ key, phase = .served key bytes

/-! ## The handlers follow the protocol -/

section Programs

variable {storageRoot : List String} {row : Texture} {file : Bytes}

def TextureOperation.Aside : TextureOperation → Prop
  | .disk (.tryExists _) => True
  | .disk (.removeFile _) => True
  | .statement (.deleteByUser ..) => True
  | .statement (.adminFetchAll ..) => True
  | _ => False

theorem ignores_aside {operation : TextureOperation} (aside : operation.Aside)
    (stage : Concurrency.Stage Texture Bytes) :
    (contentProtocol storageRoot).logic.Ignores (.publishing stage) operation := by
  apply Protocol.ignores
  · cases operation with
    | statement asked => cases asked <;> first | exact aside | trivial
    | disk call => cases call <;> first | exact aside.elim | trivial
  · intro result
    change ContentPhase.after (.publishing stage) operation result = _
    unfold ContentPhase.after
    split <;> first | rfl | exact aside.elim

theorem writeFile_writes (bytes : Bytes) :
    (writeFile row.filePath bytes).Meets (contentProtocol storageRoot).logic
      (fun _ following => following = .publishing (.working row bytes (some bytes)))
      (fun _ _ => True) (.publishing (.working row bytes none)) := by
  unfold writeFile
  simp only [Fallible.meets_bind, meets_ioTexture]
  refine ⟨trivial, fun result => ?_⟩
  cases result with
  | error error => trivial
  | ok made =>
      refine ⟨rfl, fun result => ?_⟩
      cases result with
      | error error => trivial
      | ok created =>
          refine ⟨⟨rfl, rfl⟩, fun result => ?_⟩
          cases result with
          | error error => trivial
          | ok written => exact rfl

theorem unlinkReplaced_aside (path : List String) (old : Option (List String)) :
    (unlinkReplaced path old).Meets (.footprint TextureOperation.Aside) (fun _ _ => True)
      (fun _ _ => True) () := by
  unfold unlinkReplaced
  cases old with
  | none => trivial
  | some other =>
      dsimp only
      split
      · exact ⟨trivial, fun _ => trivial⟩
      · trivial

theorem storeTexture_publishes :
    (storeTexture row file).Meets (contentProtocol storageRoot).logic (fun _ _ => True)
      (fun _ _ => True) (.publishing (.working row file none)) := by
  unfold storeTexture
  simp only [Fallible.meets_bind, meets_ask]
  apply (writeFile_writes file).mono
  · rintro _ following rfl
    refine ⟨trivial, fun result => ?_⟩
    cases result with
    | error error => trivial
    | ok old =>
        refine ⟨⟨rfl, rfl⟩, fun result => ?_⟩
        cases result with
        | error error => trivial
        | ok stored =>
            exact (unlinkReplaced_aside row.filePath old).of_footprint
              (fun _ aside => ignores_aside aside .idle) (fun _ _ => trivial) (fun _ _ => trivial)
  · exact fun _ _ _ => trivial

theorem unlinkDeleted_aside (removed : Option (List String)) :
    (unlinkDeleted removed).Meets (.footprint TextureOperation.Aside) (fun _ _ => True)
      (fun _ _ => True) () := by
  cases removed with
  | none => trivial
  | some path => exact ⟨trivial, fun _ => trivial⟩

theorem missingOf_aside (rows : List Texture) :
    (missingOf rows).Meets (.footprint TextureOperation.Aside) (fun _ _ => True)
      (fun _ _ => True) () := by
  induction rows with
  | nil => trivial
  | cons row rest induction =>
      unfold missingOf
      simp only [Fallible.meets_bind, meets_onDisk]
      refine ⟨trivial, fun result => ?_⟩
      apply induction.mono
      · intro orphans _ _
        cases result with
        | error error => trivial
        | ok present => cases present <;> trivial
      · exact fun _ _ _ => trivial

theorem collectOrphans_aside (kind : TextureKind) (arrangement : Arrangement Texture.recency) :
    (collectOrphans kind arrangement).Meets (.footprint TextureOperation.Aside) (fun _ _ => True)
      (fun _ _ => True) () := by
  unfold collectOrphans
  simp only [Fallible.meets_bind, meets_ask]
  refine ⟨trivial, fun result => ?_⟩
  cases result with
  | error error => trivial
  | ok rows => exact missingOf_aside rows

theorem purgeRows_aside (kind : TextureKind) (rows : List Texture) :
    (purgeRows kind rows).Meets (.footprint TextureOperation.Aside) (fun _ _ => True)
      (fun _ _ => True) () := by
  induction rows with
  | nil => trivial
  | cons row rest induction =>
      unfold purgeRows
      simp only [Fallible.meets_bind, meets_ask]
      refine ⟨trivial, fun result => ?_⟩
      cases result with
      | error error => trivial
      | ok removed => exact induction

theorem purgeKind_aside (kind : TextureKind) (arrangement : Arrangement Texture.recency) :
    (purgeKind kind arrangement).Meets (.footprint TextureOperation.Aside) (fun _ _ => True)
      (fun _ _ => True) () := by
  unfold purgeKind
  rw [Fallible.meets_bind]
  apply (collectOrphans_aside kind arrangement).mono
  · exact fun orphans _ _ => purgeRows_aside kind orphans
  · exact fun _ _ _ => trivial

theorem handler_aside {request : TextureRequest}
    (other : ∀ segment user multipart revision now,
      request ≠ .upload segment user multipart revision now) :
    (request.handler storageRoot).Meets (.footprint TextureOperation.Aside) (fun _ _ => True)
      (fun _ _ => True) () := by
  cases request with
  | upload segment user multipart revision now =>
      exact absurd rfl (other segment user multipart revision now)
  | delete segment user =>
      unfold TextureRequest.handler Textures.delete
      simp only [Fallible.meets_bind, Fallible.meets_okOr, meets_ask]
      refine ⟨fun _ => trivial, fun kind _ => ⟨trivial, fun result => ?_⟩⟩
      cases result with
      | error error => trivial
      | ok removed => exact unlinkDeleted_aside removed
  | adminDelete kind userId =>
      unfold TextureRequest.handler Textures.adminDelete
      simp only [Fallible.meets_bind, Fallible.meets_okOr, meets_ask]
      refine ⟨fun _ => trivial, fun id _ => ⟨trivial, fun result => ?_⟩⟩
      cases result with
      | error error => trivial
      | ok removed => exact unlinkDeleted_aside removed
  | orphans skins capes =>
      unfold TextureRequest.handler
      simp only [Fallible.meets_bind]
      apply (collectOrphans_aside .skin skins).mono
      · exact fun _ _ _ => collectOrphans_aside .cape capes
      · exact fun _ _ _ => trivial
  | purgeMissing skins capes =>
      unfold TextureRequest.handler
      simp only [Fallible.meets_bind]
      apply (purgeKind_aside .skin skins).mono
      · exact fun _ _ _ => purgeKind_aside .cape capes
      · exact fun _ _ _ => trivial

theorem upload_publishes {segment : String} {user : AuthUser} {multipart : Multipart}
    {revision : Revision} {now : Timestamp} :
    (Textures.upload storageRoot segment user multipart revision now).Meets
      (contentProtocol storageRoot).logic (fun _ _ => True) (fun _ _ => True)
      (TextureTraffic.phase storageRoot (.write (.upload segment user multipart revision now))) := by
  unfold Textures.upload
  simp only [Fallible.meets_bind, Fallible.meets_okOr, Fallible.meets_lift]
  refine ⟨fun _ => trivial, fun kind parsed => ⟨fun _ _ => trivial, fun read accepted => ?_⟩⟩
  refine ⟨fun _ => trivial, fun profileUuid known => ?_⟩
  have target : uploadedTexture storageRoot (.upload segment user multipart revision now) =
      some
        ({ userId := user.id
           kind := kind
           profileUuid := profileUuid
           username := user.username
           filePath := diskPath storageRoot kind profileUuid revision
           fileUrl := relativeTextureUrl profileUuid kind.asStr
           fileSize := Catalog.asI32 read.1.length
           variant := read.2
           updatedAt := now }, read.1) := by
    have kept : (readUpload kind multipart).toOption = some read := by
      rw [accepted]
      rfl
    simp only [uploadedTexture, parsed, kept, known, Option.bind_eq_bind, Option.bind_some]
  simp only [TextureTraffic.phase, TextureTraffic.reads, TextureTraffic.uploads, target]
  exact storeTexture_publishes

theorem toOption_of_mapError {Failure Error Value : Type} {result : Except Failure Value}
    {convert : Failure → Error} {value : Value} (mapped : result.mapError convert = .ok value) :
    result.toOption = some value := by
  cases result with
  | error error => cases mapped
  | ok found =>
      cases mapped
      rfl

theorem readPng_serves {uuid segment : String}
    {owner : String → Except DatabaseError (Option Uuid)} :
    (Textures.readPng uuid segment owner).Meets (contentProtocol storageRoot).logic
      (fun bytes following => ∃ key, following = .served key bytes) (fun _ _ => True)
      (TextureTraffic.phase storageRoot (.readPng uuid segment owner)) := by
  unfold Textures.readPng
  simp only [Fallible.meets_bind, Fallible.meets_okOr, Fallible.meets_lift, meets_ask]
  refine ⟨fun _ => trivial, fun kind parsed => ⟨fun _ _ => trivial, fun profileUuid spelled => ?_⟩⟩
  refine ⟨fun _ _ => trivial, fun known answered => ⟨fun _ => trivial, fun userId present => ?_⟩⟩
  have about : TextureTraffic.reads (.readPng uuid segment owner) = some (userId, kind) := by
    have undashed := toOption_of_mapError spelled
    have resolved := toOption_of_mapError answered
    simp only [TextureTraffic.reads, parsed, undashed, resolved, present, Option.bind_eq_bind,
      Option.bind_some]
  simp only [TextureTraffic.phase, about]
  refine ⟨rfl, fun result => ?_⟩
  cases result with
  | error error => trivial
  | ok found =>
      refine ⟨fun _ => trivial, fun path there => ?_⟩
      subst there
      refine ⟨rfl, fun result => ?_⟩
      cases result with
      | error error => trivial
      | ok content => exact ⟨(userId, kind), rfl⟩

theorem handleTraffic_follows (request : TextureTraffic) :
    (handleTraffic storageRoot request).Meets (contentProtocol storageRoot).logic Answered
      (request.phase storageRoot) := by
  apply Fallible.meets_outcome.mpr
  cases request with
  | write request =>
      have goal : (request.handler storageRoot).Meets (contentProtocol storageRoot).logic
          (fun _ _ => True) (fun _ _ => True)
          (TextureTraffic.phase storageRoot (.write request)) := by
        cases request with
        | upload segment user multipart revision now =>
            unfold TextureRequest.handler
            exact upload_publishes
        | _ =>
            exact (handler_aside fun _ _ _ _ _ same => by cases same).of_footprint
              (fun _ aside => ignores_aside aside .idle) (fun _ _ => trivial) (fun _ _ => trivial)
      unfold TextureTraffic.handler
      rw [Fallible.meets_bind]
      apply goal.mono
      · intro reply following _ bytes same
        cases same
      · intro error following _ bytes same
        cases same
  | readPng uuid segment owner =>
      unfold TextureTraffic.handler
      rw [Fallible.meets_bind]
      apply readPng_serves.mono
      · intro served following seen bytes same
        cases same
        exact seen
      · intro error following _ bytes same
        cases same

end Programs

end Loontail.Textures
