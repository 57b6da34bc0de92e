import Loontail.Bundles.Admin
import Loontail.Bundles.Rules
import Loontail.Bundles.Extraction
import Loontail.Guarantees.BatchMoves

/-! # What a rejected archive leaves

The files of a build are cleared before the archive is looked at. What is there after a
rejection is what the archive had to give until then. -/

namespace Loontail.Bundles

open Concurrency Disk

/-! ## The archive that arrives -/

def Multipart.archive (multipart : Multipart) : Option Bytes :=
  (multipart.fields.find? fun field => field.name = some "archive").bind fun field =>
    if field.failure = none ∧ field.chunks.flatten.length ≤ maxUploadBytes then
      some field.chunks.flatten
    else none

section Receiving

variable {path : List String} {before now : Service} {content : Bytes}

/-- What was sent so far is in the temporary file, and nothing else has changed. -/
structure Receiving (path : List String) (content : Bytes) (before now : Service) : Prop where
  database : now.database = before.database
  file : now.disk.find path = some (.file content)
  elsewhere : ∀ other, other ≠ path → now.disk.find other = before.disk.find other

theorem admits_of_file {disk : Builds} (there : disk.find path = some (.file content)) :
    disk.Admits path := by
  have file : disk.isFile path = true := Tree.isFile_iff.mpr ⟨content, there⟩
  have proper := Tree.not_root_of_isFile file
  refine ⟨proper, ?_, ?_⟩
  · simp [Tree.isFolder, there, Node.isFolder]
  · refine Tree.isFolder_iff.mpr (disk.closed path.dropLast (path.getLast proper) ?_)
    rw [List.dropLast_append_getLast, there]
    rfl

theorem append_receives (receiving : Receiving path content before now) (data : Bytes)
    (context : String) {onOk : Unit → Service → Prop} {onError : AppError → Service → Prop}
    (next : ∀ following, Receiving path (content ++ data) before following → onOk () following) :
    (io (.append path data) context).Meets (.alone registry) onOk onError now := by
  obtain ⟨written, made⟩ :=
    Tree.writeFile_of_admits (content ++ data) (admits_of_file receiving.file)
  have appended : DiskCall.appended now.disk path data = .ok written := by
    rw [DiskCall.appended, receiving.file]
    exact made
  have performed : (DiskCall.append path data).perform now.disk = (.ok (), written) := by
    simp only [DiskCall.perform, appended, DiskCall.settle]
  refine io_done performed (next _ ⟨receiving.database, ?_, fun other apart => ?_⟩)
  · exact DiskCall.appended_puts receiving.file appended
  · exact (DiskCall.appended_keeps appended apart).trans (receiving.elsewhere other apart)

theorem writeChunks_receives (receiving : Receiving path content before now) {written : Nat}
    {chunks : List Bytes} (bounded : written + chunks.flatten.length ≤ maxUploadBytes) :
    (writeChunks path written chunks).Meets (.alone registry)
      (fun _ following => Receiving path (content ++ chunks.flatten) before following)
      (fun _ _ => False) now := by
  induction chunks generalizing written content now with
  | nil =>
      rw [List.flatten_nil, List.append_nil]
      exact receiving
  | cons chunk rest induction =>
      rw [List.flatten_cons, List.length_append] at bounded
      have fits : min (written + chunk.length) u64Max ≤ written + chunk.length := Nat.min_le_left _ _
      unfold writeChunks
      rw [Fallible.meets_bind, Fallible.meets_refuse]
      refine ⟨fun large => ?_, fun _ => ?_⟩
      · have excess := of_decide_eq_true large
        omega
      · rw [Fallible.meets_bind]
        refine append_receives receiving chunk _ fun following longer => ?_
        rw [List.flatten_cons, ← List.append_assoc]
        exact induction longer (by omega)

theorem streamFieldToFile_receives {field : Field} (start : before.disk.Admits path)
    (complete : field.failure = none)
    (bounded : field.chunks.flatten.length ≤ maxUploadBytes) :
    (streamFieldToFile field path).Meets (.alone registry)
      (fun _ following => Receiving path field.chunks.flatten before following)
      (fun _ _ => False) before := by
  obtain ⟨written, made⟩ := Tree.writeFile_of_admits ([] : Bytes) start
  have performed : (DiskCall.create path).perform before.disk = (.ok (), written) := by
    simp only [DiskCall.perform, made, DiskCall.settle]
  have receiving : Receiving path [] before { before with disk := written } := by
    refine ⟨rfl, ?_, fun other apart => Tree.writeFile_keeps made apart⟩
    simp only [(Tree.writeFile_ok made).1, Tree.withFile, if_true]
  unfold streamFieldToFile
  rw [Fallible.meets_bind]
  refine io_done performed ?_
  rw [Fallible.meets_bind]
  refine (writeChunks_receives receiving (by omega)).mono (fun _ following whole => ?_)
    fun _ _ => id
  rw [complete]
  exact whole

theorem streamArchive_receives {multipart : Multipart} {bytes : Bytes}
    (arrives : multipart.archive = some bytes) (start : before.disk.Admits path) :
    (streamArchive path multipart.fields).Meets (.alone registry)
      (fun have_ following => have_ = true ∧ Receiving path bytes before following)
      (fun _ _ => False) before := by
  obtain ⟨field, found, whole⟩ := Option.bind_eq_some_iff.mp arrives
  split at whole
  · rename_i complete
    cases whole
    generalize multipart.fields = fields at found
    induction fields with
    | nil => cases found
    | cons first rest induction =>
        unfold streamArchive
        by_cases named : first.name = some "archive"
        · have same : first = field := by simpa [List.find?, named] using found
          subst same
          rw [if_pos named, Fallible.meets_bind]
          refine (streamFieldToFile_receives start complete.1 complete.2).mono ?_ fun _ _ => id
          exact fun _ following received => ⟨rfl, received⟩
        · rw [if_neg named]
          exact induction (by simpa [List.find?, named] using found)
  · cases whole

end Receiving

/-! ## Clearing -/

section Rejecting

variable {state : State} {slug : String} {bytes : Bytes} {service : Service}

theorem mkdir_idle {path : List String} {context : String} {onOk : Unit → Service → Prop}
    {onError : AppError → Service → Prop} (there : service.disk.find path = some .folder)
    (next : ∀ disk : Builds, disk.find = service.disk.find → onOk () { service with disk }) :
    (io (.createDirAll path) context).Meets (.alone registry) onOk onError service := by
  have clear : ∀ other, other <+: path → service.disk.isFile other = false := by
    intro other within
    have folder : service.disk.find other = some .folder := by
      by_cases same : other = path
      · rw [same]
        exact there
      · exact Tree.folder_of_above within same (by rw [there]; rfl)
    simp [Tree.isFile, folder, Node.isFolder]
  obtain ⟨made, created⟩ := Tree.createDirAll_of_clear clear
  have performed : (DiskCall.createDirAll path).perform service.disk = (.ok (), made) := by
    simp only [DiskCall.perform, created, DiskCall.settle]
  exact io_done performed (next made (Tree.createDirAll_idle created (by rw [there]; rfl)))

theorem cleared_files {disk : Builds} (files : disk.find (filesPath slug) = some .folder) :
    ∃ removed made, disk.removeDirAll (filesPath slug) = .ok removed ∧
      removed.createDirAll (filesPath slug) = .ok made ∧
      Tree.Alike (filesPath slug) made (bareBuild slug).disk ∧
      ∀ path, ¬filesPath slug <+: path → made.find path = disk.find path := by
  have bare : (bareBuild slug).disk.find = Tree.withFolders .empty (filesPath slug) := rfl
  have removable : ∃ removed, disk.removeDirAll (filesPath slug) = .ok removed :=
    Tree.removeDirAll_of_folder (by simp [filesPath]) (Tree.isFolder_iff.mpr files)
  obtain ⟨removed, cleared⟩ := removable
  have gone := (Tree.removeDirAll_ok cleared).1
  have above : ∀ other, other <+: filesPath slug → disk.find other = some .folder := by
    intro other within
    by_cases same : other = filesPath slug
    · rw [same]
      exact files
    · exact Tree.folder_of_above within same (by rw [files]; rfl)
  have clear : ∀ other, other <+: filesPath slug → removed.isFile other = false := by
    intro other within
    simp only [Tree.isFile, gone, Tree.withoutFolder]
    split
    · rename_i node found
      split at found
      · cases found
      · rw [above other within] at found
        cases found
        rfl
    · rfl
  obtain ⟨made, created⟩ := Tree.createDirAll_of_clear clear
  have folders := (Tree.createDirAll_ok created).1
  refine ⟨removed, made, cleared, created, fun path near => ?_, fun path outside => ?_⟩
  · rw [bare, folders]
    unfold Tree.withFolders
    split
    · rfl
    · rename_i below
      have within := near.resolve_left below
      rw [gone, Tree.withoutFolder, if_pos within]
      have proper : path ≠ [] := by
        rintro rfl
        exact below List.nil_prefix
      simp [Tree.empty, proper]
  · rw [folders, Tree.withFolders]
    split
    · rename_i within
      exact (above path within).symm
    · rw [gone, Tree.withoutFolder, if_neg outside]

/-! ## Rejection -/

/-- The rows and the manifest are as before, the files as the archive alone gives them. -/
structure Replaced (slug : String) (unpacked : Builds) (before after : Service) : Prop where
  rows : after.database.artifacts.rows = before.database.artifacts.rows
  manifest : after.disk.find (manifestPath slug) = before.disk.find (manifestPath slug)
  files : ∀ path, filesPath slug <+: path → after.disk.find path = unpacked.find path

theorem extractZip_replaces {before : Service} {path : List String}
    (rejected : ∀ reply, (unpack state slug bytes).1 ≠ .ok reply)
    (sent : service.disk.find path = some (.file bytes))
    (cleared : Tree.Alike (filesPath slug) service.disk (bareBuild slug).disk)
    (rows : service.database.artifacts.rows = before.database.artifacts.rows)
    (manifest : service.disk.find (manifestPath slug) = before.disk.find (manifestPath slug)) :
    (extractZip state path (filesPath slug)).Meets (.alone registry) (fun _ _ => False)
      (fun _ => Replaced slug (unpack state slug bytes).2 before) service := by
  have read : (DiskCall.read path).perform service.disk = (.ok bytes, service.disk) := by
    simp only [DiskCall.perform, Tree.read, sent]
  have apart : ¬manifestPath slug <+: filesPath slug ∧ ¬filesPath slug <+: manifestPath slug := by
    constructor <;> intro within <;> have same := within.eq_of_length rfl <;>
      simp [manifestPath, filesPath] at same
  have whole : extractZip state path (filesPath slug) =
      io (.read path) "open archive" >>= unpackInto state (filesPath slug) := rfl
  rw [whole, Fallible.meets_bind]
  refine io_done read (Process.meets_alone.mpr ?_)
  obtain ⟨same, alike⟩ := @unpackInto_alike state slug bytes service cleared
  obtain ⟨database, elsewhere⟩ := @unpackInto_apart state slug bytes service
  have replaced : Replaced slug (unpack state slug bytes).2 before
      ((unpackInto state (filesPath slug) bytes).run.evaluate service).2 :=
    ⟨by rw [database, rows], (elsewhere _ apart.1 apart.2).trans manifest,
      fun path within => alike path (.inr within)⟩
  cases outcome : (unpack state slug bytes).1 with
  | ok reply => exact (rejected reply outcome).elim
  | error error =>
      rw [same.trans outcome]
      exact replaced

theorem Replaced.mono {unpacked : Builds} {before middle after : Service}
    (replaced : Replaced slug unpacked before middle)
    (rows : after.database.artifacts.rows = middle.database.artifacts.rows)
    (disk : ∀ path, (path = manifestPath slug ∨ filesPath slug <+: path) →
      after.disk.find path = middle.disk.find path) : Replaced slug unpacked before after :=
  ⟨rows.trans replaced.rows, (disk _ (.inl rfl)).trans replaced.manifest,
    fun path within => (disk path (.inr within)).trans (replaced.files path within)⟩

theorem upload_apart (slug : String) (number : Nat) {path : List String}
    (other : path = manifestPath slug ∨ filesPath slug <+: path) :
    path ≠ uploadPath slug number := by
  rintro rfl
  rcases other with same | within
  · exact uploadPath_ne (by decide) slug slug number same
  · have same : filesPath slug = uploadPath slug number := within.eq_of_length rfl
    exact uploadPath_ne (by decide) slug slug number same.symm

theorem ingestArchive_replaces {bundle : Bundle} {before sent : Service} {number : Nat}
    (rejected : ∀ reply, (unpack state bundle.slug bytes).1 ≠ .ok reply)
    (files : before.disk.find (filesPath bundle.slug) = some .folder)
    (rows : service.database.artifacts.rows = before.database.artifacts.rows)
    (disk : service.disk = sent.disk)
    (received : Receiving (uploadPath bundle.slug number) bytes before sent) :
    (ingestArchive state bundle (uploadPath bundle.slug number)).Meets (.alone registry)
      (fun _ _ => False)
      (fun _ => Replaced bundle.slug (unpack state bundle.slug bytes).2 before) service := by
  have here : service.disk.find (filesPath bundle.slug) = some .folder := by
    rw [disk, received.elsewhere _ (upload_apart _ _ (.inr (List.prefix_refl _))), files]
  obtain ⟨removed, made, cleared, created, alike, elsewhere⟩ := cleared_files here
  have first : (DiskCall.removeDirAll (filesPath bundle.slug)).perform service.disk =
      (.ok (), removed) := by simp only [DiskCall.perform, cleared, DiskCall.settle]
  have second : (DiskCall.createDirAll (filesPath bundle.slug)).perform removed =
      (.ok (), made) := by simp only [DiskCall.perform, created, DiskCall.settle]
  have present : service.disk.present (filesPath bundle.slug) = true := by
    simp [Tree.present, here]
  have beside : ∀ name, name ≠ "files" → ¬filesPath bundle.slug <+: [bundle.slug, name] := by
    intro name other within
    have same : filesPath bundle.slug = [bundle.slug, name] := within.eq_of_length rfl
    simp only [filesPath, List.cons.injEq, and_true] at same
    exact other same.2.symm
  unfold ingestArchive clearFiles
  rw [Fallible.meets_bind, Fallible.meets_bind, alone_pathExists, present, if_pos rfl]
  refine io_done first ?_
  rw [Fallible.meets_bind]
  refine io_done second ?_
  rw [Fallible.meets_bind]
  refine (@extractZip_replaces state bundle.slug bytes { service with disk := made } before _
    rejected ?_ alike rows ?_).mono (fun _ _ => False.elim) fun _ _ => id
  · refine (elsewhere _ (beside _ fun name => ?_)).trans (disk ▸ received.file)
    exact @uploadPath_ne "files" (by decide) bundle.slug bundle.slug number
      (by rw [uploadPath, name])
  · refine (elsewhere _ (beside _ (by decide))).trans ?_
    rw [disk]
    exact received.elsewhere _ (upload_apart _ _ (.inl rfl))

theorem setStatus_done {id : Uuid} {status : BundleStatus} {processingError : Option String}
    {onOk : Unit → Service → Prop} {onError : AppError → Service → Prop}
    (next : ∀ database : Database, database.artifacts = service.database.artifacts →
      onOk () { service with database }) :
    (query (.setStatus id status processingError)).Meets (.alone registry) onOk onError service :=
  @query_done service onError (.setStatus id status processingError) () _ onOk rfl (next _ rfl)

theorem receiveArchive_replaces {bundle : Bundle} {multipart : Multipart} {number : Nat}
    (arrives : multipart.archive = some bytes)
    (rejected : ∀ reply, (unpack state bundle.slug bytes).1 ≠ .ok reply)
    (files : service.disk.find (filesPath bundle.slug) = some .folder)
    (start : service.disk.Admits (uploadPath bundle.slug number)) :
    (receiveArchive state bundle multipart (uploadPath bundle.slug number)).Meets
      (.alone registry) (fun _ _ => False)
      (fun _ => Replaced bundle.slug (unpack state bundle.slug bytes).2 service) service := by
  unfold receiveArchive
  rw [Fallible.meets_bind]
  refine (streamArchive_receives arrives start).mono ?_ fun _ _ => False.elim
  rintro _ sent ⟨rfl, received⟩
  rw [if_pos rfl, Fallible.meets_bind]
  refine setStatus_done fun database rows => ?_
  unfold failing
  rw [Fallible.meets_bind, meets_observe]
  refine (@ingestArchive_replaces state bytes { sent with database } bundle service sent number
    rejected files ?_ rfl received).mono (fun _ _ => False.elim) ?_
  · rw [rows, received.database]
  · intro error following replaced
    rw [Fallible.meets_bind]
    refine setStatus_done fun database same => ?_
    exact replaced.mono (by rw [same]) fun _ _ => rfl

theorem dropUpload_keeps {unpacked : Builds} {before : Service} (slug : String) (number : Nat)
    (replaced : Replaced slug unpacked before service) :
    (dropUpload (uploadPath slug number)).Meets (.alone registry)
      (fun _ => Replaced slug unpacked before) (fun _ _ => False) service := by
  unfold dropUpload
  rw [Fallible.meets_bind, alone_attempt]
  refine replaced.mono rfl fun path other => DiskCall.settle_find fun after removed => ?_
  exact Tree.removeFile_keeps removed (upload_apart slug number other)

structure Published (state : State) (slug : String) (manifest : Manifest) (service : Service) :
    Prop where
  registered : ∃ bundle ∈ service.database.bundles.rows, bundle.slug = slug
  valid : validateSlug slug = .ok ()
  files : service.disk.find (filesPath slug) = some .folder
  listed : service.disk.find (manifestPath slug) = some (.file (state.toJson manifest))
  fresh : service.disk.find (uploadPath slug service.uploads) = none

theorem uploadArchive_replaces {manifest : Manifest} {multipart : Multipart}
    (published : Published state slug manifest service)
    (arrives : multipart.archive = some bytes)
    (rejected : ∀ reply, (unpack state slug bytes).1 ≠ .ok reply) :
    (uploadArchive state slug multipart).Meets (.alone registry) (fun _ _ => False)
      (fun _ => Replaced slug (unpack state slug bytes).2 service) service := by
  have findable : (Sql.findBySlug slug service.database).isSome := by
    obtain ⟨bundle, member, named⟩ := published.registered
    simp only [Sql.findBySlug, List.find?_isSome, decide_eq_true_eq]
    exact ⟨bundle, member, named⟩
  obtain ⟨bundle, found⟩ := Option.isSome_iff_exists.mp findable
  have named : bundle.slug = slug := by simpa using List.find?_some found
  subst named
  have folder : service.disk.find (buildPath bundle.slug) = some .folder :=
    service.disk.closed (buildPath bundle.slug) "files" (by
      show (service.disk.find (filesPath bundle.slug)).isSome
      rw [published.files]
      rfl)
  unfold uploadArchive resolvedBundle requireBySlug ensureBuildDir tempUpload
  simp only [Fallible.meets_bind, Fallible.meets_lift, Fallible.meets_okOr, meets_observe]
  refine ⟨fun error invalid => ?_, fun _ _ => ?_⟩
  · rw [published.valid] at invalid
    cases invalid
  refine @query_done service _ (.findBySlug bundle.slug) _ _ _ rfl ⟨fun missing => ?_, ?_⟩
  · rw [found] at missing
    cases missing
  intro other same
  obtain rfl : bundle = other := Option.some.inj (found.symm.trans same)
  refine mkdir_idle published.files fun first firstSame => ?_
  refine mkdir_idle (by rw [firstSame]; exact folder) fun second secondSame => ?_
  have still : second.find = service.disk.find := secondSame.trans firstSame
  have start : second.Admits (uploadPath bundle.slug service.uploads) := by
    refine ⟨by simp [uploadPath], ?_, Tree.isFolder_iff.mpr ?_⟩
    · simp [Tree.isFolder, still, published.fresh]
    · exact (congrFun still _).trans folder
  change (receiveArchive state bundle multipart (uploadPath bundle.slug service.uploads)).Meets
    (.alone registry) _ _ { service with disk := second, uploads := service.uploads + 1 }
  refine (receiveArchive_replaces arrives rejected ?_ start).mono (fun _ _ => False.elim) ?_
  · exact (congrFun still _).trans published.files
  intro error following replaced
  have whole : Replaced bundle.slug (unpack state bundle.slug bytes).2 service following :=
    ⟨replaced.rows, replaced.manifest.trans (congrFun still _), replaced.files⟩
  refine (dropUpload_keeps bundle.slug service.uploads whole).mono (fun _ _ kept => ?_)
    fun _ _ => False.elim
  refine ⟨fun _ _ => kept, fun _ ok => ?_⟩
  cases ok

end Rejecting

/-! ## What a manifest lists -/

def ManifestEntry.describes (state : State) (entry : ManifestEntry) : Option (Node Bytes) → Bool
  | some (.file content) =>
      entry.size = content.length && entry.sha256 = some (state.sha256 content)
  | _ => false

def Backed (state : State) (slug : String) (manifest : Manifest) (disk : Builds) : Prop :=
  ∀ group ∈ manifest, ∀ entry ∈ group.2, entry.isDir = false →
    entry.describes state (disk.find (joinFiles (filesPath slug) entry.path)) = true

instance (state : State) (slug : String) (manifest : Manifest) (disk : Builds) :
    Decidable (Backed state slug manifest disk) :=
  inferInstanceAs (Decidable (∀ group ∈ manifest, ∀ entry ∈ group.2, entry.isDir = false →
    entry.describes state (disk.find (joinFiles (filesPath slug) entry.path)) = true))

theorem backed_congr {state : State} {slug : String} {manifest : Manifest} {left right : Builds}
    (same : ∀ path, filesPath slug <+: path → left.find path = right.find path) :
    Backed state slug manifest left ↔ Backed state slug manifest right := by
  unfold Backed
  refine forall₂_congr fun group _ => forall₂_congr fun entry _ => ?_
  rw [same (joinFiles (filesPath slug) entry.path) (List.prefix_append _ _)]

/-- The rows and the manifest are as they were, and the files that it lists are there. -/
structure Intact (state : State) (slug : String) (manifest : Manifest) (before after : Service) :
    Prop where
  rows : after.database.artifacts.rows = before.database.artifacts.rows
  listed : after.disk.find (manifestPath slug) = before.disk.find (manifestPath slug)
  backed : Backed state slug manifest after.disk

/-- A rejected archive leaves a published build intact exactly if what it gives before it is
rejected, extracted by itself, has every file that the manifest lists. -/
theorem rejected_archive_intact_iff {state : State} {slug : String} {manifest : Manifest}
    {multipart : Multipart} {bytes : Bytes} {error : AppError} {index : Nat}
    {before after : Service} {history events : List (Event registry)}
    {outcome : Except AppError Reply} (published : Published state slug manifest before)
    (arrives : multipart.archive = some bytes)
    (rejected : (unpack state slug bytes).1 = .error error)
    (executed : (handle state (.uploadArchive slug multipart)).execute index [] before history =
      some (outcome, after, events)) :
    Intact state slug manifest before after ↔
      Backed state slug manifest (unpack state slug bytes).2 := by
  have refused : ∀ reply, (unpack state slug bytes).1 ≠ .ok reply := by
    intro reply accepted
    rw [rejected] at accepted
    cases accepted
  have meets : Process.Meets (.alone registry)
      (fun _ after => Replaced slug (unpack state slug bytes).2 before after)
      (handle state (.uploadArchive slug multipart)) before := by
    refine Fallible.meets_run.mpr ((Fallible.meets_map _ _).mpr ?_)
    exact (uploadArchive_replaces published arrives refused).mono (fun _ _ => False.elim)
      fun _ _ => id
  have replaced := Process.meets_alone.mp meets
  rw [Process.evaluate_of_execute executed] at replaced
  rw [← backed_congr replaced.files]
  exact ⟨fun intact => intact.backed, fun backed => ⟨replaced.rows, replaced.manifest, backed⟩⟩

def oneFilePublished : Service :=
  served shownState onePack [.uploadFile "pack" (oneFile "a.jar" [65])]

def oneFileManifest : Manifest :=
  [("root", [⟨"a.jar", "a.jar", 1, false, some "A", some "/builds/pack/files/a.jar", none⟩])]

def brokenZipState : State :=
  { shownState with openZip := fun _ => .ok [.ok ⟨"a.jar", false, 1, [65], none⟩, .error "broken"] }

def oneArchive : Multipart where
  fields := [⟨some "archive", none, [[80, 75]], none, .ok ""⟩]
  failure := none

instance (state : State) (slug : String) (manifest : Manifest) (service : Service) :
    Decidable (Published state slug manifest service) :=
  decidable_of_iff
    ((∃ bundle ∈ service.database.bundles.rows, bundle.slug = slug) ∧ validateSlug slug = .ok () ∧
      service.disk.find (filesPath slug) = some .folder ∧
      service.disk.find (manifestPath slug) = some (.file (state.toJson manifest)) ∧
      service.disk.find (uploadPath slug service.uploads) = none)
    ⟨fun ⟨registered, valid, files, listed, fresh⟩ => ⟨registered, valid, files, listed, fresh⟩,
      fun published => ⟨published.registered, published.valid, published.files,
        published.listed, published.fresh⟩⟩

theorem rejected_archive_intact_regained :
    ∃ after events, ((handle brokenZipState (.uploadArchive "pack" oneArchive)).execute 0 []
        oneFilePublished []).map (fun run => (run.2.1, run.2.2)) = some (after, events) ∧
      Intact brokenZipState "pack" oneFileManifest oneFilePublished after := by
  obtain ⟨outcome, after, events, executed⟩ := Process.execute_total (fun _ _ => rfl)
    (handle brokenZipState (.uploadArchive "pack" oneArchive)) 0 oneFilePublished []
  refine ⟨after, events, by rw [executed]; rfl, ?_⟩
  have published : Published brokenZipState "pack" oneFileManifest oneFilePublished := by
    decide +kernel
  have arrives : oneArchive.archive = some [80, 75] := by decide +kernel
  have rejected : (unpack brokenZipState "pack" [80, 75]).1 =
      .error (.badRequest "read ZIP entry: broken") := by decide +kernel
  exact (rejected_archive_intact_iff published arrives rejected executed).mpr (by decide +kernel)

/-- What is not an archive at all takes the published file with it. -/
theorem rejected_archive_destroys :
    ¬∀ (state : State) (slug : String) (manifest : Manifest) (multipart : Multipart)
      (bytes : Bytes) (error : AppError) (before after : Service)
      (events : List (Event registry)) (outcome : Except AppError Reply),
      Published state slug manifest before → Backed state slug manifest before.disk →
      multipart.archive = some bytes → (unpack state slug bytes).1 = .error error →
      (handle state (.uploadArchive slug multipart)).execute 0 [] before [] =
        some (outcome, after, events) →
      Intact state slug manifest before after := by
  intro always
  obtain ⟨outcome, after, events, executed⟩ := Process.execute_total (fun _ _ => rfl)
    (handle shownState (.uploadArchive "pack" oneArchive)) 0 oneFilePublished []
  have gone : ((handle shownState (.uploadArchive "pack" oneArchive)).execute 0 []
      oneFilePublished []).map (fun run =>
        decide (Backed shownState "pack" oneFileManifest run.2.1.disk)) = some false := by
    decide +kernel
  rw [executed] at gone
  have published : Published shownState "pack" oneFileManifest oneFilePublished := by
    decide +kernel
  have backed : Backed shownState "pack" oneFileManifest oneFilePublished.disk := by decide +kernel
  have rejected : (unpack shownState "pack" [80, 75]).1 =
      .error (.badRequest "invalid ZIP archive: ") := by decide +kernel
  have intact := always shownState "pack" oneFileManifest oneArchive [80, 75] _ oneFilePublished
    after events outcome published backed (by decide +kernel) rejected executed
  exact of_decide_eq_false (Option.some.inj gone) intact.backed

end Loontail.Bundles
