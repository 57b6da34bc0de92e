import Loontail.Bundles.FileOperations
import Loontail.Bundles.Statements
import Loontail.Bundles.Tidiness

/-! # What keeps a build tidy

The parts of the file operations, each run by itself on a tidy build. -/

namespace Loontail.Bundles

open Concurrency Disk Relational

structure Standing (id : Uuid) (slug : String) (service : Service) : Prop where
  registered : Registered service.database id slug
  tidy : Tidy id slug service.database.artifacts.rows service.disk

/-! ## Operations that touch neither rows nor files -/

def Statement.Idle : Statement → Prop
  | findBySlug _ => True
  | setStatus .. => True
  | finishRegeneration .. => True
  | listArtifacts _ => True
  | findArtifact _ => True
  | _ => False

def DiskCall.Idle (slug : String) : DiskCall → Prop
  | createDirAll path => path <+: filesPath slug
  | create path => ∀ inside, path ≠ filesPath slug ++ inside
  | append path _ => ∀ inside, path ≠ filesPath slug ++ inside
  | removeFile path => ∀ inside, path ≠ filesPath slug ++ inside
  | rename .. => False
  | removeDirAll _ => False
  | _ => True

def Operation.Idle (slug : String) : Operation → Prop
  | .statement query => query.Idle
  | .begin => True
  | .inside .. => True
  | .commit _ => False
  | .newUpload => True
  | .disk call => call.Idle slug

section Idle

variable {id : Uuid} {slug : String}

theorem Statement.Idle.persists {statement : Statement} {reply : statement.Reply}
    {database after : Database} (idle : statement.Idle)
    (executed : statement.execute database = .ok (reply, after)) :
    Persists database after ∧ after.artifacts = database.artifacts := by
  cases statement with
  | findBySlug slug =>
      cases executed
      exact ⟨.refl _, rfl⟩
  | setStatus id status processingError =>
      cases executed
      refine ⟨⟨fun row member => ⟨_, List.mem_map_of_mem member, ?_⟩,
        fun row member => ⟨row, member, rfl, rfl, rfl⟩⟩, rfl⟩
      unfold Table.revise
      split <;> exact ⟨rfl, rfl⟩
  | finishRegeneration id filesCount totalSize => exact finishRegeneration_persists executed
  | listArtifacts bundleId =>
      cases executed
      exact ⟨.refl _, rfl⟩
  | findArtifact id =>
      cases executed
      exact ⟨.refl _, rfl⟩
  | _ => exact idle.elim

theorem DiskCall.Idle.files {call : DiskCall} {disk : Builds} (idle : call.Idle slug)
    {inside : List String} (some : inside ≠ []) :
    (call.perform disk).2.find (filesPath slug ++ inside) =
      disk.find (filesPath slug ++ inside) := by
  cases call with
  | createDirAll path =>
      refine settle_find fun after made => Tree.createDirAll_apart made fun above => ?_
      have short := (above.trans idle).length_le
      rw [List.length_append] at short
      exact some (List.length_eq_zero_iff.mp (by omega))
  | create path =>
      exact settle_find fun after made => Tree.writeFile_keeps made (idle inside).symm
  | append path data =>
      exact settle_find fun after made => appended_keeps made (idle inside).symm
  | removeFile path =>
      exact settle_find fun after made => Tree.removeFile_keeps made (idle inside).symm
  | rename => exact idle.elim
  | removeDirAll => exact idle.elim
  | tryExists => rfl
  | isFile => rfl
  | read => rfl
  | probe => rfl
  | readDir => rfl
  | scan => rfl
  | writeManifest other json => exact replaceManifest_files disk other json slug inside

theorem idle_keeps {operation : Operation} (idle : operation.Idle slug) :
    (Concurrency.Logic.alone registry).Keeps (Standing id slug) operation := by
  intro service standing post holds
  refine holds _ _ ?_
  cases operation with
  | statement statement =>
      simp only [Service.perform]
      split
      · rename_i executed
        obtain ⟨persists, same⟩ := Statement.Idle.persists idle executed
        exact ⟨persists.registered standing.registered, by rw [same]; exact standing.tidy⟩
      · exact standing
  | begin => exact standing
  | inside => exact standing
  | commit => exact idle.elim
  | newUpload => exact ⟨standing.registered, standing.tidy⟩
  | disk call =>
      exact ⟨standing.registered, standing.tidy.congr fun inside some => idle.files some⟩

abbrev Idles (slug : String) {Reply : Type} (part : Handler Reply) (onOk : Reply → Prop) : Prop :=
  part.Meets (.footprint (Operation.Idle slug)) (fun reply _ => onOk reply) (fun _ _ => True) ()

/-- What runs by itself on a tidy build leaves it tidy, whichever way it ends. -/
abbrev KeepsTidy (id : Uuid) (slug : String) {Reply : Type} (part : Handler Reply)
    (service : Service) : Prop :=
  part.Meets (.alone registry) (fun _ => Standing id slug) (fun _ => Standing id slug) service

theorem Idles.standing {Reply : Type} {part : Handler Reply} {onOk : Reply → Prop}
    {service : Service} (idles : Idles slug part onOk) (standing : Standing id slug service) :
    part.Meets (.alone registry) (fun reply following => onOk reply ∧ Standing id slug following)
      (fun _ => Standing id slug) service :=
  Fallible.Meets.keeping idles (fun _ => idle_keeps) standing (fun _ _ => And.intro)
    fun _ _ _ kept => kept

theorem idles_query {statement : Statement} (idle : statement.Idle) :
    @Idles slug statement.Reply (query statement) fun _ => True := by
  refine (meets_query statement).mpr ⟨idle, fun result => ?_⟩
  cases result <;> trivial

theorem idles_io {call : DiskCall} (context : String) (idle : call.Idle slug) :
    @Idles slug call.Answer (io call context) fun _ => True := by
  refine (meets_io call context).mpr ⟨idle, fun result => ?_⟩
  cases result <;> trivial

theorem idles_then {Value Reply : Type} {first : Handler Value} {next : Value → Handler Reply}
    {ok : Value → Prop} {onOk : Reply → Prop} (idles : Idles slug first ok)
    (continued : ∀ value, ok value → Idles slug (next value) onOk) :
    Idles slug (first >>= next) onOk :=
  (Fallible.meets_bind first next).mpr
    (idles.mono (fun value _ => continued value) fun _ _ _ => trivial)

theorem regenerateManifest_idles (state : State) (bundle : Bundle) :
    Idles slug (regenerateManifest state bundle) fun _ => True := by
  refine idles_then (@idles_query slug (.listArtifacts bundle.id) trivial) fun _ _ => ?_
  refine idles_then (idles_io _ (show (DiskCall.probe _ _).Idle slug from trivial)) fun _ _ => ?_
  refine idles_then (idles_io _ (show (DiskCall.writeManifest _ _).Idle slug from trivial))
    fun _ _ => ?_
  exact @idles_query slug (.finishRegeneration ..) trivial

end Idle

/-! ## Deletions by parts -/

def dropRows (bundleId : Uuid) (entries : List BundleArtifact) : Handler Unit := do
  begin
  let log ← insideAll [] (entries.flatMap (deleteEntryRows bundleId))
  commit log

theorem deleteFile_eq (state : State) (slug : String) (entryId : Option Uuid) :
    deleteFile state slug entryId = (do
      let (bundle, entry) ← resolvedEntry slug entryId
      dropRows bundle.id [entry]
      unlinkEntry (filesPath bundle.slug) entry
      let _ ← regenerateManifest state bundle
      pure entry.isDir) := by
  unfold deleteFile dropRows
  simp only [bind_assoc, List.flatMap_cons, List.flatMap_nil, List.append_nil]

theorem bulkDelete_eq (state : State) (slug : String) (ids : List Uuid) :
    bulkDelete state slug ids = (do
      let bundle ← resolvedBundle slug
      Fallible.refuse ids.isEmpty (.badRequest "ids must be a non-empty array")
      let entries ← resolveDeletions bundle.id ids
      dropRows bundle.id entries
      unlinkEntries (filesPath bundle.slug) entries
      let _ ← regenerateManifest state bundle
      pure entries.length) := by
  unfold bulkDelete dropRows
  simp only [bind_assoc]

section Handlers

variable {id : Uuid} {slug : String} {state : State} {bundle : Bundle} {service : Service}

theorem regenerateManifest_tidy (standing : Standing id slug service) :
    KeepsTidy id slug (regenerateManifest state bundle) service :=
  (Idles.standing (regenerateManifest_idles state bundle) standing).mono (fun _ _ => And.right)
    fun _ _ kept => kept

theorem resolvedBundle_alone (standing : Standing id slug service)
    {onOk : Bundle → Service → Prop} {onError : AppError → Service → Prop}
    (refused : ∀ error, onError error service)
    (resolved : ∀ bundle : Bundle, bundle.id = id → bundle.slug = slug → onOk bundle service) :
    (resolvedBundle slug).Meets (.alone registry) onOk onError service := by
  unfold resolvedBundle requireBySlug
  simp only [Fallible.meets_bind, Fallible.meets_lift, Fallible.meets_okOr]
  refine ⟨fun _ _ => refused _, fun _ _ => ?_⟩
  refine @query_done service _ (.findBySlug slug) _ _ _ rfl ⟨fun _ => refused _, ?_⟩
  intro bundle found
  have named : bundle.slug = slug := by simpa using List.find?_some found
  obtain ⟨row, member, same, rowSlug⟩ := standing.registered
  have one : bundle = row := Table.eq_of_slot_eq (List.mem_of_find?_eq_some found) member rfl
    (congrArg some (rowSlug.trans named.symm))
  exact resolved bundle (one ▸ same) named

theorem artifactInBundle_alone {entryId : Uuid} {onOk : BundleArtifact → Service → Prop}
    {onError : AppError → Service → Prop} (refused : ∀ error, onError error service)
    (found : ∀ entry ∈ service.database.artifacts.rows, entry.id = entryId →
      entry.bundleId = id → onOk entry service) :
    (artifactInBundle id entryId).Meets (.alone registry) onOk onError service := by
  unfold artifactInBundle
  simp only [Fallible.meets_bind, Fallible.meets_okOr]
  refine @query_done service _ (.findArtifact entryId) _ _ _ rfl ⟨fun _ => refused _, ?_⟩
  intro entry kept
  obtain ⟨there, mine⟩ := Option.filter_eq_some_iff.mp kept
  obtain ⟨member, same⟩ := Table.find_eq_some.mp there
  exact found entry member same (of_decide_eq_true mine)

theorem resolvedEntry_alone {entryId : Option Uuid} (standing : Standing id slug service)
    {onOk : Bundle × BundleArtifact → Service → Prop} {onError : AppError → Service → Prop}
    (refused : ∀ error, onError error service)
    (resolved : ∀ (bundle : Bundle) (entry : BundleArtifact), bundle.id = id →
      bundle.slug = slug → entry ∈ service.database.artifacts.rows → entry.bundleId = id →
      onOk (bundle, entry) service) :
    (resolvedEntry slug entryId).Meets (.alone registry) onOk onError service := by
  unfold resolvedEntry
  simp only [Fallible.meets_bind, Fallible.meets_okOr, Fallible.meets_pure]
  refine resolvedBundle_alone standing refused fun bundle sameId sameSlug => ?_
  refine ⟨fun _ => refused _, fun present _ => ?_⟩
  subst sameId
  refine artifactInBundle_alone refused fun entry member _ mine => ?_
  exact resolved bundle entry rfl sameSlug member mine

/-! ## Uploads -/

theorem upload_idle (slug : String) (number : Nat) (inside : List String) :
    uploadPath slug number ≠ filesPath slug ++ inside := fun same =>
  upload_not_within_files slug slug number inside ⟨[], by rw [List.append_nil, same]⟩

theorem ensureBuildDir_idles (slug context : String) :
    Idles slug (ensureBuildDir slug context) fun _ => True :=
  idles_io context (List.prefix_refl _)

theorem tempUpload_idles (slug : String) :
    Idles slug (tempUpload slug) fun path => ∃ number, path = uploadPath slug number := by
  unfold tempUpload
  refine idles_then (idles_io _ ?_) fun _ _ => ?_
  · exact ⟨["files"], rfl⟩
  · exact (Fallible.meets_bind _ _).mpr ⟨trivial, fun number => ⟨number, rfl⟩⟩

theorem dropUpload_idles {path : List String} (apart : ∀ inside, path ≠ filesPath slug ++ inside) :
    Idles slug (dropUpload path) fun _ => True :=
  (Fallible.meets_bind _ _).mpr ⟨apart, fun _ => trivial⟩

structure Staging (id : Uuid) (slug : String) (path : List String) (service : Service) : Prop where
  standing : Standing id slug service
  file : service.disk.isFile path = true

theorem writeChunks_staging {path : List String} (staging : Staging id slug path service)
    (apart : ∀ inside, path ≠ filesPath slug ++ inside) (written : Nat) (chunks : List Bytes) :
    (writeChunks path written chunks).Meets (.alone registry) (fun _ => Staging id slug path)
      (fun _ => Standing id slug) service := by
  induction chunks generalizing written service with
  | nil => exact staging
  | cons chunk rest induction =>
      unfold writeChunks
      simp only [Fallible.meets_bind, Fallible.meets_refuse]
      refine ⟨fun _ => staging.standing, fun _ => ?_⟩
      rw [alone_io]
      have standing : Standing id slug { service with
          disk := ((DiskCall.append path chunk).perform service.disk).2 } :=
        @idle_keeps id slug (.disk (.append path chunk)) apart service staging.standing
          (fun _ following => Standing id slug following) fun _ _ kept => kept
      obtain ⟨content, there⟩ := Tree.isFile_iff.mp staging.file
      rcases DiskCall.settle_cases service.disk (DiskCall.appended service.disk path chunk) with
        ⟨tree, made, settled⟩ | ⟨error, -, settled⟩
      · have performed : (DiskCall.append path chunk).perform service.disk = (.ok (), tree) :=
          settled
        rw [performed] at standing ⊢
        have grown := DiskCall.appended_puts there made
        exact induction ⟨standing, Tree.isFile_iff.mpr ⟨_, grown⟩⟩ _
      · have performed : (DiskCall.append path chunk).perform service.disk =
            (.error error, service.disk) := settled
        rw [performed]
        exact staging.standing

theorem streamFieldToFile_staging {path : List String} (standing : Standing id slug service)
    (apart : ∀ inside, path ≠ filesPath slug ++ inside) (field : Field) :
    (streamFieldToFile field path).Meets (.alone registry) (fun _ => Staging id slug path)
      (fun _ => Standing id slug) service := by
  unfold streamFieldToFile
  rw [Fallible.meets_bind, alone_io]
  have created : Standing id slug { service with
      disk := ((DiskCall.create path).perform service.disk).2 } :=
    @idle_keeps id slug (.disk (.create path)) apart service standing
      (fun _ following => Standing id slug following) fun _ _ kept => kept
  rcases DiskCall.settle_cases service.disk (service.disk.writeFile path []) with
    ⟨tree, made, settled⟩ | ⟨error, -, settled⟩
  · have performed : (DiskCall.create path).perform service.disk = (.ok (), tree) := settled
    rw [performed] at created ⊢
    have empty : tree.find path = some (.file []) := by
      rw [(Tree.writeFile_ok made).1, Tree.withFile, if_pos rfl]
    have staging : Staging id slug path { service with disk := tree } :=
      ⟨created, Tree.isFile_iff.mpr ⟨_, empty⟩⟩
    rw [Fallible.meets_bind]
    refine (writeChunks_staging staging apart 0 field.chunks).mono ?_ fun _ _ kept => kept
    intro written following staging
    cases field.failure with
    | none => exact staging
    | some failure => exact staging.standing
  · have performed : (DiskCall.create path).perform service.disk =
        (.error error, service.disk) := settled
    rw [performed]
    exact standing

structure Gathered (id : Uuid) (slug : String) (path : List String) (parts : UploadParts)
    (service : Service) : Prop where
  standing : Standing id slug service
  file : parts.size.isSome → service.disk.isFile path = true

theorem readUploadField_gathers {path : List String} {parts : UploadParts}
    (gathered : Gathered id slug path parts service)
    (apart : ∀ inside, path ≠ filesPath slug ++ inside) (field : Field) :
    (readUploadField path parts field).Meets (.alone registry) (Gathered id slug path)
      (fun _ => Standing id slug) service := by
  unfold readUploadField
  split
  · rw [Fallible.meets_bind]
    refine (streamFieldToFile_staging gathered.standing apart field).mono ?_ fun _ _ kept => kept
    exact fun size following staging => ⟨staging.standing, fun _ => staging.file⟩
  · split
    · split
      · exact ⟨gathered.standing, gathered.file⟩
      · exact gathered.standing
    · exact gathered

theorem readUploadParts_gathers {path : List String} {parts : UploadParts}
    (gathered : Gathered id slug path parts service)
    (apart : ∀ inside, path ≠ filesPath slug ++ inside) (fields : List Field) :
    (readUploadParts path parts fields).Meets (.alone registry) (Gathered id slug path)
      (fun _ => Standing id slug) service := by
  induction fields generalizing parts service with
  | nil => exact gathered
  | cons field rest induction =>
      unfold readUploadParts
      rw [Fallible.meets_bind]
      refine (readUploadField_gathers gathered apart field).mono ?_ fun _ _ kept => kept
      exact fun more following gathered => induction gathered

theorem mkdir_standing {path : List String} (standing : Standing id slug service)
    (inner : Inner (filesPath slug) path) (context : String)
    {onOk : Unit → Service → Prop} {onError : AppError → Service → Prop}
    (failed : ∀ error, onError error service)
    (next : ∀ tree, service.disk.createDirAll path = .ok tree →
      Standing id slug { service with disk := tree } → onOk () { service with disk := tree }) :
    (io (.createDirAll path) context).Meets (.alone registry) onOk onError service := by
  rw [alone_io]
  rcases DiskCall.settle_cases service.disk (service.disk.createDirAll path) with
    ⟨tree, made, settled⟩ | ⟨error, -, settled⟩
  · have performed : (DiskCall.createDirAll path).perform service.disk = (.ok (), tree) := settled
    rw [performed]
    exact next tree made ⟨standing.registered, standing.tidy.createDirAll inner made⟩
  · have performed : (DiskCall.createDirAll path).perform service.disk =
        (.error error, service.disk) := settled
    rw [performed]
    exact failed _

theorem prepareUpload_staging {path : List String} (standing : Standing id slug service)
    (apart : ∀ inside, path ≠ filesPath slug ++ inside) (multipart : Multipart) :
    (prepareUpload (filesPath slug) multipart path).Meets (.alone registry)
      (fun prepared following => Staging id slug path following ∧ Normalized prepared.2)
      (fun _ => Standing id slug) service := by
  unfold prepareUpload
  simp only [Fallible.meets_bind, Fallible.meets_lift, Fallible.meets_okOr, Fallible.meets_pure]
  have nothing : Gathered id slug path ⟨none, none, none⟩ service :=
    ⟨standing, fun impossible => by cases impossible⟩
  refine (readUploadParts_gathers nothing apart multipart.fields).mono ?_ fun _ _ kept => kept
  intro parts following gathered
  refine ⟨fun _ _ => gathered.standing, fun _ _ => ⟨fun _ => gathered.standing, ?_⟩⟩
  intro size sized
  refine ⟨fun _ => gathered.standing, fun raw _ => ⟨fun _ _ => gathered.standing, ?_⟩⟩
  intro relativePath accepted
  have normalized := normalized_of_ok accepted
  refine mkdir_standing gathered.standing (inner_parent normalized) _
    (fun _ => gathered.standing) fun tree made kept => ⟨⟨kept, ?_⟩, normalized⟩
  have there := gathered.file (by rw [sized]; rfl)
  obtain ⟨content, found⟩ := Tree.isFile_iff.mp there
  refine Tree.isFile_iff.mpr ⟨content, ?_⟩
  exact (Tree.createDirAll_keeps made (by rw [found]; rfl)).trans found

structure Fitting (slug : String) (disk : Builds) (entry : ScanEntry) : Prop where
  normalized : Normalized entry.relativePath
  split : splitRelativePath entry.relativePath = (entry.name, entry.category)
  placed : kindAt disk (joinFiles (filesPath slug) entry.relativePath) = some entry.isDir

theorem Fitting.row {disk : Builds} {entry : ScanEntry} (fitting : Fitting slug disk entry)
    {row : BundleArtifact} (path : row.relativePath = entry.relativePath)
    (written : entry.overwrite row = row) :
    row.Named ∧ kindAt disk (joinFiles (filesPath slug) row.relativePath) = some row.isDir := by
  have name : row.name = entry.name := by rw [← written]; rfl
  have category : row.category = entry.category := by rw [← written]; rfl
  have kind : row.isDir = entry.isDir := by rw [← written]; rfl
  refine ⟨⟨path ▸ fitting.normalized, ?_⟩, ?_⟩
  · rw [path, name, category]
    exact fitting.split
  · rw [path, kind]
    exact fitting.placed

theorem upsert_standing {entry : ScanEntry} (standing : Standing id slug service)
    (fitting : Fitting slug service.disk entry) {onOk : Unit → Service → Prop}
    {onError : AppError → Service → Prop} (failed : ∀ error, onError error service)
    (next : ∀ database, Standing id slug { service with database } →
      onOk () { service with database }) :
    (query (.upsertArtifact id entry)).Meets (.alone registry) onOk onError service := by
  rw [alone_query]
  cases executed : Statement.execute service.database (.upsertArtifact id entry) with
  | error error => exact failed _
  | ok done =>
      obtain ⟨reply, database⟩ := done
      have right : ∀ row ∈ database.artifacts.rows, row.bundleId = id → row.Named ∧
          kindAt service.disk (joinFiles (filesPath slug) row.relativePath) = some row.isDir := by
        intro row member mine
        rcases Sql.mem_upsert executed member with ⟨here, written⟩ | ⟨-, old⟩
        · exact fitting.row (Sql.at_iff.mp here).2 written
        · exact ⟨standing.tidy.named row old mine, standing.tidy.placed row old mine⟩
      refine next database ⟨?_, ⟨fun row member mine => (right row member mine).1,
        fun row member mine => (right row member mine).2, standing.tidy.plain⟩⟩
      rw [Registered, (Sql.upsert_rows executed).1]
      exact standing.registered

theorem hashFile_alone {path : List String} {onOk : String → Service → Prop}
    {onError : AppError → Service → Prop} (failed : ∀ error, onError error service)
    (next : ∀ sha256, onOk sha256 service) :
    (hashFile state path).Meets (.alone registry) onOk onError service := by
  unfold hashFile
  rw [Fallible.meets_bind, alone_attempt]
  cases (DiskCall.read path).perform service.disk |>.1 with
  | ok content => exact next _
  | error error => exact failed _

theorem placeUpload_tidy {path : List String} {size : Nat} {relativePath : String}
    (same : bundle.id = id) (named : bundle.slug = slug)
    (staging : Staging id slug path service) (normalized : Normalized relativePath)
    (elsewhere : ∀ inside, ¬path <+: filesPath slug ++ inside) :
    KeepsTidy id slug (do
      let dest := joinFiles (filesPath bundle.slug) relativePath
      io (.rename path dest) "move file into place"
      let sha256 ← hashFile state dest
      let (name, category) := splitRelativePath relativePath
      query (.upsertArtifact bundle.id
        ⟨relativePath, name, category, size, some sha256, false, state.modifiedTime dest⟩)
      regenerateManifest state bundle) service := by
  subst same named
  rw [KeepsTidy, Fallible.meets_bind]
  rcases DiskCall.settle_cases service.disk
      (service.disk.rename path (joinFiles (filesPath bundle.slug) relativePath)) with
    ⟨tree, renamed, settled⟩ | ⟨error, -, settled⟩
  · have performed : (DiskCall.rename path (joinFiles (filesPath bundle.slug)
        relativePath)).perform service.disk = (.ok (), tree) := settled
    refine io_done performed ?_
    obtain ⟨tidy, placed⟩ := staging.standing.tidy.fileRenamed normalized staging.file elsewhere
      renamed
    have standing : Standing bundle.id bundle.slug { service with disk := tree } :=
      ⟨staging.standing.registered, tidy⟩
    rw [Fallible.meets_bind]
    refine hashFile_alone (fun _ => standing) fun sha256 => ?_
    obtain ⟨⟨name, category⟩, parts⟩ : ∃ split, splitRelativePath relativePath = split := ⟨_, rfl⟩
    rw [parts, Fallible.meets_bind]
    have fitting : Fitting bundle.slug tree
        ⟨relativePath, name, category, size, some sha256, false,
          state.modifiedTime (joinFiles (filesPath bundle.slug) relativePath)⟩ :=
      ⟨normalized, parts, placed⟩
    refine upsert_standing standing fitting (fun _ => standing) ?_
    exact fun database kept => regenerateManifest_tidy kept
  · have performed : (DiskCall.rename path (joinFiles (filesPath bundle.slug)
        relativePath)).perform service.disk = (.error error, service.disk) := settled
    exact io_failed performed fun _ => staging.standing

theorem uploadFile_tidy (multipart : Multipart) (standing : Standing id slug service) :
    KeepsTidy id slug (uploadFile state slug multipart) service := by
  unfold uploadFile
  rw [KeepsTidy, Fallible.meets_bind]
  refine resolvedBundle_alone standing (fun _ => standing) fun bundle same named => ?_
  subst named
  rw [Fallible.meets_bind]
  refine ((ensureBuildDir_idles bundle.slug _).standing standing).mono ?_ fun _ _ kept => kept
  rintro _ ensured ⟨-, standing⟩
  rw [Fallible.meets_bind]
  refine ((tempUpload_idles bundle.slug).standing standing).mono ?_ fun _ _ kept => kept
  rintro path reserved ⟨⟨number, rfl⟩, standing⟩
  have apart := upload_idle bundle.slug number
  rw [Fallible.meets_bind, meets_observe]
  refine (prepareUpload_staging standing apart multipart).mono ?_ ?_
  · rintro ⟨size, relativePath⟩ following ⟨staging, normalized⟩
    exact placeUpload_tidy same rfl staging normalized
      (upload_not_within_files bundle.slug bundle.slug number)
  · intro error following kept
    rw [Fallible.meets_bind]
    refine ((dropUpload_idles apart).standing kept).mono ?_ fun _ _ kept => kept
    exact fun _ _ kept => kept.2

/-! ## Folders -/

theorem mem_ancestors {path above : String} (normalized : Normalized path)
    (member : above ∈ ancestors path) :
    Normalized above ∧ segments above <+: segments path := by
  obtain ⟨parts, kept, rfl⟩ := List.mem_map.mp member
  obtain ⟨leads, some⟩ := List.mem_filter.mp kept
  have within := (List.mem_inits _ _).mp leads
  have plain := normalized.plainNames.of_prefix within
  have filled : parts ≠ [] := of_decide_eq_true some
  exact ⟨plain.normalized filled, by rw [plain.segments filled]; exact within⟩

theorem upsertFolders_tidy {paths : List String} (standing : Standing id slug service)
    (fitting : ∀ path ∈ paths, Fitting slug service.disk (folderEntry path)) :
    KeepsTidy id slug (upsertFolders id paths) service := by
  induction paths generalizing service with
  | nil => exact standing
  | cons path rest induction =>
      unfold upsertFolders
      rw [KeepsTidy, Fallible.meets_bind]
      refine upsert_standing standing (fitting path (by simp)) (fun _ => standing) ?_
      intro database kept
      exact induction kept fun other member => fitting other (List.mem_cons_of_mem _ member)

theorem createFolder_tidy (relativePath : String) (standing : Standing id slug service) :
    KeepsTidy id slug (createFolder state slug relativePath) service := by
  unfold createFolder
  rw [KeepsTidy, Fallible.meets_bind]
  refine resolvedBundle_alone standing (fun _ => standing) fun bundle same named => ?_
  subst same named
  simp only [Fallible.meets_bind, Fallible.meets_lift, Fallible.meets_refuse]
  refine ⟨fun _ _ => standing, fun normal accepted => ?_⟩
  have normalized := normalized_of_ok accepted
  refine ((ensureBuildDir_idles bundle.slug _).standing standing).mono ?_ fun _ _ kept => kept
  rintro _ ensured ⟨-, standing⟩
  rw [alone_attempt]
  refine ⟨fun _ => standing, fun _ => ?_⟩
  refine mkdir_standing standing (inner_joinFiles normalized) _ (fun _ => standing) ?_
  intro tree made standing
  refine (upsertFolders_tidy standing fun path member => ?_).mono ?_ fun _ _ kept => kept
  · obtain ⟨above, within⟩ := mem_ancestors normalized member
    refine ⟨above, rfl, kindAt_folder.mpr ?_⟩
    rw [(Tree.createDirAll_ok made).1, Tree.withFolders]
    exact if_pos ((List.prefix_append_right_inj _).mpr within)
  · exact fun _ following kept => regenerateManifest_tidy kept

/-! ## Deletions -/

def Vacated (id : Uuid) (slug : String) (entry : BundleArtifact) (service : Service) : Prop :=
  ∀ row ∈ service.database.artifacts.rows, row.bundleId = id →
    ¬joinFiles (filesPath slug) entry.relativePath <+: joinFiles (filesPath slug) row.relativePath

theorem vacated_of_not_dropped {service after : Service} {entry : BundleArtifact}
    (standing : Standing id slug service) (member : entry ∈ service.database.artifacts.rows)
    (mine : entry.bundleId = id)
    (remaining : ∀ row ∈ after.database.artifacts.rows,
      row ∈ service.database.artifacts.rows ∧ ¬Dropped id entry row) :
    Vacated id slug entry after := by
  intro row listed build within
  obtain ⟨there, kept⟩ := remaining row listed
  have different : entry.relativePath ≠ row.relativePath := by
    intro same
    have slot : artifactLayout.slot entry = artifactLayout.slot row := by
      simp only [mine, build, same]
    exact kept (.inl (congrArg BundleArtifact.id
      (Table.eq_of_slot_eq there member rfl slot)))
  cases dir : entry.isDir with
  | true =>
      exact kept (.inr ⟨dir, build, (List.prefix_append_right_inj _).mp within, different⟩)
  | false =>
      have whole := standing.tidy.leaf member mine dir
        (present_of_kind (standing.tidy.placed row there build)) within
      exact different (joinFiles_injective whole).2

theorem unlinkEntry_tidy {entry : BundleArtifact} (standing : Standing id slug service)
    (vacated : Vacated id slug entry service) :
    (unlinkEntry (filesPath slug) entry).Meets (.alone registry)
      (fun _ following => Standing id slug following ∧ following.database = service.database)
      (fun _ _ => False) service := by
  unfold unlinkEntry
  rw [Fallible.meets_bind, alone_pathExists]
  split
  · rw [Fallible.meets_bind, alone_attempt]
    refine ⟨⟨standing.registered, ?_⟩, rfl⟩
    cases entry.isDir with
    | true => exact standing.tidy.dirUnlinked vacated
    | false => exact standing.tidy.fileUnlinked vacated
  · exact ⟨standing, rfl⟩

theorem unlinkEntries_tidy {entries : List BundleArtifact} (standing : Standing id slug service)
    (vacated : ∀ entry ∈ entries, Vacated id slug entry service) :
    KeepsTidy id slug (unlinkEntries (filesPath slug) entries) service := by
  induction entries generalizing service with
  | nil => exact standing
  | cons entry rest induction =>
      unfold unlinkEntries
      rw [KeepsTidy, Fallible.meets_bind]
      refine (unlinkEntry_tidy standing (vacated entry (by simp))).mono ?_ fun _ _ => False.elim
      rintro _ following ⟨kept, database⟩
      refine induction kept fun other member => ?_
      unfold Vacated
      rw [database]
      exact vacated other (List.mem_cons_of_mem _ member)

/-- The rows go in one transaction, then what they stood for. -/
theorem deletion_tidy {entries : List BundleArtifact} {log : List Statement} {onError : Prop}
    (standing : Standing id slug service)
    (mine : ∀ entry ∈ entries, entry ∈ service.database.artifacts.rows ∧ entry.bundleId = id)
    (replayed : replay service.database log =
      replay service.database (entries.flatMap (deleteEntryRows id))) :
    (commit log).Meets (.alone registry)
      (fun _ following => Standing id slug following ∧
        ∀ entry ∈ entries, Vacated id slug entry following)
      (fun _ _ => onError) service := by
  obtain ⟨after, deleted, bundles, rows⟩ := replay_deletions id entries service.database
  rw [alone_commit, replayed, deleted]
  refine ⟨⟨?_, standing.tidy.fewer fun row member => ((rows row).mp member).1⟩, ?_⟩
  · unfold Registered
    rw [bundles]
    exact standing.registered
  · intro entry member
    obtain ⟨there, build⟩ := mine entry member
    refine vacated_of_not_dropped standing there build fun row kept => ?_
    obtain ⟨old, free⟩ := (rows row).mp kept
    exact ⟨old, free entry member⟩

theorem dropRows_tidy {entries : List BundleArtifact} (standing : Standing id slug service)
    (mine : ∀ entry ∈ entries, entry ∈ service.database.artifacts.rows ∧ entry.bundleId = id) :
    (dropRows id entries).Meets (.alone registry)
      (fun _ following => Standing id slug following ∧
        ∀ entry ∈ entries, Vacated id slug entry following)
      (fun _ => Standing id slug) service := by
  unfold dropRows
  simp only [Fallible.meets_bind]
  refine alone_begin.mpr ?_
  refine (@insideAll_alone service [] service.database rfl _).mono ?_ ?_
  · rintro log following ⟨rfl, after, whole, later⟩
    exact (@deletion_tidy id slug _ entries log False standing mine (whole.trans later.symm)).mono
      (fun _ _ kept => kept) fun _ _ => False.elim
  · rintro error following rfl
    exact standing

theorem deleteFile_tidy (entryId : Option Uuid) (standing : Standing id slug service) :
    KeepsTidy id slug (deleteFile state slug entryId) service := by
  rw [deleteFile_eq, KeepsTidy, Fallible.meets_bind]
  refine resolvedEntry_alone standing (fun _ => standing) fun bundle entry same named member mine => ?_
  subst same named
  simp only [Fallible.meets_bind, Fallible.meets_pure]
  have listed : ∀ other ∈ [entry], other ∈ service.database.artifacts.rows ∧
      other.bundleId = bundle.id := by
    intro other only
    rw [List.mem_singleton.mp only]
    exact ⟨member, mine⟩
  refine (dropRows_tidy standing listed).mono ?_ fun _ _ kept => kept
  rintro _ following ⟨standing, vacated⟩
  refine (unlinkEntry_tidy standing (vacated entry (by simp))).mono ?_ fun _ _ => False.elim
  rintro _ following ⟨standing, -⟩
  exact regenerateManifest_tidy standing

theorem resolveDeletions_alone (ids : List Uuid) :
    (resolveDeletions id ids).Meets (.alone registry)
      (fun entries following => following = service ∧ ∀ entry ∈ entries,
        entry ∈ service.database.artifacts.rows ∧ entry.bundleId = id)
      (fun _ following => following = service) service := by
  induction ids with
  | nil => exact ⟨rfl, by simp⟩
  | cons entryId rest induction =>
      unfold resolveDeletions
      rw [Fallible.meets_bind]
      refine @query_done service _ (.findArtifact entryId) _ _ _ rfl ?_
      cases found : service.database.artifacts.find entryId with
      | none => exact induction
      | some entry =>
          simp only [Fallible.meets_bind, Fallible.meets_refuse, Fallible.meets_pure]
          refine ⟨fun _ => trivial, fun mine => ?_⟩
          refine induction.mono ?_ fun _ _ same => same
          rintro entries following ⟨rfl, listed⟩
          refine ⟨rfl, fun other member => ?_⟩
          rcases List.mem_cons.mp member with rfl | later
          · exact ⟨(Table.find_eq_some.mp found).1, by simpa using mine⟩
          · exact listed other later

theorem bulkDelete_tidy (ids : List Uuid) (standing : Standing id slug service) :
    KeepsTidy id slug (bulkDelete state slug ids) service := by
  rw [bulkDelete_eq, KeepsTidy, Fallible.meets_bind]
  refine resolvedBundle_alone standing (fun _ => standing) fun bundle same named => ?_
  subst same named
  simp only [Fallible.meets_bind, Fallible.meets_refuse, Fallible.meets_pure]
  refine ⟨fun _ => standing, fun _ => ?_⟩
  refine (resolveDeletions_alone ids).mono ?_ ?_
  · rintro entries following ⟨rfl, listed⟩
    refine (dropRows_tidy standing listed).mono ?_ fun _ _ kept => kept
    rintro _ following ⟨standing, vacated⟩
    refine (unlinkEntries_tidy standing vacated).mono ?_ fun _ _ kept => kept
    exact fun _ following standing => regenerateManifest_tidy standing
  · rintro error following rfl
    exact standing

end Handlers

end Loontail.Bundles
