import Loontail.Bundles.Admin
import Loontail.Bundles.DiskCalls

/-! # What the file operations reach

Every file operation ends by regenerating the manifest. What it does before leaves the
manifests and the rows of the builds alone. -/

namespace Loontail.Bundles

open Concurrency Disk

def Statement.Filing : Statement → Prop
  | insertBundle .. => False
  | updateBundleMeta .. => False
  | setStatus .. => False
  | finishRegeneration .. => False
  | deleteBundle _ => False
  | _ => True

def Clear (path : List String) : Prop := ∀ slug, ¬path <+: manifestPath slug

def DiskCall.Free : DiskCall → Prop
  | create path => Clear path
  | append path _ => Clear path
  | rename source target => Clear source ∧ Clear target
  | removeFile path => Clear path
  | removeDirAll path => Clear path
  | probe .. => False
  | writeManifest .. => False
  | _ => True

/-- What a file operation does besides finding its build and regenerating its manifest. -/
def Operation.Free : Operation → Prop
  | .statement (.findBySlug _) => False
  | .statement (.listArtifacts _) => False
  | .statement (.setStatus ..) => True
  | .statement query => query.Filing
  | .commit log => ∀ statement ∈ log, statement.Filing
  | .disk call => call.Free
  | _ => True

theorem upsertChunk_bundles {bundleId : Uuid} {chunk : List ScanEntry} {reply : Unit}
    {database after : Database}
    (executed : Sql.upsertChunk bundleId chunk database = .ok (reply, after)) :
    after.bundles = database.bundles := by
  induction chunk generalizing database with
  | nil =>
      cases executed
      rfl
  | cons entry rest induction =>
      unfold Sql.upsertChunk at executed
      split at executed
      · cases executed
      · split at executed
        · rename_i upserted
          exact (induction executed).trans (Sql.upsert_rows upserted).1
        · cases executed

theorem Statement.Filing.bundles {statement : Statement} {reply : statement.Reply}
    {database after : Database} (filing : statement.Filing)
    (executed : statement.execute database = .ok (reply, after)) :
    after.bundles = database.bundles := by
  cases statement with
  | insertBundle => exact filing.elim
  | updateBundleMeta => exact filing.elim
  | setStatus => exact filing.elim
  | finishRegeneration => exact filing.elim
  | deleteBundle => exact filing.elim
  | upsertArtifact bundleId entry => exact (Sql.upsert_rows executed).1
  | upsertChunk bundleId chunk => exact upsertChunk_bundles executed
  | updatePath id relativePath name category =>
      simp only [execute, Sql.updatePath] at executed
      split at executed <;> cases executed
      rfl
  | _ =>
      cases executed
      rfl

theorem replay_bundles {log : List Statement} {database after : Database}
    (filing : ∀ statement ∈ log, statement.Filing)
    (replayed : replay database log = .ok after) : after.bundles = database.bundles := by
  induction log generalizing database with
  | nil =>
      cases replayed
      rfl
  | cons statement rest induction =>
      unfold replay at replayed
      split at replayed
      · rename_i executed
        have later := induction (fun other member => filing other (by simp [member])) replayed
        exact later.trans ((filing statement (by simp)).bundles executed)
      · cases replayed

theorem clear_of_ne {slug name : String} (other : name ≠ "artifacts.json") :
    Clear [slug, name] := by
  intro build within
  have same : [slug, name] = manifestPath build := within.eq_of_length rfl
  simp only [manifestPath, List.cons.injEq, and_true] at same
  exact other same.2

theorem clear_upload (slug : String) (number : Nat) : Clear (uploadPath slug number) :=
  clear_of_ne fun name => @uploadPath_ne "artifacts.json" (by decide) slug slug number
    (by rw [uploadPath, name])

theorem clear_files (slug : String) : Clear (filesPath slug) := clear_of_ne (by decide)

theorem Clear.ne {path : List String} (clear : Clear path) (slug : String) :
    manifestPath slug ≠ path := by
  rintro rfl
  exact clear slug (List.prefix_refl _)

theorem DiskCall.Free.spares {call : DiskCall} (free : call.Free) (slug : String) :
    call.Spares (manifestPath slug) := by
  cases call with
  | create path => exact free.ne slug
  | append path data => exact free.ne slug
  | rename source target => exact ⟨free.1 slug, free.2.ne slug⟩
  | removeFile path => exact free.ne slug
  | removeDirAll path => exact free slug
  | probe => exact free.elim
  | writeManifest => exact free.elim
  | _ => trivial

theorem Clear.below {path rest : List String} (clear : Clear path) : Clear (path ++ rest) :=
  fun slug within => clear slug ((List.prefix_append path rest).trans within)

theorem clear_joinFiles {filesRoot : List String} (clear : Clear filesRoot)
    (relativePath : String) : Clear (joinFiles filesRoot relativePath) := clear.below

section Parts

variable {state : State} {filesRoot : List String} {bundleId : Uuid}

abbrev Leaves {Reply : Type} (part : Handler Reply) (onOk : Reply → Prop) : Prop :=
  part.Meets (.footprint Operation.Free) (fun reply _ => onOk reply) (fun _ _ => True) ()

theorem leaves_query {statement : Statement} {onOk : statement.Reply → Prop}
    (free : (Operation.statement statement).Free) (answered : ∀ reply, onOk reply) :
    @Leaves statement.Reply (query statement) onOk := by
  refine (meets_query statement).mpr ⟨free, fun result => ?_⟩
  cases result with
  | ok reply => exact answered reply
  | error error => trivial

theorem leaves_io {call : DiskCall} {context : String} {onOk : call.Answer → Prop}
    (free : call.Free) (answered : ∀ answer, onOk answer) :
    @Leaves call.Answer (io call context) onOk := by
  refine (meets_io call context).mpr ⟨free, fun result => ?_⟩
  cases result with
  | ok answer => exact answered answer
  | error error => trivial

theorem leaves_attempt {call : DiskCall} {onOk : Except IoError call.Answer → Prop}
    (free : call.Free) (answered : ∀ result, onOk result) :
    @Leaves (Except IoError call.Answer) (attempt call) onOk := ⟨free, answered⟩

theorem leaves_pathExists {path : List String} {onOk : Bool → Prop}
    (answered : ∀ present, onOk present) : Leaves (pathExists path) onOk := by
  refine (meets_pathExists path).mpr ⟨trivial, fun result => ?_⟩
  cases result with
  | ok present => exact answered present
  | error error => exact answered false

theorem leaves_begin {onOk : Unit → Prop} (begun : onOk ()) : Leaves begin onOk := by
  refine meets_begin.mpr ⟨trivial, fun result => ?_⟩
  cases result with
  | ok reply => exact begun
  | error error => trivial

theorem leaves_inside {log : List Statement} {statement : Statement}
    {onOk : statement.Reply → Prop} (answered : ∀ reply, onOk reply) :
    @Leaves statement.Reply (inside log statement) onOk := by
  refine (meets_inside log statement).mpr ⟨trivial, fun result => ?_⟩
  cases result with
  | ok reply => exact answered reply
  | error error => trivial

theorem leaves_commit {log : List Statement} {onOk : Unit → Prop}
    (filing : ∀ statement ∈ log, statement.Filing) (committed : onOk ()) :
    Leaves (commit log) onOk := by
  refine (meets_commit log).mpr ⟨filing, fun result => ?_⟩
  cases result with
  | ok reply => exact committed
  | error error => trivial

theorem leaves_bind {Value Reply : Type} {first : Handler Value} {next : Value → Handler Reply}
    {onOk : Reply → Prop} (leaves : Leaves first fun value => Leaves (next value) onOk) :
    Leaves (first >>= next) onOk := (Fallible.meets_bind first next).mpr leaves

theorem leaves_then {Value Reply : Type} {first : Handler Value} {next : Value → Handler Reply}
    {ok : Value → Prop} {onOk : Reply → Prop} (leaves : Leaves first ok)
    (continued : ∀ value, ok value → Leaves (next value) onOk) :
    Leaves (first >>= next) onOk :=
  leaves_bind (leaves.mono (fun value _ => continued value) fun _ _ _ => trivial)

theorem leaves_lift {Value : Type} {result : Except AppError Value} {onOk : Value → Prop}
    (lifted : ∀ value, result = .ok value → onOk value) :
    Leaves (Fallible.lift result) onOk :=
  (Fallible.meets_lift _).mpr ⟨fun _ _ => trivial, lifted⟩

theorem leaves_refuse {condition : Bool} {error : AppError} {onOk : Unit → Prop}
    (passed : onOk ()) : Leaves (Fallible.refuse condition error) onOk :=
  (Fallible.meets_refuse _ _).mpr ⟨fun _ => trivial, fun _ => passed⟩

theorem leaves_okOr {Value : Type} {value : Option Value} {error : AppError}
    {onOk : Value → Prop} (present : ∀ found, value = some found → onOk found) :
    Leaves (Fallible.okOr value error) onOk :=
  (Fallible.meets_okOr _ _).mpr ⟨fun _ => trivial, present⟩

theorem leaves_observe {Reply : Type} {body : Handler Reply} {ok : Reply → Prop}
    (leaves : Leaves body ok) : Leaves (observe body) fun _ => True :=
  (meets_observe body).mpr (leaves.mono (fun _ _ _ => trivial) fun _ _ _ => trivial)

/-! ## Extraction -/

theorem copyEntry_leaves (entry : ZipEntry) (safe : String) {path : List String}
    (clear : Clear path) : Leaves (copyEntry entry safe path) fun _ => True := by
  unfold copyEntry
  refine leaves_bind (leaves_io clear fun _ => ?_)
  cases entry.failure <;> trivial

theorem placeEntry_leaves (entry : ZipEntry) (safe : String) {path : List String}
    (clear : Clear path) : Leaves (placeEntry entry safe path) fun _ => True := by
  unfold placeEntry
  split
  · exact leaves_io trivial fun _ => trivial
  · refine leaves_bind (leaves_io trivial fun _ => leaves_bind (leaves_io clear fun _ => ?_))
    exact copyEntry_leaves entry safe clear

theorem extractEntry_leaves (clear : Clear filesRoot) (total : Nat) (slot : ZipSlot) :
    Leaves (extractEntry filesRoot total slot) fun _ => True := by
  cases slot with
  | error failure => trivial
  | ok entry =>
      refine leaves_bind (leaves_lift fun path _ => ?_)
      cases path with
      | none => trivial
      | some safe =>
          refine leaves_bind (leaves_refuse (leaves_bind (leaves_refuse ?_)))
          exact leaves_then (placeEntry_leaves entry safe (clear_joinFiles clear safe))
            fun _ _ => trivial

theorem extractEntries_leaves (clear : Clear filesRoot) (total : Nat) (slots : List ZipSlot) :
    Leaves (extractEntries filesRoot total slots) fun _ => True := by
  induction slots generalizing total with
  | nil => trivial
  | cons slot rest induction =>
      exact leaves_then (extractEntry_leaves clear total slot) fun declared _ => induction declared

theorem extractZip_leaves (clear : Clear filesRoot) (archive : List String) :
    Leaves (extractZip state archive filesRoot) fun _ => True := by
  unfold extractZip
  refine leaves_bind (leaves_io trivial fun bytes => leaves_bind (leaves_lift fun slots _ => ?_))
  exact extractEntries_leaves clear 0 slots

theorem refusedFolders_leaves (found : List (List String × Node Bytes)) :
    Leaves (refusedFolders filesRoot found) fun _ => True := by
  induction found with
  | nil => trivial
  | cons item rest induction =>
      obtain ⟨inside, file | _⟩ := item
      · exact induction
      · refine leaves_bind (leaves_attempt trivial fun read => ?_)
        apply leaves_then induction
        intro refused _
        cases read <;> trivial

theorem scanDirectory_leaves : Leaves (scanDirectory state filesRoot) fun _ => True := by
  unfold scanDirectory
  refine leaves_bind (leaves_pathExists fun present => ?_)
  split
  · refine leaves_bind (leaves_io trivial fun found => ?_)
    exact leaves_then (refusedFolders_leaves _) fun _ _ => trivial
  · trivial

theorem hashFile_leaves (path : List String) : Leaves (hashFile state path) fun _ => True := by
  unfold hashFile
  refine leaves_bind (leaves_attempt trivial fun result => ?_)
  cases result <;> trivial

/-! ## Uploads -/

theorem ensureBuildDir_leaves (slug context : String) :
    Leaves (ensureBuildDir slug context) fun _ => True := leaves_io trivial fun _ => trivial

theorem tempUpload_leaves (slug : String) : Leaves (tempUpload slug) Clear := by
  unfold tempUpload
  refine leaves_bind (leaves_io trivial fun _ => ?_)
  exact leaves_bind ⟨trivial, fun number => clear_upload slug number⟩

theorem dropUpload_leaves {path : List String} (clear : Clear path) :
    Leaves (dropUpload path) fun _ => True :=
  leaves_bind (leaves_attempt clear fun _ => trivial)

theorem writeChunks_leaves {path : List String} (clear : Clear path) (written : Nat)
    (chunks : List Bytes) : Leaves (writeChunks path written chunks) fun _ => True := by
  induction chunks generalizing written with
  | nil => trivial
  | cons chunk rest induction =>
      refine leaves_bind (leaves_refuse (leaves_bind (leaves_io clear fun _ => ?_)))
      exact induction _

theorem streamFieldToFile_leaves {path : List String} (clear : Clear path) (field : Field) :
    Leaves (streamFieldToFile field path) fun _ => True := by
  unfold streamFieldToFile
  refine leaves_bind (leaves_io clear fun _ => ?_)
  refine leaves_then (writeChunks_leaves clear 0 field.chunks) fun _ _ => ?_
  cases field.failure <;> trivial

theorem streamArchive_leaves {path : List String} (clear : Clear path) (fields : List Field) :
    Leaves (streamArchive path fields) fun _ => True := by
  induction fields with
  | nil => trivial
  | cons field rest induction =>
      unfold streamArchive
      split
      · exact leaves_then (streamFieldToFile_leaves clear field) fun _ _ => trivial
      · exact induction

theorem readUploadField_leaves {path : List String} (clear : Clear path) (parts : UploadParts)
    (field : Field) : Leaves (readUploadField path parts field) fun _ => True := by
  unfold readUploadField
  split
  · exact leaves_then (streamFieldToFile_leaves clear field) fun _ _ => trivial
  · split
    · split <;> trivial
    · trivial

theorem readUploadParts_leaves {path : List String} (clear : Clear path) (parts : UploadParts)
    (fields : List Field) : Leaves (readUploadParts path parts fields) fun _ => True := by
  induction fields generalizing parts with
  | nil => trivial
  | cons field rest induction =>
      exact leaves_then (readUploadField_leaves clear parts field) fun more _ => induction more

theorem prepareUpload_leaves {path : List String} (clear : Clear path) (multipart : Multipart) :
    Leaves (prepareUpload filesRoot multipart path) fun _ => True := by
  unfold prepareUpload
  refine leaves_then (readUploadParts_leaves clear _ multipart.fields) fun parts _ => ?_
  refine leaves_bind (leaves_lift fun _ _ => leaves_bind (leaves_okOr fun size _ => ?_))
  refine leaves_bind (leaves_okOr fun raw _ => leaves_bind (leaves_lift fun normalized _ => ?_))
  exact leaves_bind (leaves_io trivial fun _ => trivial)

theorem clearFiles_leaves (clear : Clear filesRoot) :
    Leaves (clearFiles filesRoot) fun _ => True := by
  unfold clearFiles
  refine leaves_bind (leaves_pathExists fun present => ?_)
  split
  · exact leaves_io clear fun _ => trivial
  · trivial

/-! ## Rows -/

theorem insideAll_leaves {log statements : List Statement} {onOk : List Statement → Prop}
    (ended : onOk (log ++ statements)) : Leaves (insideAll log statements) onOk := by
  induction statements generalizing log with
  | nil =>
      rw [List.append_nil] at ended
      exact ended
  | cons statement rest induction =>
      refine leaves_bind (leaves_inside fun _ => induction ?_)
      rw [List.append_assoc]
      exact ended

theorem upsertScan_leaves (scan : List ScanEntry) :
    Leaves (upsertScan bundleId scan) fun _ => True := by
  unfold upsertScan
  refine leaves_bind (leaves_begin (leaves_bind (insideAll_leaves (leaves_bind
    (insideAll_leaves (leaves_commit ?_ trivial))))))
  intro statement member
  simp only [List.nil_append, List.mem_append, List.mem_flatMap, List.mem_singleton] at member
  rcases member with ⟨chunk, -, among⟩ | rfl
  · unfold upsertArtifactChunk at among
    split at among
    · cases among
    · rw [List.mem_singleton.mp among]
      trivial
  · trivial

theorem upsertFolders_leaves (paths : List String) :
    Leaves (upsertFolders bundleId paths) fun _ => True := by
  induction paths with
  | nil => trivial
  | cons path rest induction => exact leaves_bind (leaves_query trivial fun _ => induction)

theorem artifactInBundle_leaves (entryId : Uuid) :
    Leaves (artifactInBundle bundleId entryId) fun _ => True := by
  unfold artifactInBundle
  exact leaves_bind (leaves_query trivial fun _ => leaves_okOr fun _ _ => trivial)

theorem deleteEntryRows_filing (entry : BundleArtifact) {statement : Statement}
    (member : statement ∈ deleteEntryRows bundleId entry) : statement.Filing := by
  unfold deleteEntryRows at member
  split at member
  · simp only [List.singleton_append, List.mem_cons, List.not_mem_nil, or_false] at member
    rcases member with rfl | rfl <;> trivial
  · simp only [List.nil_append, List.mem_singleton] at member
    subst member
    trivial

theorem resolveDeletions_leaves (ids : List Uuid) :
    Leaves (resolveDeletions bundleId ids) fun _ => True := by
  induction ids with
  | nil => trivial
  | cons id rest induction =>
      refine leaves_bind (leaves_query trivial fun found => ?_)
      cases found with
      | none => exact induction
      | some entry =>
          exact leaves_bind (leaves_refuse (leaves_then induction fun _ _ => trivial))

theorem unlinkEntry_leaves (clear : Clear filesRoot) (entry : BundleArtifact) :
    Leaves (unlinkEntry filesRoot entry) fun _ => True := by
  have path := clear_joinFiles clear entry.relativePath
  unfold unlinkEntry
  refine leaves_bind (leaves_pathExists fun present => ?_)
  split
  · refine leaves_bind (leaves_attempt ?_ fun _ => trivial)
    split <;> exact path
  · trivial

theorem unlinkEntries_leaves (clear : Clear filesRoot) (entries : List BundleArtifact) :
    Leaves (unlinkEntries filesRoot entries) fun _ => True := by
  induction entries with
  | nil => trivial
  | cons entry rest induction =>
      exact leaves_then (unlinkEntry_leaves clear entry) fun _ _ => induction

/-! ## Moves -/

def FilingLog (log : List Statement) : Prop := ∀ statement ∈ log, statement.Filing

theorem FilingLog.append {log statements : List Statement} (filing : FilingLog log)
    (more : FilingLog statements) : FilingLog (log ++ statements) := by
  intro statement member
  rcases List.mem_append.mp member with old | new
  · exact filing statement old
  · exact more statement new

theorem movedChild_filing (oldRel newRel : String) (children : List BundleArtifact) :
    FilingLog (children.filterMap (movedChild oldRel newRel)) := by
  intro statement member
  obtain ⟨child, -, moved⟩ := List.mem_filterMap.mp member
  obtain ⟨suffix, -, rfl⟩ := Option.map_eq_some_iff.mp moved
  trivial

theorem moveRows_leaves {log : List Statement} (filing : FilingLog log) (oldRel newRel : String)
    (isDir : Bool) : Leaves (moveRows log bundleId oldRel newRel isDir) FilingLog := by
  unfold moveRows
  refine leaves_bind (leaves_inside fun found => leaves_bind (leaves_okOr fun id _ => ?_))
  have moved : FilingLog (log ++ [.updatePath id newRel (splitRelativePath newRel).1
      (splitRelativePath newRel).2]) := by
    refine filing.append fun statement member => ?_
    rw [List.mem_singleton.mp member]
    trivial
  refine leaves_bind (insideAll_leaves ?_)
  split
  · refine leaves_bind (leaves_inside fun children => insideAll_leaves ?_)
    exact moved.append (movedChild_filing oldRel newRel children)
  · exact moved

theorem moveOnDisk_leaves (clear : Clear filesRoot) (oldRel newRel : String) :
    Leaves (moveOnDisk filesRoot oldRel newRel) fun _ => True := by
  unfold moveOnDisk
  refine leaves_bind (leaves_pathExists fun present => ?_)
  split
  · exact leaves_bind (leaves_io trivial fun _ =>
      leaves_io ⟨clear_joinFiles clear oldRel, clear_joinFiles clear newRel⟩ fun _ => trivial)
  · trivial

theorem checkDestinationFree_leaves (log : List Statement) (newRel : String) (isDir : Bool) :
    Leaves (checkDestinationFree log bundleId newRel isDir) fun _ => True := by
  unfold checkDestinationFree
  refine leaves_bind (leaves_inside fun _ => leaves_bind (leaves_refuse ?_))
  split
  · exact leaves_bind (leaves_inside fun _ => leaves_refuse trivial)
  · trivial

theorem moveOne_leaves (clear : Clear filesRoot) {log : List Statement} (filing : FilingLog log)
    (entry : BundleArtifact) (newRel : String) :
    Leaves (moveOne bundleId filesRoot log entry newRel) FilingLog := by
  unfold moveOne moveSubtree
  refine leaves_then (checkDestinationFree_leaves log newRel entry.isDir) fun _ _ => ?_
  refine leaves_then (moveRows_leaves filing _ newRel entry.isDir) fun log moved => ?_
  exact leaves_then (moveOnDisk_leaves clear _ newRel) fun _ _ => moved

theorem applyMove_leaves (bundle : Bundle) (entry : BundleArtifact) (newRel : String) :
    Leaves (applyMove bundle entry newRel) fun _ => True := by
  unfold applyMove
  refine leaves_bind (leaves_lift fun _ _ => leaves_bind (leaves_pathExists fun _ => ?_))
  refine leaves_bind (leaves_refuse (leaves_bind (leaves_begin ?_)))
  exact leaves_then (moveOne_leaves (clear_files bundle.slug) (by simp [FilingLog]) entry newRel)
    fun log moved => leaves_commit moved trivial

theorem resolveMoves_leaves (targetDir : String) (ids : List Uuid) :
    Leaves (resolveMoves bundleId targetDir ids) fun _ => True := by
  induction ids with
  | nil => trivial
  | cons id rest induction =>
      refine leaves_then (artifactInBundle_leaves id) fun entry _ => ?_
      generalize joinTargetDir targetDir entry.name = target
      refine leaves_bind (leaves_lift fun _ _ => leaves_bind (leaves_lift fun _ _ => ?_))
      exact leaves_then induction fun _ _ => trivial

theorem moveAll_leaves (clear : Clear filesRoot) {log : List Statement} (filing : FilingLog log)
    (moves : List (BundleArtifact × String)) :
    Leaves (moveAll bundleId filesRoot log moves) FilingLog := by
  induction moves generalizing log with
  | nil => exact filing
  | cons move rest induction =>
      exact leaves_then (moveOne_leaves clear filing move.1 move.2) fun log moved =>
        induction moved

theorem moveBatch_leaves (clear : Clear filesRoot) (moves : List (BundleArtifact × String)) :
    Leaves (moveBatch bundleId filesRoot moves) fun _ => True := by
  unfold moveBatch
  exact leaves_then (moveAll_leaves clear (by simp [FilingLog]) moves) fun log moved =>
    leaves_commit moved trivial

end Parts

end Loontail.Bundles
