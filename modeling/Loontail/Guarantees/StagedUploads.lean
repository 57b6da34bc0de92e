import Loontail.Bundles.Extraction
import Loontail.Bundles.TidyOperations
import Loontail.Concurrency.Evaluate
import Loontail.Guarantees.RecordedHashes

/-! # Whether an upload leaves its staged file behind

The file is dropped with the guard that owns it. The guard is given up before the file
is renamed into place, so a rename that is refused leaves it. -/

namespace Loontail.Bundles

open Concurrency Disk

/-! ## What becomes of the staged file -/

def consumes (path : List String) : Event registry → Bool
  | ⟨_, _, .disk (.rename source _), _, _⟩ => source = path
  | ⟨_, _, .disk (.removeFile other), _, _⟩ => other = path
  | _ => false

def strands (path : List String) : Event registry → Bool
  | ⟨_, before, .disk _, .error _, _⟩ => before.disk.present path
  | _ => false

/-- The last call that was to take the file away has left it. -/
def stranded (path : List String) (events : List (Event registry)) : Bool :=
  (events.find? (consumes path)).any (strands path)

def Unstaged (slug : String) (before after : Service) : Prop :=
  ∀ number, before.disk.find (uploadPath slug number) = none →
    after.disk.find (uploadPath slug number) = none

/-- A staged file is left exactly where the last call that was to take it away left it. -/
def Settled (slug : String) (before : Service) (now : Service × List (Event registry)) : Prop :=
  Unstaged slug before now.1 ↔ stranded (uploadPath slug before.uploads) now.2 = false

/-! ## Calls beside the staged files -/

def DiskCall.Clear (path : List String) : DiskCall → Prop
  | createDirAll other => ¬path <+: other
  | create other => path ≠ other
  | append other _ => path ≠ other
  | rename source target => ¬source <+: path ∧ ¬target <+: path
  | removeFile other => path ≠ other
  | removeDirAll other => ¬other <+: path
  | writeManifest slug _ => ¬path <+: buildPath slug ∧ ¬stagedManifestPath slug <+: path ∧
      ¬manifestPath slug <+: path
  | _ => True

theorem DiskCall.Clear.find {path : List String} {call : DiskCall} (clear : call.Clear path)
    (disk : Builds) : (call.perform disk).2.find path = disk.find path := by
  cases call with
  | createDirAll other => exact settle_find fun _ made => Tree.createDirAll_apart made clear
  | create other => exact settle_find fun _ made => Tree.writeFile_keeps made clear
  | append other data => exact settle_find fun _ made => appended_keeps made clear
  | rename source target =>
      exact settle_find fun _ made => Tree.rename_apart made clear.1 clear.2
  | removeFile other => exact settle_find fun _ made => Tree.removeFile_keeps made clear
  | removeDirAll other => exact settle_find fun _ made => Tree.removeDirAll_keeps made clear
  | writeManifest slug json =>
      obtain ⟨folder, staged, manifest⟩ := clear
      simp only [DiskCall.perform, replaceManifest]
      split
      · rfl
      · rename_i made created
        have first := Tree.createDirAll_apart created folder
        split
        · exact first
        · rename_i staging written
          refine (settle_find fun after renamed => ?_).trans ?_
          · exact Tree.rename_apart renamed staged manifest
          · refine (Tree.writeFile_keeps written ?_).trans first
            rintro rfl
            exact staged (List.prefix_refl _)
  | _ => rfl

def Operation.Beside (slug : String) : Operation → Prop
  | .newUpload => False
  | .disk call => ∀ number, call.Clear (uploadPath slug number)
  | _ => True

def DiskCall.Works (path : List String) : DiskCall → Prop
  | create other => other = path
  | append other _ => other = path
  | removeFile other => other = path
  | _ => False

def Operation.Stages (slug : String) (number : Nat) (operation : Operation) : Prop :=
  (∃ call : DiskCall, operation = .disk call ∧ call.Works (uploadPath slug number)) ∨
    operation.Beside slug

section Paths

variable {slug : String}

theorem upload_not_build (slug other : String) (number : Nat) :
    ¬uploadPath slug number <+: buildPath other := by
  intro within
  have short := within.length_le
  simp [uploadPath, buildPath] at short

theorem sibling_not_upload {name : String} (plain : name.toList.head? ≠ some 'u')
    (slug other : String) (number : Nat) : ¬[other, name] <+: uploadPath slug number := by
  intro within
  exact uploadPath_ne plain slug other number (within.eq_of_length rfl).symm

theorem ne_upload_of_inner {path : List String} (inner : Inner (filesPath slug) path)
    (number : Nat) : uploadPath slug number ≠ path := by
  obtain ⟨rest, -, rfl⟩ := inner
  exact upload_idle slug number rest

end Paths

/-! ## Parts beside the staged files -/

section Beside

variable {slug : String} {state : State} {bundle : Bundle}

theorem beside_folder {path : List String} (inside : filesPath slug <+: path) :
    (Operation.disk (.createDirAll path)).Beside slug := by
  intro number
  obtain ⟨rest, rfl⟩ := inside
  exact upload_not_within_files slug slug number rest

theorem Operation.Inside.beside {operation : Operation}
    (inside : operation.Inside (filesPath slug)) : operation.Beside slug := by
  cases operation with
  | disk call =>
      cases call with
      | createDirAll path => exact beside_folder (Inner.within inside)
      | create path => exact ne_upload_of_inner inside
      | append path data => exact ne_upload_of_inner inside
      | _ => exact inside.elim
  | _ => exact inside.elim

theorem beside_manifest (slug other : String) (json : Bytes) :
    (Operation.disk (.writeManifest other json)).Beside slug := fun number =>
  ⟨upload_not_build slug other number, sibling_not_upload (by decide) slug other number,
    sibling_not_upload (by decide) slug other number⟩

theorem regenerateManifest_beside : Takes (Operation.Beside slug) (regenerateManifest state bundle) := by
  unfold regenerateManifest
  refine takes_bind (takes_query trivial) fun artifacts => ?_
  refine takes_bind (takes_io _ fun _ => trivial) fun present => ?_
  refine takes_bind (takes_io _ (beside_manifest slug _ _)) fun _ => ?_
  exact takes_query trivial

theorem insideAll_beside (log statements : List Statement) :
    Takes (Operation.Beside slug) (insideAll log statements) := by
  induction statements generalizing log with
  | nil => trivial
  | cons statement rest induction =>
      exact takes_bind (takes_inside trivial) fun _ => induction _

theorem upsertScan_beside (bundleId : Uuid) (scan : List ScanEntry) :
    Takes (Operation.Beside slug) (upsertScan bundleId scan) := by
  unfold upsertScan
  refine takes_bind (takes_begin trivial) fun _ => ?_
  refine takes_bind (insideAll_beside _ _) fun _ => ?_
  exact takes_bind (insideAll_beside _ _) fun _ => takes_commit trivial

theorem refusedFolders_beside {filesRoot : List String}
    (found : List (List String × Node Bytes)) :
    Takes (Operation.Beside slug) (refusedFolders filesRoot found) := by
  induction found with
  | nil => trivial
  | cons item rest induction =>
      obtain ⟨inside, content | _⟩ := item
      · exact induction
      · refine takes_bind (takes_attempt fun _ => trivial) fun read => ?_
        apply takes_bind induction
        intro refused
        cases read <;> trivial

theorem scanDirectory_beside (filesRoot : List String) :
    Takes (Operation.Beside slug) (scanDirectory state filesRoot) := by
  unfold scanDirectory
  refine takes_bind (takes_pathExists fun _ => trivial) fun there => ?_
  split
  · refine takes_bind (takes_io _ fun _ => trivial) fun found => ?_
    exact takes_bind (refusedFolders_beside _) fun _ => trivial
  · trivial

theorem hashFile_beside (path : List String) :
    Takes (Operation.Beside slug) (hashFile state path) := by
  unfold hashFile
  refine takes_bind (takes_attempt fun _ => trivial) fun result => ?_
  cases result <;> trivial

theorem clearFiles_beside : Takes (Operation.Beside slug) (clearFiles (filesPath slug)) := by
  unfold clearFiles
  refine takes_bind (takes_pathExists fun _ => trivial) fun there => ?_
  split
  · exact takes_io _ fun number => sibling_not_upload (by decide) slug slug number
  · trivial

end Beside

/-! ## Parts that work on the staged file -/

section Stages

variable {slug : String} {number : Nat} {state : State} {bundle : Bundle}

theorem stages_of_works {call : DiskCall} (works : call.Works (uploadPath slug number)) :
    (Operation.disk call).Stages slug number := .inl ⟨call, rfl, works⟩

theorem Takes.stages {Reply : Type} {part : Handler Reply}
    (beside : Takes (Operation.Beside slug) part) : Takes (Operation.Stages slug number) part :=
  beside.mono fun _ => .inr

theorem writeChunks_stages (written : Nat) (chunks : List Bytes) :
    Takes (Operation.Stages slug number) (writeChunks (uploadPath slug number) written chunks) := by
  induction chunks generalizing written with
  | nil => trivial
  | cons chunk rest induction =>
      unfold writeChunks
      refine takes_bind (takes_refuse _ _) fun _ => ?_
      exact takes_bind (takes_io _ (stages_of_works rfl)) fun _ => induction _

theorem streamFieldToFile_stages (field : Field) :
    Takes (Operation.Stages slug number) (streamFieldToFile field (uploadPath slug number)) := by
  unfold streamFieldToFile
  refine takes_bind (takes_io _ (stages_of_works rfl)) fun _ => ?_
  refine takes_bind (writeChunks_stages 0 field.chunks) fun _ => ?_
  split <;> trivial

theorem streamArchive_stages (fields : List Field) :
    Takes (Operation.Stages slug number) (streamArchive (uploadPath slug number) fields) := by
  induction fields with
  | nil => trivial
  | cons field rest induction =>
      unfold streamArchive
      split
      · exact takes_bind (streamFieldToFile_stages field) fun _ => trivial
      · exact induction

theorem ingestArchive_stages : Takes (Operation.Stages bundle.slug number)
    (ingestArchive state bundle (uploadPath bundle.slug number)) := by
  have extracted : Takes (Operation.Stages bundle.slug number)
      (extractZip state (uploadPath bundle.slug number) (filesPath bundle.slug)) :=
    takes_bind (takes_io _ (.inr fun _ => trivial)) fun bytes =>
      Takes.mono (unpackInto_within state _ bytes) fun _ inside => .inr inside.beside
  unfold ingestArchive
  refine takes_bind clearFiles_beside.stages fun _ => ?_
  refine takes_bind (takes_io _ (.inr (beside_folder (List.prefix_refl _)))) fun _ => ?_
  refine takes_bind extracted fun _ => ?_
  refine takes_bind (takes_attempt (stages_of_works rfl)) fun _ => ?_
  refine takes_bind (scanDirectory_beside _).stages fun scan => ?_
  refine takes_bind (upsertScan_beside _ scan).stages fun _ => ?_
  exact regenerateManifest_beside.stages

theorem failing_stages {work : Handler Bundle} (id : Uuid)
    (takes : Takes (Operation.Stages slug number) work) :
    Takes (Operation.Stages slug number) (failing state id work) := by
  refine takes_bind (takes_observe takes) fun result => ?_
  cases result with
  | ok refreshed => trivial
  | error error => exact takes_bind (takes_query (.inr trivial)) fun _ => trivial

theorem receiveArchive_stages (multipart : Multipart) : Takes (Operation.Stages bundle.slug number)
    (receiveArchive state bundle multipart (uploadPath bundle.slug number)) := by
  unfold receiveArchive
  refine takes_bind (streamArchive_stages _) fun haveArchive => ?_
  split
  · refine takes_bind (takes_query (.inr trivial)) fun _ => ?_
    exact failing_stages bundle.id ingestArchive_stages
  · exact takes_bind (takes_lift _) fun _ => trivial

theorem readUploadField_stages (parts : UploadParts) (field : Field) :
    Takes (Operation.Stages slug number)
      (readUploadField (uploadPath slug number) parts field) := by
  unfold readUploadField
  split
  · exact takes_bind (streamFieldToFile_stages field) fun _ => trivial
  · split
    · split <;> trivial
    · trivial

theorem readUploadParts_stages (parts : UploadParts) (fields : List Field) :
    Takes (Operation.Stages slug number)
      (readUploadParts (uploadPath slug number) parts fields) := by
  induction fields generalizing parts with
  | nil => trivial
  | cons field rest induction =>
      exact takes_bind (readUploadField_stages parts field) fun parts => induction parts

theorem prepareUpload_stages (multipart : Multipart) : Takes (Operation.Stages slug number)
    (prepareUpload (filesPath slug) multipart (uploadPath slug number)) := by
  unfold prepareUpload
  refine takes_bind (readUploadParts_stages _ _) fun parts => ?_
  refine takes_bind (takes_lift _) fun _ => ?_
  refine takes_bind (takes_okOr _ _) fun size => ?_
  refine takes_bind (takes_okOr _ _) fun raw => ?_
  refine takes_bind (takes_lift _) fun normalized => ?_
  refine takes_bind (takes_io _ (.inr (beside_folder ?_))) fun _ => trivial
  rw [joinFiles, List.dropLast_append_of_ne_nil (segments_ne_nil normalized)]
  exact List.prefix_append _ _

end Stages

/-! ## What the parts leave -/

section Runs

variable {slug : String} {number index : Nat} {state : State} {bundle : Bundle}
  {before : Service} {base now : Service × List (Event registry)}

structure Undisturbed (slug : String) (base now : Service × List (Event registry)) : Prop where
  uploads : now.1.uploads = base.1.uploads
  staged : ∀ number,
    now.1.disk.find (uploadPath slug number) = base.1.disk.find (uploadPath slug number)
  consumed : ∀ number, now.2.find? (consumes (uploadPath slug number)) =
    base.2.find? (consumes (uploadPath slug number))

theorem Undisturbed.refl (slug : String) (base : Service × List (Event registry)) :
    Undisturbed slug base base := ⟨rfl, fun _ => rfl, fun _ => rfl⟩

theorem Undisturbed.trans {middle : Service × List (Event registry)}
    (first : Undisturbed slug base middle) (second : Undisturbed slug middle now) :
    Undisturbed slug base now where
  uploads := second.uploads.trans first.uploads
  staged := fun number => (second.staged number).trans (first.staged number)
  consumed := fun number => (second.consumed number).trans (first.consumed number)

structure Held (slug : String) (number : Nat) (before now : Service) : Prop where
  others : ∀ other, other ≠ number →
    now.disk.find (uploadPath slug other) = before.disk.find (uploadPath slug other)
  mine : ∀ node, now.disk.find (uploadPath slug number) = some node →
    now.disk.isFile (uploadPath slug number) = true

theorem beside_occurs {operation : Operation} (beside : operation.Beside slug)
    {result : operation.Result} {middle after : Service}
    (occurs : registry.Occurs middle operation result after) :
    after.uploads = middle.uploads ∧ ∀ number,
      after.disk.find (uploadPath slug number) = middle.disk.find (uploadPath slug number) := by
  cases operation with
  | statement statement =>
      rcases occurs_statement occurs with ⟨_, _, -, -, rfl⟩ | ⟨_, -, rfl⟩
      · exact ⟨rfl, fun _ => rfl⟩
      · exact ⟨rfl, fun _ => rfl⟩
  | begin => exact occurs_begin occurs ▸ ⟨rfl, fun _ => rfl⟩
  | inside log statement => exact (occurs_inside occurs).1 ▸ ⟨rfl, fun _ => rfl⟩
  | commit log =>
      rcases occurs_commit occurs with ⟨_, -, -, rfl⟩ | ⟨_, -, rfl⟩
      · exact ⟨rfl, fun _ => rfl⟩
      · exact ⟨rfl, fun _ => rfl⟩
  | newUpload => exact beside.elim
  | disk call =>
      rcases occurs_disk occurs with ⟨-, rfl⟩ | ⟨-, rfl⟩
      · exact ⟨rfl, fun number => (beside number).find middle.disk⟩
      · exact ⟨rfl, fun _ => rfl⟩

theorem beside_not_consumes {operation : Operation} (beside : operation.Beside slug)
    (result : operation.Result) (middle after : Service) (number : Nat) :
    consumes (uploadPath slug number) ⟨index, middle, operation, result, after⟩ = false := by
  cases operation with
  | disk call =>
      cases call with
      | rename source target =>
          apply decide_eq_false
          rintro rfl
          exact (beside number).1 (List.prefix_refl _)
      | removeFile path => exact decide_eq_false fun same => beside number same.symm
      | _ => rfl
  | _ => rfl

theorem beside_keeps {operation : Operation} (beside : operation.Beside slug) :
    (Logic.recorded registry index).Keeps (Undisturbed slug base) operation := by
  intro situation quiet post holds result after occurs
  obtain ⟨uploads, staged⟩ := beside_occurs beside occurs
  refine holds _ _ ⟨uploads.trans quiet.uploads, fun number => ?_, fun number => ?_⟩
  · exact (staged number).trans (quiet.staged number)
  · rw [List.find?_cons_of_neg (by simp [beside_not_consumes beside])]
    exact quiet.consumed number

theorem Takes.quiet {Reply : Type} {part : Handler Reply}
    (takes : Takes (Operation.Beside slug) part) (base : Service × List (Event registry)) :
    part.Meets (.recorded registry index) (fun _ => Undisturbed slug base) (fun _ => Undisturbed slug base)
      base :=
  Fallible.Meets.keeping takes (fun _ => beside_keeps) (.refl slug base) (fun _ _ _ kept => kept)
    fun _ _ _ kept => kept

theorem uploadPath_other {other : Nat} (different : other ≠ number) :
    uploadPath slug other ≠ uploadPath slug number := fun same =>
  different (uploadPath_injective same).2

theorem Held.performed {middle : Service} (held : Held slug number before middle)
    {call : DiskCall} (works : call.Works (uploadPath slug number)) :
    Held slug number before { middle with disk := (call.perform middle.disk).2 } := by
  cases call with
  | create path =>
      subst works
      refine ⟨fun other different => ?_, fun node found => ?_⟩
      · refine (DiskCall.settle_find fun after made => ?_).trans (held.others other different)
        exact Tree.writeFile_keeps made (uploadPath_other different)
      · rcases DiskCall.settle_cases middle.disk (middle.disk.writeFile (uploadPath slug number) [])
          with ⟨tree, made, settled⟩ | ⟨error, -, settled⟩
        · apply Tree.isFile_iff.mpr
          refine ⟨[], ?_⟩
          simp only [DiskCall.perform, settled]
          rw [(Tree.writeFile_ok made).1, Tree.withFile, if_pos rfl]
        · simp only [DiskCall.perform, settled] at found ⊢
          exact held.mine node found
  | append path data =>
      subst works
      refine ⟨fun other different => ?_, fun node found => ?_⟩
      · refine (DiskCall.settle_find fun after made => ?_).trans (held.others other different)
        exact DiskCall.appended_keeps made (uploadPath_other different)
      · rcases DiskCall.settle_cases middle.disk
          (DiskCall.appended middle.disk (uploadPath slug number) data) with
          ⟨tree, made, settled⟩ | ⟨error, -, settled⟩
        · simp only [DiskCall.perform, settled] at found ⊢
          unfold DiskCall.appended at made
          split at made
          · rename_i content there
            apply Tree.isFile_iff.mpr
            refine ⟨content ++ data, ?_⟩
            rw [(Tree.writeFile_ok made).1, Tree.withFile, if_pos rfl]
          · cases made
            exact held.mine node found
        · simp only [DiskCall.perform, settled] at found ⊢
          exact held.mine node found
  | removeFile path =>
      subst works
      refine ⟨fun other different => ?_, fun node found => ?_⟩
      · refine (DiskCall.settle_find fun after made => ?_).trans (held.others other different)
        exact Tree.removeFile_keeps made (uploadPath_other different)
      · rcases DiskCall.settle_cases middle.disk (middle.disk.removeFile (uploadPath slug number))
          with ⟨tree, made, settled⟩ | ⟨error, -, settled⟩
        · simp only [DiskCall.perform, settled] at found
          rw [(Tree.removeFile_ok made).1, Tree.withoutFile, if_pos rfl] at found
          cases found
        · simp only [DiskCall.perform, settled] at found ⊢
          exact held.mine node found
  | _ => exact works.elim

theorem stages_keeps {operation : Operation} (stages : operation.Stages slug number) :
    (Logic.recorded registry index).Keeps (fun now => Held slug number before now.1)
      operation := by
  intro situation held post holds result after occurs
  apply holds
  rcases stages with ⟨call, rfl, works⟩ | beside
  · rcases occurs_disk occurs with ⟨-, rfl⟩ | ⟨-, rfl⟩
    · exact held.performed works
    · exact held
  · obtain ⟨-, staged⟩ := beside_occurs beside occurs
    refine ⟨fun other different => (staged other).trans (held.others other different), ?_⟩
    intro node found
    rw [staged number] at found
    unfold Tree.isFile
    rw [staged number]
    exact held.mine node found

theorem Takes.held {Reply : Type} {part : Handler Reply}
    (takes : Takes (Operation.Stages slug number) part) (held : Held slug number before base.1) :
    part.Meets (.recorded registry index) (fun _ now => Held slug number before now.1)
      (fun _ now => Held slug number before now.1) base :=
  Fallible.Meets.keeping takes (fun _ => stages_keeps) held (fun _ _ _ kept => kept)
    fun _ _ _ kept => kept

/-! ## The end of the staged file -/

theorem Settled.quiet (settled : Settled slug before base) (quiet : Undisturbed slug base now) :
    Settled slug before now := by
  unfold Settled Unstaged stranded at settled ⊢
  simp only [quiet.staged, quiet.consumed]
  exact settled

theorem settled_start (slug : String) (before : Service) : Settled slug before (before, []) :=
  ⟨fun _ => rfl, fun _ _ vacant => vacant⟩

theorem settled_consumed (fresh : before.disk.find (uploadPath slug before.uploads) = none)
    {event : Event registry} {older : List (Event registry)}
    (held : Held slug before.uploads before event.before)
    (consumed : consumes (uploadPath slug before.uploads) event = true) {after : Service}
    (others : ∀ other, other ≠ before.uploads → after.disk.find (uploadPath slug other) =
      event.before.disk.find (uploadPath slug other))
    (decided : after.disk.find (uploadPath slug before.uploads) = none ↔
      strands (uploadPath slug before.uploads) event = false) :
    Settled slug before (after, event :: older) := by
  have unstaged : Unstaged slug before after ↔
      after.disk.find (uploadPath slug before.uploads) = none := by
    refine ⟨fun free => free _ fresh, fun gone number vacant => ?_⟩
    by_cases mine : number = before.uploads
    · rw [mine]
      exact gone
    · rw [others number mine, held.others number mine]
      exact vacant
  rw [Settled, unstaged, decided, stranded, List.find?_cons_of_pos consumed, Option.any_some]

theorem present_iff {disk : Builds} {path : List String} :
    disk.present path = false ↔ disk.find path = none := by
  rw [Tree.present, Option.isSome_eq_false_iff, Option.isNone_iff_eq_none]

theorem dropUpload_settles (fresh : before.disk.find (uploadPath slug before.uploads) = none)
    (held : Held slug before.uploads before base.1) :
    (dropUpload (uploadPath slug before.uploads)).Meets (.recorded registry index)
      (fun _ => Settled slug before) (fun _ _ => False) base := by
  refine (Fallible.meets_bind _ _).mpr fun result after occurs => ?_
  refine settled_consumed fresh held ?_ ?_ ?_
  · exact decide_eq_true rfl
  · intro other different
    rcases occurs_disk occurs with ⟨-, rfl⟩ | ⟨-, rfl⟩
    · exact DiskCall.settle_find fun _ made =>
        Tree.removeFile_keeps made (uploadPath_other different)
    · rfl
  · rcases occurs_disk occurs with ⟨rfl, rfl⟩ | ⟨rfl, rfl⟩
    · rcases DiskCall.settle_cases base.1.disk
        (base.1.disk.removeFile (uploadPath slug before.uploads)) with
        ⟨tree, made, settled⟩ | ⟨error, refused, settled⟩
      · simp only [DiskCall.perform, settled]
        rw [(Tree.removeFile_ok made).1, Tree.withoutFile, if_pos rfl]
        exact ⟨fun _ => rfl, fun _ => rfl⟩
      · simp only [DiskCall.perform, settled]
        exact present_iff.symm
    · exact present_iff.symm

/-- The rename into place takes the file away, or it is refused. -/
theorem rename_settles (fresh : before.disk.find (uploadPath slug before.uploads) = none)
    (held : Held slug before.uploads before base.1) (inside : List String) (context : String) :
    (io (.rename (uploadPath slug before.uploads) (filesPath slug ++ inside)) context).Meets
      (.recorded registry index) (fun _ => Settled slug before) (fun _ => Settled slug before)
      base := by
  have apart : ∀ number, ¬filesPath slug ++ inside <+: uploadPath slug number := by
    intro number within
    exact sibling_not_upload (by decide) slug slug number ((List.prefix_append _ _).trans within)
  refine (meets_io _ context).mpr fun result after occurs => ?_
  have settles : Settled slug before (after, ⟨index, base.1,
      .disk (.rename (uploadPath slug before.uploads) (filesPath slug ++ inside)), result, after⟩ ::
        base.2) := by
    refine settled_consumed fresh held ?_ ?_ ?_
    · exact decide_eq_true rfl
    · intro other different
      rcases occurs_disk occurs with ⟨-, rfl⟩ | ⟨-, rfl⟩
      · refine DiskCall.settle_find fun _ made => Tree.rename_apart made (fun within => ?_) (apart other)
        exact uploadPath_other different (within.eq_of_length rfl).symm
      · rfl
    · rcases occurs_disk occurs with ⟨rfl, rfl⟩ | ⟨rfl, rfl⟩
      · rcases DiskCall.settle_cases base.1.disk (base.1.disk.rename
          (uploadPath slug before.uploads) (filesPath slug ++ inside)) with
          ⟨tree, made, settled⟩ | ⟨error, refused, settled⟩
        · simp only [DiskCall.perform, settled]
          rcases Tree.rename_ok made with ⟨same, -⟩ | ⟨-, moved, -⟩
          · exact (upload_idle slug before.uploads inside same).elim
          · rw [moved, Tree.moved, if_neg (apart _), if_pos (List.prefix_refl _)]
            exact ⟨fun _ => rfl, fun _ => rfl⟩
        · simp only [DiskCall.perform, settled]
          exact present_iff.symm
      · exact present_iff.symm
  cases result with
  | ok answer => exact settles
  | error error => exact settles

/-! ## The requests -/

theorem resolvedBundle_quiet (slug : String) (base : Service × List (Event registry)) :
    (resolvedBundle slug).Meets (.recorded registry index)
      (fun bundle now => bundle.slug = slug ∧ Undisturbed slug base now) (fun _ => Undisturbed slug base)
      base := by
  unfold resolvedBundle requireBySlug
  simp only [Fallible.meets_bind, Fallible.meets_lift, Fallible.meets_okOr]
  refine ⟨fun _ _ => .refl slug base, fun _ _ => ?_⟩
  refine (meets_query _).mpr fun result after occurs => ?_
  have quiet : Undisturbed slug base (after, ⟨index, base.1, .statement (.findBySlug slug), result,
      after⟩ :: base.2) := by
    obtain ⟨uploads, staged⟩ := @beside_occurs slug (.statement (.findBySlug slug)) trivial _ _ _
      occurs
    exact ⟨uploads, staged, fun _ => rfl⟩
  rcases occurs_statement occurs with ⟨reply, database, rfl, executed, rfl⟩ | ⟨error, rfl, rfl⟩
  · cases executed
    refine ⟨fun _ => quiet, fun bundle found => ⟨?_, quiet⟩⟩
    simpa using List.find?_some found
  · exact quiet

theorem tempUpload_held (slug : String) (quiet : Undisturbed slug (before, []) base) :
    (tempUpload slug).Meets (.recorded registry index)
      (fun path now => path = uploadPath slug before.uploads ∧
        ∀ number, now.1.disk.find (uploadPath slug number) =
          before.disk.find (uploadPath slug number))
      (fun _ => Undisturbed slug (before, [])) base := by
  have made : Takes (Operation.Beside slug) (io (.createDirAll (buildPath slug)) "mkdir for temp") :=
    takes_io _ fun number => upload_not_build slug slug number
  unfold tempUpload
  rw [Fallible.meets_bind]
  refine (made.quiet base).mono ?_ ?_
  · intro _ now since
    refine (Fallible.meets_bind _ _).mpr fun result after occurs => ?_
    obtain ⟨rfl, rfl⟩ := occurs_newUpload occurs
    refine ⟨?_, fun number => (since.staged number).trans (quiet.staged number)⟩
    rw [since.uploads, quiet.uploads]
  · exact fun _ now since => quiet.trans since

theorem staging_settles {Reply : Type} {rest : Bundle → List String → Handler Reply}
    (staged : ∀ (bundle : Bundle) (now : Service × List (Event registry)), bundle.slug = slug →
      Held bundle.slug before.uploads before now.1 →
      (rest bundle (uploadPath bundle.slug before.uploads)).Meets (.recorded registry index)
        (fun _ => Settled bundle.slug before) (fun _ => Settled bundle.slug before) now)
    (fresh : before.disk.find (uploadPath slug before.uploads) = none) :
    Fallible.Meets (do
      let bundle ← resolvedBundle slug
      ensureBuildDir bundle.slug "ensure dir"
      let path ← tempUpload bundle.slug
      rest bundle path) (.recorded registry index)
      (fun _ => Settled slug before) (fun _ => Settled slug before) (before, []) := by
  rw [Fallible.meets_bind]
  refine (resolvedBundle_quiet slug _).mono ?_ fun _ _ quiet => (settled_start slug before).quiet quiet
  rintro bundle resolved ⟨rfl, quiet⟩
  have folder : Takes (Operation.Beside bundle.slug) (ensureBuildDir bundle.slug "ensure dir") :=
    takes_io _ (beside_folder (List.prefix_refl _))
  rw [Fallible.meets_bind]
  refine (folder.quiet resolved).mono ?_ fun _ _ since =>
    (settled_start _ before).quiet (quiet.trans since)
  intro _ ensured since
  rw [Fallible.meets_bind]
  refine (tempUpload_held _ (quiet.trans since)).mono ?_ fun _ _ later =>
    (settled_start _ before).quiet later
  rintro _ now ⟨rfl, same⟩
  refine staged bundle now rfl ⟨fun other _ => same other, fun node found => ?_⟩
  rw [same, fresh] at found
  cases found

theorem uploadArchive_settles (multipart : Multipart)
    (fresh : before.disk.find (uploadPath slug before.uploads) = none) :
    (uploadArchive state slug multipart).Meets (.recorded registry index)
      (fun _ => Settled slug before) (fun _ => Settled slug before) (before, []) := by
  refine staging_settles (fun bundle now named held => ?_) fresh
  subst named
  simp only [Fallible.meets_bind, meets_observe, Fallible.meets_lift]
  have dropped : ∀ (result : Except AppError Bundle) (received : Service × List (Event registry)),
      Held bundle.slug before.uploads before received.1 →
      (dropUpload (uploadPath bundle.slug before.uploads)).Meets (.recorded registry index)
        (fun _ following => (∀ error, result = .error error → Settled bundle.slug before following) ∧
          ∀ value, result = .ok value → Settled bundle.slug before following)
        (fun _ => Settled bundle.slug before) received := by
    intro result received kept
    refine (dropUpload_settles fresh kept).mono ?_ fun _ _ => False.elim
    exact fun _ _ settled => ⟨fun _ _ => settled, fun _ _ => settled⟩
  refine ((receiveArchive_stages multipart).held held).mono ?_ ?_
  · exact fun refreshed received kept => dropped (.ok refreshed) received kept
  · exact fun error received kept => dropped (.error error) received kept

theorem uploadFile_settles (multipart : Multipart)
    (fresh : before.disk.find (uploadPath slug before.uploads) = none) :
    (uploadFile state slug multipart).Meets (.recorded registry index)
      (fun _ => Settled slug before) (fun _ => Settled slug before) (before, []) := by
  refine staging_settles (fun bundle now named held => ?_) fresh
  subst named
  rw [Fallible.meets_bind, meets_observe]
  refine ((prepareUpload_stages multipart).held held).mono ?_ ?_
  · rintro ⟨size, normalized⟩ prepared kept
    rw [Fallible.meets_bind]
    refine (rename_settles fresh kept (segments normalized) _).mono ?_ fun _ _ settled => settled
    intro _ placed settled
    -- the hash, the row and the manifest are beside the staged file
    refine (@Takes.quiet bundle.slug index _ _ (takes_bind (hashFile_beside _) fun _ =>
      takes_bind (takes_query trivial) fun _ => regenerateManifest_beside) placed).mono ?_ ?_
    · exact fun _ _ quiet => settled.quiet quiet
    · exact fun _ _ quiet => settled.quiet quiet
  · intro error prepared kept
    rw [Fallible.meets_bind]
    exact (dropUpload_settles fresh kept).mono (fun _ _ settled => settled) fun _ _ => False.elim

end Runs

/-- Of an upload that takes a fresh number a staged file is left exactly where the last call
that was to take it away, its rename into place or its unlinking, found it and was refused. -/
theorem staged_upload_left_iff {state : State} {slug : String} {multipart : Multipart}
    {request : Request}
    (upload : request = .uploadArchive slug multipart ∨ request = .uploadFile slug multipart)
    {index : Nat} {faults : List Bool} {before after : Service}
    {events : List (Event registry)} {error : AppError}
    (fresh : before.disk.find (uploadPath slug before.uploads) = none)
    (executed : (handle state request).execute index faults before [] =
      some (.error error, after, events)) :
    (∀ number, before.disk.find (uploadPath slug number) = none →
      after.disk.find (uploadPath slug number) = none) ↔
    stranded (uploadPath slug before.uploads) events = false := by
  have settles : (request.handler state).Meets (.recorded registry index)
      (fun _ => Settled slug before) (fun _ => Settled slug before) (before, []) := by
    rcases upload with rfl | rfl
    · exact (Fallible.meets_map _ _).mpr (uploadArchive_settles multipart fresh)
    · exact (Fallible.meets_map _ _).mpr (uploadFile_settles multipart fresh)
  exact Process.execute_recorded settles executed

/-- A file and the path it is to go to, which leaves the build. -/
def escapingFile : Multipart where
  fields :=
    [⟨some "file", some "a.jar", [[65], [66]], none, .ok ""⟩,
     ⟨some "targetPath", none, [], none, .ok "../a.jar"⟩]
  failure := none

/-- The file is staged in full, the path is refused, and the guard unlinks the file. -/
theorem staged_upload_unlinked :
    ∃ error after events, (handle shownState (.uploadFile "pack" escapingFile)).execute 0 []
        onePack [] = some (.error error, after, events) ∧
      (∃ event ∈ events, event.before.disk.read (uploadPath "pack" 0) = .ok [65, 66]) ∧
      ∀ number, onePack.disk.find (uploadPath "pack" number) = none →
        after.disk.find (uploadPath "pack" number) = none := by
  have ended : ((handle shownState (.uploadFile "pack" escapingFile)).execute 0 [] onePack []).map
      (fun ran => (ran.1.toOption.isSome,
        ran.2.2.any (fun event => event.before.disk.read (uploadPath "pack" 0) = .ok [65, 66]),
        stranded (uploadPath "pack" 0) ran.2.2)) = some (false, true, false) := by
    decide +kernel
  obtain ⟨⟨outcome, after, events⟩, executed, same⟩ := Option.map_eq_some_iff.mp ended
  obtain ⟨failed, staged, left⟩ : _ ∧ _ ∧ _ := by simpa using same
  cases outcome with
  | ok reply => cases failed
  | error error =>
      exact ⟨error, after, events, executed, staged,
        (staged_upload_left_iff (.inr rfl) (by decide +kernel) executed).mpr left⟩

def folderPack : Service :=
  { onePack with
    disk := ((DiskCall.createDirAll ["pack", "files", "mods"]).perform onePack.disk).2 }

/-- A file that is to take the place of the folder. -/
theorem staged_upload_left_behind :
    ¬∀ (state : State) (slug : String) (multipart : Multipart) (request : Request)
      (index : Nat) (faults : List Bool) (before after : Service)
      (events : List (Event registry)) (error : AppError),
      request = .uploadArchive slug multipart ∨ request = .uploadFile slug multipart →
      before.disk.find (uploadPath slug before.uploads) = none →
      (handle state request).execute index faults before [] =
        some (.error error, after, events) →
      ∀ number, before.disk.find (uploadPath slug number) = none →
        after.disk.find (uploadPath slug number) = none := by
  intro never
  have ended : ((handle shownState (.uploadFile "pack" (oneFile "mods" [65]))).execute 0 []
      folderPack []).map (fun ran => (ran.1.toOption.isSome,
        ran.2.1.disk.find (uploadPath "pack" 0))) = some (false, some (.file [65])) := by
    decide +kernel
  obtain ⟨⟨outcome, after, events⟩, executed, same⟩ := Option.map_eq_some_iff.mp ended
  obtain ⟨failed, left⟩ := Prod.mk.inj same
  cases outcome with
  | ok reply => cases failed
  | error error =>
      have gone := never shownState "pack" (oneFile "mods" [65]) _ 0 [] folderPack after events
        error (.inr rfl) (by decide +kernel) executed 0 (by decide +kernel)
      rw [gone] at left
      cases left

end Loontail.Bundles
