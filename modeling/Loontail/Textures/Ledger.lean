import Loontail.Textures.Protocol

/-! # The custody of texture files

Seen from afar, a request creates a file, learns what the row of its key names, stores its own
file there, and unlinks what it owes. -/

namespace Loontail.Textures

open Concurrency Disk Relational
open Bundles (DiskCall)

/-! ## The files that a call leaves -/

section Files

variable {disk : Tree String Bytes} {path : List String}

theorem isFile_writeFile {after : Tree String Bytes} {content : Bytes}
    (written : disk.writeFile path content = .ok after) :
    after.isFile = Function.update disk.isFile path true := by
  funext other
  rw [Function.update_apply]
  split
  · rename_i here
    subst here
    refine Tree.isFile_iff.mpr ⟨content, ?_⟩
    rw [(Tree.writeFile_ok written).1, Tree.withFile, if_pos rfl]
  · rename_i apart
    exact Tree.isFile_congr (Tree.writeFile_keeps written apart)

theorem isFile_createDirAll :
    ((DiskCall.createDirAll path).perform disk).2.isFile = disk.isFile := by
  funext other
  change (DiskCall.settle disk (disk.createDirAll path)).2.isFile other = _
  cases made : disk.createDirAll path with
  | error error => rfl
  | ok after =>
      change after.isFile other = _
      obtain ⟨folders, clear⟩ := Tree.createDirAll_ok made
      by_cases within : other <+: path
      · have folder : after.isFolder other = true := by
          rw [Tree.isFolder_iff, folders, Tree.withFolders, if_pos within]
        rw [clear other within]
        refine Bool.eq_false_iff.mpr fun file => ?_
        obtain ⟨content, found⟩ := Tree.isFile_iff.mp file
        rw [Tree.isFolder_iff, found] at folder
        cases folder
      · exact Tree.isFile_congr (by rw [folders, Tree.withFolders, if_neg within])

theorem isFile_create {answer : Unit} (made : ((DiskCall.create path).perform disk).1 = .ok answer) :
    ((DiskCall.create path).perform disk).2.isFile = Function.update disk.isFile path true := by
  change (DiskCall.settle disk (disk.writeFile path [])).1 = _ at made
  change (DiskCall.settle disk (disk.writeFile path [])).2.isFile = _
  cases written : disk.writeFile path [] with
  | error error =>
      rw [written] at made
      cases made
  | ok after => exact isFile_writeFile written

theorem isFile_create_refused {error : IoError}
    (refused : ((DiskCall.create path).perform disk).1 = .error error) :
    ((DiskCall.create path).perform disk).2 = disk := by
  change (DiskCall.settle disk (disk.writeFile path [])).1 = _ at refused
  change (DiskCall.settle disk (disk.writeFile path [])).2 = _
  cases written : disk.writeFile path [] with
  | error other => rfl
  | ok after =>
      rw [written] at refused
      cases refused

theorem isFile_append {data : Bytes} :
    ((DiskCall.append path data).perform disk).2.isFile = disk.isFile := by
  change (DiskCall.settle disk (DiskCall.appended disk path data)).2.isFile = _
  unfold DiskCall.appended
  split
  · rename_i content found
    cases written : disk.writeFile path (content ++ data) with
    | error error => rfl
    | ok after =>
        have file : disk.isFile path = true := Tree.isFile_iff.mpr ⟨content, found⟩
        refine (isFile_writeFile written).trans ?_
        rw [← file, Function.update_eq_self]
  · rfl

theorem isFile_removeFile :
    ((DiskCall.removeFile path).perform disk).2.isFile = Function.update disk.isFile path false := by
  funext other
  change (DiskCall.settle disk (disk.removeFile path)).2.isFile other = _
  rw [Function.update_apply]
  cases removed : disk.removeFile path with
  | error error =>
      change disk.isFile other = _
      split
      · rename_i here
        subst here
        refine Bool.eq_false_iff.mpr fun file => ?_
        rw [Tree.removeFile, dif_pos file] at removed
        cases removed
      · rfl
  | ok after =>
      change after.isFile other = _
      split
      · rename_i here
        subst here
        refine Bool.eq_false_iff.mpr fun file => ?_
        obtain ⟨content, found⟩ := Tree.isFile_iff.mp file
        rw [(Tree.removeFile_ok removed).1, Tree.withoutFile, if_pos rfl] at found
        cases found
      · rename_i apart
        exact Tree.isFile_congr (Tree.removeFile_keeps removed apart)

end Files

/-! ## What the files hold -/

def contentAt (disk : Tree String Bytes) (path : List String) : Option Bytes :=
  (disk.read path).toOption

section Contents

variable {disk : Tree String Bytes} {path cell : List String} {content : Bytes}

theorem contentAt_eq_some :
    contentAt disk path = some content ↔ disk.find path = some (.file content) := by
  unfold contentAt Tree.read
  split
  · rename_i found
    rw [found]
    exact ⟨fun same => by cases same; rfl, fun same => by cases same; rfl⟩
  · rename_i found
    rw [found]
    exact ⟨fun same => (by cases same), fun same => (by cases same)⟩
  · rename_i found
    rw [found]
    exact ⟨fun same => (by cases same), fun same => (by cases same)⟩

theorem contentAt_createDirAll
    (found : contentAt ((DiskCall.createDirAll path).perform disk).2 cell = some content) :
    contentAt disk cell = some content := by
  change contentAt (DiskCall.settle disk (disk.createDirAll path)).2 cell = _ at found
  cases made : disk.createDirAll path with
  | error error =>
      rw [made] at found
      exact found
  | ok after =>
      rw [made] at found
      rw [contentAt_eq_some] at found ⊢
      change after.find cell = _ at found
      rw [(Tree.createDirAll_ok made).1, Tree.withFolders] at found
      split at found
      · cases found
      · exact found

theorem contentAt_writeFile {after : Tree String Bytes} {data : Bytes}
    (written : disk.writeFile path data = .ok after)
    (found : contentAt after cell = some content) :
    cell = path ∧ content = data ∨ cell ≠ path ∧ contentAt disk cell = some content := by
  rw [contentAt_eq_some, (Tree.writeFile_ok written).1, Tree.withFile] at found
  split at found
  · rename_i here
    exact .inl ⟨here, by cases found; rfl⟩
  · rename_i apart
    exact .inr ⟨apart, contentAt_eq_some.mpr found⟩

theorem contentAt_create
    (found : contentAt ((DiskCall.create path).perform disk).2 cell = some content) :
    contentAt disk cell = some content ∨ cell = path := by
  change contentAt (DiskCall.settle disk (disk.writeFile path [])).2 cell = _ at found
  cases written : disk.writeFile path [] with
  | error error =>
      rw [written] at found
      exact .inl found
  | ok after =>
      rw [written] at found
      rcases contentAt_writeFile written found with ⟨here, -⟩ | ⟨-, kept⟩
      · exact .inr here
      · exact .inl kept

theorem contentAt_created {answer : Unit}
    (made : ((DiskCall.create path).perform disk).1 = .ok answer)
    (found : contentAt ((DiskCall.create path).perform disk).2 path = some content) :
    content = [] := by
  change (DiskCall.settle disk (disk.writeFile path [])).1 = _ at made
  change contentAt (DiskCall.settle disk (disk.writeFile path [])).2 path = _ at found
  cases written : disk.writeFile path [] with
  | error error =>
      rw [written] at made
      cases made
  | ok after =>
      rw [written] at found
      rcases contentAt_writeFile written found with ⟨-, empty⟩ | ⟨apart, -⟩
      · exact empty
      · exact absurd rfl apart

theorem contentAt_append {data : Bytes}
    (found : contentAt ((DiskCall.append path data).perform disk).2 cell = some content) :
    contentAt disk cell = some content ∨
      cell = path ∧ ∃ earlier, contentAt disk path = some earlier ∧ content = earlier ++ data := by
  change contentAt (DiskCall.settle disk (DiskCall.appended disk path data)).2 cell = _ at found
  unfold DiskCall.appended at found
  split at found
  · rename_i earlier there
    cases written : disk.writeFile path (earlier ++ data) with
    | error error =>
        rw [written] at found
        exact .inl found
    | ok after =>
        rw [written] at found
        rcases contentAt_writeFile written found with ⟨here, longer⟩ | ⟨-, kept⟩
        · exact .inr ⟨here, earlier, contentAt_eq_some.mpr there, longer⟩
        · exact .inl kept
  · exact .inl found

theorem contentAt_appended {data : Bytes} {answer : Unit}
    (made : ((DiskCall.append path data).perform disk).1 = .ok answer)
    (found : contentAt ((DiskCall.append path data).perform disk).2 path = some content) :
    ∃ earlier, contentAt disk path = some earlier ∧ content = earlier ++ data := by
  change (DiskCall.settle disk (DiskCall.appended disk path data)).1 = _ at made
  change contentAt (DiskCall.settle disk (DiskCall.appended disk path data)).2 path = _ at found
  unfold DiskCall.appended at made found
  split at found
  · rename_i earlier there
    rw [there] at made
    cases written : disk.writeFile path (earlier ++ data) with
    | error error =>
        simp only [written, DiskCall.settle] at made
        cases made
    | ok after =>
        rw [written] at found
        rcases contentAt_writeFile written found with ⟨-, longer⟩ | ⟨apart, -⟩
        · exact ⟨earlier, contentAt_eq_some.mpr there, longer⟩
        · exact absurd rfl apart
  · rename_i missing
    exact absurd (contentAt_eq_some.mp found) (missing content)

theorem contentAt_removeFile
    (found : contentAt ((DiskCall.removeFile path).perform disk).2 cell = some content) :
    contentAt disk cell = some content := by
  change contentAt (DiskCall.settle disk (disk.removeFile path)).2 cell = _ at found
  cases removed : disk.removeFile path with
  | error error =>
      rw [removed] at found
      exact found
  | ok after =>
      rw [removed] at found
      rw [contentAt_eq_some] at found ⊢
      change after.find cell = _ at found
      rw [(Tree.removeFile_ok removed).1, Tree.withoutFile] at found
      split at found
      · cases found
      · exact found

end Contents

/-! ## Operations as steps of custody -/

def TextureOperation.creates : (operation : TextureOperation) → operation.Result →
    Option (List String)
  | .disk (.create path), .ok _ => some path
  | _, _ => none

def TextureService.stored (service : TextureService) (key : TextureKey) : Option (List String) :=
  (service.registry.find key).map (·.filePath)

abbrev TextureCustody := Custody TextureKey (List String)

def TextureService.custody (service : TextureService) (used : List String → Prop)
    (duty : Nat → Duty TextureKey (List String)) : TextureCustody :=
  ⟨service.stored, service.disk.isFile, used, duty⟩

section Rows

variable {service : TextureService} {used : List String → Prop}
  {duty : Nat → Duty TextureKey (List String)}

theorem custody_upsert {row : Texture} :
    TextureService.custody { service with registry := service.registry.upsert row } used duty =
      (service.custody used duty).keep row.key (some row.filePath) := by
  refine Custody.ext ?_ rfl rfl rfl
  funext key
  change ((service.registry.upsert row).find key).map _ = Function.update service.stored _ _ key
  rw [Keyed.find_upsert, Function.update_apply, TextureService.stored]
  split <;> rfl

theorem custody_erase {key : TextureKey} :
    TextureService.custody { service with registry := service.registry.erase key } used duty =
      (service.custody used duty).keep key none := by
  refine Custody.ext ?_ rfl rfl rfl
  funext other
  change ((service.registry.erase key).find other).map _ = Function.update service.stored _ _ other
  rw [Keyed.find_erase, Function.update_apply, TextureService.stored]
  split <;> rfl

theorem custody_removeFile {path : List String} :
    TextureService.custody
      { service with disk := ((DiskCall.removeFile path).perform service.disk).2 } used duty =
      (service.custody used duty).unlink path :=
  Custody.ext rfl isFile_removeFile rfl rfl

end Rows

section Operation

variable {before after : TextureService} {operation : TextureOperation}
  {result : operation.Result} {phase : TexturePhase} {used : List String → Prop}
  {duty : Nat → Duty TextureKey (List String)} {index : Nat} {careful : Prop}

theorem nothing_used (creates : operation.creates result = none) :
    (fun path => operation.creates result = some path ∨ used path) = used := by
  funext path
  rw [creates]
  exact propext ⟨fun either => either.resolve_left (Option.some_ne_none path ∘ Eq.symm), .inr⟩

theorem idle_step (own : duty index = phase.duty) (registry : after.registry = before.registry)
    (files : after.disk.isFile = before.disk.isFile)
    (unchanged : (phase.after operation result).duty = phase.duty)
    (creates : operation.creates result = none) :
    Custody.Step careful index (before.custody used duty)
      (after.custody (fun path => operation.creates result = some path ∨ used path)
        (Function.update duty index (phase.after operation result).duty)) := by
  rw [nothing_used creates, unchanged, ← own, Function.update_eq_self]
  have same : after.custody used duty = before.custody used duty := by
    rw [TextureService.custody, TextureService.custody, files]
    unfold TextureService.stored
    rw [registry]
  rw [same]
  exact .idle

def Went (careful : Prop) (before : TextureService) (operation : TextureOperation)
    (result : operation.Result) (after : TextureService) : Prop :=
  operation.perform before = (result, after) ∨
    operation.fault = some result ∧ after = before ∧ ¬careful

theorem idle_call {call : DiskCall} {result : Except IoError call.Answer}
    (went : Went careful before (.disk call) result after) (own : duty index = phase.duty)
    (files : (call.perform before.disk).2.isFile = before.disk.isFile)
    (unchanged : (phase.after (.disk call) result).duty = phase.duty)
    (creates : TextureOperation.creates (.disk call) result = none) :
    Custody.Step careful index (before.custody used duty)
      (after.custody (fun path => TextureOperation.creates (.disk call) result = some path ∨ used path)
        (Function.update duty index (phase.after (.disk call) result).duty)) := by
  rcases went with performed | ⟨-, rfl, -⟩
  · cases performed
    exact idle_step own rfl files unchanged creates
  · exact idle_step own rfl rfl unchanged creates

theorem idle_statement {statement : TextureStatement}
    {result : Except DatabaseError statement.Reply}
    (went : Went careful before (.statement statement) result after)
    (own : duty index = phase.duty) (registry : (statement.execute before).2 = before)
    (unchanged : (phase.after (.statement statement) result).duty = phase.duty) :
    Custody.Step careful index (before.custody used duty)
      (after.custody
        (fun path => TextureOperation.creates (.statement statement) result = some path ∨ used path)
        (Function.update duty index (phase.after (.statement statement) result).duty)) := by
  have same : after = before := by
    rcases went with performed | ⟨-, same, -⟩
    · exact (congrArg Prod.snd performed).symm.trans registry
    · exact same
  subst same
  exact idle_step own rfl rfl unchanged rfl

theorem create_step {path : List String} {key : TextureKey} {result : Except IoError Unit}
    (went : Went careful before (.disk (.create path)) result after)
    (own : duty index = .free) (fresh : ¬used path) :
    Custody.Step careful index (before.custody used duty)
      (after.custody
        (fun other => TextureOperation.creates (.disk (.create path)) result = some other ∨
          used other)
        (Function.update duty index
          (TexturePhase.after (.fresh (some (key, path))) (.disk (.create path)) result).duty)) := by
  cases result with
  | error error =>
      have files : after.disk.isFile = before.disk.isFile ∧ after.registry = before.registry := by
        rcases went with performed | ⟨-, rfl, -⟩
        · obtain ⟨refused, rfl⟩ := Prod.mk.inj performed
          exact ⟨congrArg Tree.isFile (isFile_create_refused refused), rfl⟩
        · exact ⟨rfl, rfl⟩
      exact @idle_step before after (.disk (.create path)) (.error error)
        (.fresh (some (key, path))) used duty index careful own files.2 files.1 rfl rfl
  | ok made =>
      rcases went with performed | ⟨fault, -⟩
      · obtain ⟨created, rfl⟩ := Prod.mk.inj performed
        have step := @Custody.Step.create TextureKey (List String) _ _ careful index
          (before.custody used duty) key path own fresh
        have same : TextureService.custody
            { before with disk := ((DiskCall.create path).perform before.disk).2 }
            (fun other => some path = some other ∨ used other)
            (Function.update duty index (.holds key path)) =
              ((before.custody used duty).create path).charge index (.holds key path) := by
          refine Custody.ext rfl (isFile_create created) ?_ rfl
          funext other
          refine propext (or_congr ⟨fun equal => ?_, fun equal => ?_⟩ Iff.rfl)
          · exact (Option.some.inj equal).symm
          · exact congrArg some equal.symm
        exact same ▸ step
      · cases fault

theorem refused_statement {statement : TextureStatement} {error : DatabaseError}
    (went : Went careful before (.statement statement) (.error error) after) : after = before := by
  rcases went with performed | ⟨-, same, -⟩
  · cases statement with
    | upsert row =>
        simp only [TextureOperation.perform, TextureStatement.execute] at performed
        split at performed
        · cases performed
        · exact (congrArg Prod.snd performed).symm
    | filePath => cases performed
    | deleteByUser => cases performed
    | adminFetchAll => cases performed
  · exact same

theorem learn_step {key : TextureKey} {path : List String} {userId : Uuid} {kind : TextureKind}
    {result : Except DatabaseError (Option (List String))}
    (went : Went careful before (.statement (.filePath userId kind)) result after)
    (own : duty index = .holds key path) (here : (userId, kind) = key) :
    Custody.Step careful index (before.custody used duty)
      (after.custody (fun other =>
          TextureOperation.creates (.statement (.filePath userId kind)) result = some other ∨
            used other)
        (Function.update duty index (TexturePhase.after (.under (.holds key path))
          (.statement (.filePath userId kind)) result).duty)) := by
  cases result with
  | error error =>
      exact @idle_statement before after (.under (.holds key path)) used duty index careful
        (.filePath userId kind) (.error error) went own rfl rfl
  | ok old =>
      rw [nothing_used rfl]
      rcases went with performed | ⟨fault, -⟩
      · obtain ⟨found, rfl⟩ := Prod.mk.inj performed
        have step := @Custody.Step.learn TextureKey (List String) _ _ careful index
          (before.custody used duty) key path own
        have seen : old = before.stored key := by
          rw [← here]
          exact (Except.ok.inj found).symm
        rw [seen]
        exact step
      · cases fault

theorem store_step {key : TextureKey} {path : List String} {old : Option (List String)}
    {row : Texture} {result : Except DatabaseError Unit}
    (went : Went careful before (.statement (.upsert row)) result after)
    (own : duty index = .informed key path old) (here : row.key = key ∧ row.filePath = path)
    (current : careful → before.stored key = none ∨ before.stored key = old) :
    Custody.Step careful index (before.custody used duty)
      (after.custody (fun other =>
          TextureOperation.creates (.statement (.upsert row)) result = some other ∨ used other)
        (Function.update duty index (TexturePhase.after (.under (.informed key path old))
          (.statement (.upsert row)) result).duty)) := by
  cases result with
  | error error =>
      obtain rfl := refused_statement went
      exact @idle_step after after (.statement (.upsert row)) (.error error)
        (.under (.informed key path old)) used duty index careful own rfl rfl rfl rfl
  | ok stored =>
      obtain ⟨rfl, rfl⟩ := here
      rw [nothing_used rfl]
      rcases went with performed | ⟨fault, -⟩
      · simp only [TextureOperation.perform, TextureStatement.execute] at performed
        split at performed
        · obtain ⟨-, rfl⟩ := Prod.mk.inj performed
          have step := @Custody.Step.store TextureKey (List String) _ _ careful index
            (before.custody used duty) row.key row.filePath old own current
          rw [custody_upsert]
          exact step
        · cases performed
      · cases fault

theorem unlink_step {path : List String} {result : Except IoError Unit}
    (went : Went careful before (.disk (.removeFile path)) result after)
    (own : duty index = .owes path) :
    Custody.Step careful index (before.custody used duty)
      (after.custody (fun other =>
          TextureOperation.creates (.disk (.removeFile path)) result = some other ∨ used other)
        (Function.update duty index (TexturePhase.after (.under (.owes path))
          (.disk (.removeFile path)) result).duty)) := by
  rw [nothing_used rfl]
  rcases went with performed | ⟨-, rfl, careless⟩
  · obtain ⟨-, rfl⟩ := Prod.mk.inj performed
    have step := @Custody.Step.unlink TextureKey (List String) _ _ careful index
      (before.custody used duty) path own
    rw [custody_removeFile]
    exact step
  · exact @Custody.Step.abandon TextureKey (List String) _ _ careful index
      (after.custody used duty) path own careless

theorem take_step {kind : TextureKind} {userId : Uuid}
    {result : Except DatabaseError (Option (List String))}
    (went : Went careful before (.statement (.deleteByUser kind userId)) result after)
    (own : duty index = .free) :
    Custody.Step careful index (before.custody used duty)
      (after.custody (fun other =>
          TextureOperation.creates (.statement (.deleteByUser kind userId)) result = some other ∨
            used other)
        (Function.update duty index (TexturePhase.after (.under .free)
          (.statement (.deleteByUser kind userId)) result).duty)) := by
  cases result with
  | error error =>
      obtain rfl := refused_statement went
      exact @idle_step after after (.statement (.deleteByUser kind userId)) (.error error)
        (.under .free) used duty index careful own rfl rfl rfl rfl
  | ok removed =>
      rw [nothing_used rfl]
      rcases went with performed | ⟨fault, -⟩
      · obtain ⟨found, rfl⟩ := Prod.mk.inj performed
        have step := @Custody.Step.take TextureKey (List String) _ _ careful index
          (before.custody used duty) (userId, kind) own
        rw [custody_erase, ← Except.ok.inj found]
        exact step
      · cases fault

theorem drop_step {kind : TextureKind} {userId : Uuid} {listed missing : List Texture}
    {result : Except DatabaseError (Option (List String))}
    (went : Went careful before (.statement (.deleteByUser kind userId)) result after)
    (own : duty index = .free) (careless : ¬careful) :
    Custody.Step careful index (before.custody used duty)
      (after.custody (fun other =>
          TextureOperation.creates (.statement (.deleteByUser kind userId)) result = some other ∨
            used other)
        (Function.update duty index (TexturePhase.after (.testing kind listed missing)
          (.statement (.deleteByUser kind userId)) result).duty)) := by
  cases result with
  | error error =>
      obtain rfl := refused_statement went
      exact @idle_step after after (.statement (.deleteByUser kind userId)) (.error error)
        (.testing kind listed missing) used duty index careful own rfl rfl rfl rfl
  | ok removed =>
      rw [nothing_used rfl]
      change Custody.Step _ _ _ (after.custody used (Function.update duty index .free))
      rw [← own, Function.update_eq_self]
      rcases went with performed | ⟨fault, -⟩
      · obtain ⟨-, rfl⟩ := Prod.mk.inj performed
        have step := @Custody.Step.drop TextureKey (List String) _ _ careful index
          (before.custody used duty) (userId, kind) careless
        rw [custody_erase]
        exact step
      · cases fault

theorem operation_step (went : Went careful before operation result after)
    (allowed : phase.allows operation) (own : duty index = phase.duty)
    (fresh : ∀ key path, phase = .fresh (some (key, path)) → ¬used path)
    (current : careful → ∀ key path old row, phase = .under (.informed key path old) →
      operation = .statement (.upsert row) → before.stored key = none ∨ before.stored key = old)
    (owned : careful → ∀ kind listed missing, phase ≠ .testing kind listed missing) :
    Custody.Step careful index (before.custody used duty)
      (after.custody (fun path => operation.creates result = some path ∨ used path)
        (Function.update duty index (phase.after operation result).duty)) := by
  unfold TexturePhase.allows at allowed
  split at allowed
  · rename_i target path
    exact idle_call went own isFile_createDirAll (by cases target <;> rfl) rfl
  · rename_i target path
    obtain ⟨key, rfl⟩ := allowed
    exact create_step went own (fresh key path rfl)
  · exact idle_call went own isFile_append rfl rfl
  · exact learn_step went own allowed
  · rename_i key path old row
    exact store_step went own allowed fun careful => current careful key path old row rfl rfl
  · rename_i path other
    obtain rfl := allowed
    exact unlink_step went own
  · exact take_step went own
  · exact idle_statement went own rfl (by cases result <;> rfl)
  · exact idle_statement went own rfl (by cases result <;> rfl)
  · exact idle_call went own rfl rfl rfl
  · rename_i kind listed missing other userId
    obtain ⟨rfl, -⟩ := allowed
    exact drop_step went own fun careful => owned careful other listed missing rfl
  · exact allowed.elim

end Operation

end Loontail.Textures
