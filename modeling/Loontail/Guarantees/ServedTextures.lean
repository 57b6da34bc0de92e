import Loontail.Concurrency.Publication
import Loontail.Guarantees.TextureFiles

/-! # The textures that are served

A read asks for the row and opens the file of the row afterwards. Whatever uploads, deletions and
purges do in between, it serves the bytes of an upload of that user, whole and checked. -/

namespace Loontail.Textures

open Concurrency Disk Relational
open Bundles (DiskCall Multipart)

/-! ## A pool publishes textures -/

def stores (row : Texture) (event : Event textureStore) : Prop :=
  match event with
  | ⟨_, _, .statement (.upsert stored), .ok _, _⟩ => stored = row
  | _ => False

def Stored (start : TextureService) (history : List (Event textureStore)) (row : Texture) : Prop :=
  row ∈ start.registry.rows ∨ ∃ event ∈ history, stores row event

/-- The content is what the file of the row had at the start, or the row's upload brought it. -/
def Backed (storageRoot : List String) (start : TextureService) (pool : TrafficPool)
    (row : Texture) (content : Bytes) : Prop :=
  (row ∈ start.registry.rows ∧ contentAt start.disk row.filePath = some content) ∨
    ∃ index request, pool.owner index = some request ∧
      request.uploads storageRoot = some (row, content)

section Pools

variable (storageRoot : List String) (start : TextureService) (pool : TrafficPool)

def stageOf (index : Nat) : Concurrency.Stage Texture Bytes :=
  ((pool.phaseOf (contentProtocol storageRoot) index).map ContentPhase.stage).getD .idle

def publicationOf : Publication Texture (List String) Bytes where
  content := contentAt pool.shared.disk
  released := Stored start pool.history
  backed := Backed storageRoot start pool
  stage := stageOf storageRoot pool

def TextureTraffic.revision : TextureTraffic → Option Revision
  | write request => request.revision
  | readPng .. => none

def Marked (index : Nat) (path : List String) : Prop :=
  ∃ request revision, pool.owner index = some request ∧ request.revision = some revision ∧
    revision.marks path = true

def Learned : ContentPhase → Prop
  | .aware key path => ∃ row, Stored start pool.history row ∧ row.key = key ∧ row.filePath = path
  | .served key content => ∃ row, Stored start pool.history row ∧ row.key = key ∧
      Backed storageRoot start pool row content
  | _ => True

structure Published : Prop where
  sound : (publicationOf storageRoot start pool).Sound Texture.filePath
  rows : ∀ row ∈ pool.shared.registry.rows, Stored start pool.history row
  named : ∀ row, Stored start pool.history row →
    row ∈ start.registry.rows ∨ ∃ index, Marked pool index row.filePath
  learned : ∀ index phase, pool.phaseOf (contentProtocol storageRoot) index = some phase →
    Learned storageRoot start pool phase

end Pools

section Steps

variable {storageRoot : List String} {start : TextureService} {pool next : TrafficPool}

theorem uploads_marked {request : TextureTraffic} {row : Texture} {file : Bytes}
    (uploads : request.uploads storageRoot = some (row, file)) :
    ∃ revision, request.revision = some revision ∧ revision.marks row.filePath = true := by
  cases request with
  | readPng => cases uploads
  | write request =>
      cases request with
      | upload segment user multipart revision now =>
          refine ⟨revision, rfl, ?_⟩
          simp only [TextureTraffic.uploads, uploadedTexture, Option.bind_eq_bind,
            Option.bind_eq_some_iff, Option.some.injEq, Prod.mk.injEq] at uploads
          obtain ⟨kind, -, read, -, profileUuid, -, rfl, -⟩ := uploads
          exact revision.marks_diskPath storageRoot kind profileUuid
      | _ => cases uploads

theorem pending_after {phase : ContentPhase} {operation : TextureOperation}
    {result : operation.Result} {claim : Texture × Bytes}
    (pending : (phase.after operation result).stage.pending = some claim) :
    phase.stage.pending = some claim := by
  unfold ContentPhase.after at pending
  split at pending <;> first | exact pending | cases pending

theorem pending_initial {request : TextureTraffic} {claim : Texture × Bytes}
    (pending : (request.phase storageRoot).stage.pending = some claim) :
    request.uploads storageRoot = some claim := by
  unfold TextureTraffic.phase at pending
  split at pending
  · cases pending
  · rename_i row file _ uploads
    rw [uploads]
    exact pending
  · cases pending

theorem uploads_of_pending {index : Nat} {claim : Texture × Bytes}
    (pending : (stageOf storageRoot pool index).pending = some claim) :
    ∃ request, pool.owner index = some request ∧ request.uploads storageRoot = some claim := by
  unfold stageOf at pending
  cases phases : pool.phaseOf (contentProtocol storageRoot) index with
  | none =>
      rw [phases] at pending
      cases pending
  | some phase =>
      rw [phases] at pending
      obtain ⟨request, owned, rfl⟩ := Option.map_eq_some_iff.mp phases
      refine ⟨request, owned, ?_⟩
      exact @Protocol.phase_induction _ _ (contentProtocol storageRoot)
        (fun phase => phase.stage.pending = some claim → request.uploads storageRoot = some claim)
        request pending_initial (fun _ _ _ known pending => known (pending_after pending)) index
        pool.history pending

theorem marked_of_pending {index : Nat} {row : Texture} {file : Bytes}
    (pending : (stageOf storageRoot pool index).pending = some (row, file)) :
    Marked pool index row.filePath := by
  obtain ⟨request, owned, uploads⟩ := uploads_of_pending pending
  obtain ⟨revision, drawn, marks⟩ := uploads_marked uploads
  exact ⟨request, revision, owned, drawn, marks⟩

/-! ### A request starts -/

/-- No upload before has drawn the revision, and no row has a file named after it. -/
def drawsFresh (start : TextureService) (pool : TrafficPool) : Move TextureTraffic → Bool
  | .start request =>
      match request.revision with
      | some revision =>
          pool.entries.all (fun entry => entry.1.revision ≠ some revision) &&
            start.registry.rows.all fun row => !revision.marks row.filePath
      | none => true
  | _ => true

theorem untouched_of_fresh {request : TextureTraffic} (published : Published storageRoot start pool)
    (fresh : drawsFresh start pool (.start request) = true) {revision : Revision}
    (drawn : request.revision = some revision) {path : List String}
    (marks : revision.marks path = true) :
    (publicationOf storageRoot start pool).Untouched Texture.filePath pool.entries.length path := by
  simp only [drawsFresh, drawn, Bool.and_eq_true, List.all_eq_true, decide_eq_true_eq,
    Bool.not_eq_true'] at fresh
  have elsewhere : ∀ index other, Marked pool index other → other ≠ path := by
    rintro index _ ⟨earlier, own, owned, draws, named⟩ rfl
    obtain ⟨entry, member, rfl⟩ := Option.map_eq_some_iff.mp owned
    have same : own = revision := Revision.eq_of_marks named marks
    exact fresh.1 entry (List.mem_of_getElem? member) (by rw [draws, same])
  constructor
  · intro row stored here
    rcases published.named row stored with first | ⟨index, marked⟩
    · have unmarked := fresh.2 row first
      rw [here, marks] at unmarked
      cases unmarked
    · exact elsewhere index row.filePath marked here
  · intro other row file _ pending
    exact elsewhere other row.filePath (marked_of_pending pending)

/-! ### What lasts -/

section Lasting

variable (kept : ∀ index request, pool.owner index = some request →
    next.owner index = some request)
include kept

theorem Backed.mono {row : Texture} {content : Bytes}
    (backed : Backed storageRoot start pool row content) :
    Backed storageRoot start next row content := by
  rcases backed with first | ⟨index, request, owned, uploads⟩
  · exact .inl first
  · exact .inr ⟨index, request, kept index request owned, uploads⟩

theorem Marked.mono {index : Nat} {path : List String} (marked : Marked pool index path) :
    Marked next index path := by
  obtain ⟨request, revision, owned, drawn, marks⟩ := marked
  exact ⟨request, revision, kept index request owned, drawn, marks⟩

omit kept in
theorem Stored.mono {older newer : List (Event textureStore)} {row : Texture}
    (within : older ⊆ newer) (stored : Stored start older row) : Stored start newer row := by
  rcases stored with first | ⟨event, member, stores⟩
  · exact .inl first
  · exact .inr ⟨event, within member, stores⟩

theorem Learned.mono (within : pool.history ⊆ next.history) {phase : ContentPhase}
    (learned : Learned storageRoot start pool phase) : Learned storageRoot start next phase := by
  cases phase with
  | publishing => trivial
  | asking => trivial
  | aware key path =>
      obtain ⟨row, stored, same, here⟩ := learned
      exact ⟨row, stored.mono within, same, here⟩
  | served key content =>
      obtain ⟨row, stored, same, backed⟩ := learned
      exact ⟨row, stored.mono within, same, backed.mono kept⟩

end Lasting

theorem Published.started {request : TextureTraffic} (published : Published storageRoot start pool)
    (fresh : drawsFresh start pool (.start request) = true)
    (kept : ∀ index request, pool.owner index = some request → next.owner index = some request)
    (owned : next.owner pool.entries.length = some request)
    (shared : next.shared = pool.shared) (history : next.history = pool.history)
    (phases : ∀ other, next.phaseOf (contentProtocol storageRoot) other =
      if other = pool.entries.length then some (request.phase storageRoot)
      else pool.phaseOf (contentProtocol storageRoot) other) :
    Published storageRoot start next := by
  have newest : stageOf storageRoot next pool.entries.length =
      (request.phase storageRoot).stage := by
    rw [stageOf, phases, if_pos rfl]
    rfl
  have step : Publication.Step Texture.filePath pool.entries.length
      (publicationOf storageRoot start pool) (publicationOf storageRoot start next) := by
    refine ⟨?_, fun _ _ => Backed.mono kept, ?_, ?_, ?_, ?_⟩
    · intro other apart
      change stageOf storageRoot next other = stageOf storageRoot pool other
      rw [stageOf, phases, if_neg apart]
      rfl
    · intro cell value found
      refine .inl ?_
      change contentAt next.shared.disk cell = some value at found
      rw [shared] at found
      exact found
    · intro row stored
      refine .inl ?_
      change Stored start next.history row at stored
      rw [history] at stored
      exact stored
    · intro row file pending
      change (stageOf storageRoot next _).pending = _ at pending
      rw [newest] at pending
      have uploads := pending_initial pending
      obtain ⟨revision, drawn, marks⟩ := uploads_marked uploads
      exact .inr ⟨.inr ⟨_, request, owned, uploads⟩,
        untouched_of_fresh published fresh drawn marks⟩
    · intro row file held working
      change stageOf storageRoot next _ = _ at working
      rw [newest] at working
      unfold TextureTraffic.phase at working
      split at working <;> cases working
  refine ⟨published.sound.step step, ?_, ?_, ?_⟩
  · rw [shared, history]
    exact published.rows
  · intro row stored
    rw [history] at stored
    rcases published.named row stored with first | ⟨index, marked⟩
    · exact .inl first
    · exact .inr ⟨index, marked.mono kept⟩
  · intro index phase current
    rw [phases] at current
    split at current
    · cases current
      unfold TextureTraffic.phase
      split <;> trivial
    · exact (published.learned index phase current).mono kept (by rw [history]; exact List.Subset.refl _)

end Steps

/-! ### An operation is taken -/

section Effects

variable {before after : TextureService} {operation : TextureOperation} {result : operation.Result}
  {phase : ContentPhase} {path cell : List String} {value : Bytes}

theorem allows_create (allowed : phase.allows (.disk (.create path))) :
    ∃ row file, phase = .publishing (.working row file none) ∧ path = row.filePath := by
  unfold ContentPhase.allows at allowed
  split at allowed <;> rename_i same <;> first | cases same | exact allowed.elim
  exact ⟨_, _, rfl, allowed⟩

theorem allows_append {data : Bytes} (allowed : phase.allows (.disk (.append path data))) :
    ∃ row, phase = .publishing (.working row data (some [])) ∧ path = row.filePath := by
  unfold ContentPhase.allows at allowed
  split at allowed <;> rename_i same <;> first | cases same | exact allowed.elim
  obtain ⟨here, rfl⟩ := allowed
  exact ⟨_, rfl, here⟩

theorem allows_upsert {stored : Texture} (allowed : phase.allows (.statement (.upsert stored))) :
    ∃ file, phase = .publishing (.working stored file (some file)) := by
  unfold ContentPhase.allows at allowed
  split at allowed <;> rename_i same <;> first | cases same | exact allowed.elim
  obtain ⟨rfl, rfl⟩ := allowed
  exact ⟨_, rfl⟩

theorem execute_disk (service : TextureService) (statement : TextureStatement) :
    (statement.execute service).2.disk = service.disk := by
  cases statement with
  | upsert row =>
      simp only [TextureStatement.execute]
      split <;> rfl
  | _ => rfl

theorem content_of_performed (allowed : phase.allows operation)
    (performed : operation.perform before = (result, after))
    (found : contentAt after.disk cell = some value) :
    contentAt before.disk cell = some value ∨
      ∃ row file, phase.stage.pending = some (row, file) ∧
        (phase.after operation result).stage.pending = some (row, file) ∧ row.filePath = cell := by
  cases operation with
  | statement asked =>
      have same : after.disk = before.disk :=
        (congrArg (fun pair => pair.2.disk) performed).symm.trans (execute_disk before asked)
      rw [same] at found
      exact .inl found
  | disk call =>
      obtain ⟨-, rfl⟩ := Prod.mk.inj performed
      cases call with
      | createDirAll path => exact .inl (contentAt_createDirAll found)
      | create path =>
          rcases contentAt_create found with kept | rfl
          · exact .inl kept
          · obtain ⟨row, file, rfl, rfl⟩ := allows_create allowed
            refine .inr ⟨row, file, rfl, ?_, rfl⟩
            cases result <;> rfl
      | append path data =>
          rcases contentAt_append found with kept | ⟨rfl, -⟩
          · exact .inl kept
          · obtain ⟨row, rfl, rfl⟩ := allows_append allowed
            refine .inr ⟨row, data, rfl, ?_, rfl⟩
            cases result <;> rfl
      | removeFile path => exact .inl (contentAt_removeFile found)
      | rename | removeDirAll | writeManifest =>
          cases phase <;> exact allowed.elim
      | tryExists | isFile | read | probe | readDir | scan => exact .inl found

theorem settle_refused {disk : Tree String Bytes} {made : Except IoError (Tree String Bytes)}
    {error : IoError} (refused : (DiskCall.settle disk made).1 = .error error) :
    (DiskCall.settle disk made).2 = disk := by
  cases made with
  | error other => rfl
  | ok after => cases refused

def TextureOperation.Fills : TextureOperation → Prop
  | .disk (.create _) => True
  | .disk (.append ..) => True
  | _ => False

theorem working_of_after (apart : ¬operation.Fills) {row : Texture} {file : Bytes}
    {held : Option Bytes} (working : (phase.after operation result).stage = .working row file held) :
    phase.stage = .working row file held := by
  unfold ContentPhase.after at working
  split at working
  · exact absurd trivial apart
  · exact absurd trivial apart
  · cases working
  · cases working
  · cases working
  · exact working

theorem writes_of_performed (allowed : phase.allows operation)
    (performed : operation.perform before = (result, after))
    (known : ∀ row file held, phase.stage = .working row file (some held) →
      ∀ other, contentAt before.disk row.filePath = some other → other = held)
    {row : Texture} {file held : Bytes}
    (working : (phase.after operation result).stage = .working row file (some held))
    {other : Bytes} (found : contentAt after.disk row.filePath = some other) :
    other = held ∨ phase.stage = .working row file (some held) ∧
      contentAt before.disk row.filePath = some other := by
  cases operation with
  | statement asked =>
      have same : after.disk = before.disk :=
        (congrArg (fun pair => pair.2.disk) performed).symm.trans (execute_disk before asked)
      rw [same] at found
      exact .inr ⟨working_of_after id working, found⟩
  | disk call =>
      obtain ⟨answered, rfl⟩ := Prod.mk.inj performed
      cases call with
      | create path =>
          obtain ⟨stored, bytes, rfl, rfl⟩ := allows_create allowed
          cases result with
          | error error => cases working
          | ok made =>
              cases working
              exact .inl (contentAt_created answered found)
      | append path data =>
          obtain ⟨stored, rfl, rfl⟩ := allows_append allowed
          cases result with
          | error error =>
              cases working
              have kept : ((DiskCall.append row.filePath file).perform before.disk).2 =
                  before.disk := settle_refused answered
              change contentAt ((DiskCall.append row.filePath file).perform before.disk).2 _ = _
                at found
              rw [kept] at found
              exact .inr ⟨rfl, found⟩
          | ok made =>
              cases working
              obtain ⟨earlier, there, rfl⟩ := contentAt_appended answered found
              rw [known row file [] rfl earlier there]
              exact .inl rfl
      | createDirAll path =>
          exact .inr ⟨working_of_after id working, contentAt_createDirAll found⟩
      | removeFile path => exact .inr ⟨working_of_after id working, contentAt_removeFile found⟩
      | rename | removeDirAll | writeManifest => cases phase <;> exact allowed.elim
      | tryExists | isFile | read | probe | readDir | scan =>
          exact .inr ⟨working_of_after id working, found⟩

theorem stores_of_allowed {index : Nat} {row : Texture} (allowed : phase.allows operation)
    (stored : stores row ⟨index, before, operation, result, after⟩) :
    ∃ file, phase.stage = .working row file (some file) ∧
      (phase.after operation result).stage = .idle := by
  unfold stores at stored
  split at stored
  · rename_i same
    cases same
    subst stored
    obtain ⟨file, rfl⟩ := allows_upsert allowed
    exact ⟨file, rfl, rfl⟩
  · exact stored.elim

theorem rows_of_performed {index : Nat} (performed : operation.perform before = (result, after))
    {row : Texture} (member : row ∈ after.registry.rows) :
    row ∈ before.registry.rows ∨ stores row ⟨index, before, operation, result, after⟩ := by
  cases operation with
  | disk call =>
      obtain ⟨-, rfl⟩ := Prod.mk.inj performed
      exact .inl member
  | statement asked =>
      obtain ⟨answered, rfl⟩ := Prod.mk.inj performed
      cases asked with
      | filePath => exact .inl member
      | adminFetchAll => exact .inl member
      | deleteByUser kind userId => exact .inl (List.mem_filter.mp member).1
      | upsert stored =>
          simp only at answered member
          split at member
          · rename_i known
            rcases List.mem_cons.mp member with rfl | earlier
            · rw [if_pos known] at answered
              subst answered
              exact .inr rfl
            · exact .inl (List.mem_filter.mp earlier).1
          · exact .inl member

theorem after_of_fault (fault : operation.fault = some result) :
    phase.after operation result = phase := by
  unfold ContentPhase.after
  split <;> first | rfl | cases fault

end Effects

section Operated

variable {storageRoot : List String} {start : TextureService} {pool next : TrafficPool}
  {index : Nat} {phase : ContentPhase} {operation : TextureOperation} {result : operation.Result}
  {after : TextureService} (published : Published storageRoot start pool)
  (current : pool.phaseOf (contentProtocol storageRoot) index = some phase)
  (allowed : phase.allows operation)
  (occurs : textureStore.Occurs pool.shared operation result after)
  (kept : ∀ index request, pool.owner index = some request → next.owner index = some request)
  (shared : next.shared = after)
  (history : next.history = ⟨index, pool.shared, operation, result, after⟩ :: pool.history)

theorem older_within
    (history : next.history = ⟨index, pool.shared, operation, result, after⟩ :: pool.history) :
    pool.history ⊆ next.history := by
  rw [history]
  exact List.subset_cons_self _ _

include published current allowed occurs kept history in
theorem learned_after : Learned storageRoot start next (phase.after operation result) := by
  have within := older_within history
  have known := (published.learned index phase current).mono kept within
  unfold ContentPhase.after
  split
  · trivial
  · trivial
  · trivial
  · rename_i key userId kind path
    rcases occurs with ⟨-, performed⟩ | ⟨fault, -⟩
    · have found : (pool.shared.registry.find (userId, kind)).map (·.filePath) = some path :=
        Except.ok.inj (Prod.mk.inj performed).1
      obtain ⟨row, there, here⟩ := Option.map_eq_some_iff.mp found
      obtain ⟨member, same⟩ := Keyed.find_eq_some.mp there
      have wanted : (userId, kind) = key := allowed
      exact ⟨row, (published.rows row member).mono within, same.trans wanted, here⟩
    · cases fault
  · rename_i key expected path content
    rcases occurs with ⟨-, performed⟩ | ⟨fault, -⟩
    · have here : path = expected := allowed
      obtain ⟨row, stored, same, rfl⟩ := published.learned index _ current
      have answered : pool.shared.disk.read path = .ok content := (Prod.mk.inj performed).1
      have read : contentAt pool.shared.disk row.filePath = some content := by
        rw [← here, contentAt, answered]
        rfl
      have backed := published.sound.genuine row content stored read
      exact ⟨row, stored.mono within, same, Backed.mono kept backed⟩
    · cases fault
  · exact known

include published current allowed occurs kept shared history in
theorem Published.operated
    (phases : ∀ other, next.phaseOf (contentProtocol storageRoot) other =
      if other = index then some (phase.after operation result)
      else pool.phaseOf (contentProtocol storageRoot) other) :
    Published storageRoot start next := by
  have own : stageOf storageRoot pool index = phase.stage := by
    rw [stageOf, current]
    rfl
  have newest : stageOf storageRoot next index = (phase.after operation result).stage := by
    rw [stageOf, phases, if_pos rfl]
    rfl
  have told : ∀ row, Stored start next.history row → Stored start pool.history row ∨
      stores row ⟨index, pool.shared, operation, result, after⟩ := by
    rintro row (first | ⟨event, member, stored⟩)
    · exact .inl (.inl first)
    · rw [history] at member
      rcases List.mem_cons.mp member with rfl | earlier
      · exact .inr stored
      · exact .inl (.inr ⟨event, earlier, stored⟩)
  have step : Publication.Step Texture.filePath index (publicationOf storageRoot start pool)
      (publicationOf storageRoot start next) := by
    refine ⟨?_, fun _ _ => Backed.mono kept, ?_, ?_, ?_, ?_⟩
    · intro other apart
      change stageOf storageRoot next other = stageOf storageRoot pool other
      rw [stageOf, phases, if_neg apart]
      rfl
    · intro cell value found
      change contentAt next.shared.disk cell = some value at found
      change contentAt pool.shared.disk cell = some value ∨
        ∃ row file, (stageOf storageRoot pool index).pending = some (row, file) ∧
          (stageOf storageRoot next index).pending = some (row, file) ∧ row.filePath = cell
      rw [shared] at found
      rw [own, newest]
      rcases occurs with ⟨-, performed⟩ | ⟨-, rfl⟩
      · exact content_of_performed allowed performed found
      · exact .inl found
    · intro row stored
      change Stored start pool.history row ∨ ∃ file,
        stageOf storageRoot pool index = .working row file (some file) ∧
          stageOf storageRoot next index = .idle
      rw [own, newest]
      exact (told row stored).imp_right (stores_of_allowed allowed)
    · intro row file pending
      change (stageOf storageRoot next index).pending = _ at pending
      change (stageOf storageRoot pool index).pending = _ ∨ _
      rw [newest] at pending
      rw [own]
      exact .inl (pending_after pending)
    · intro row file held working other found
      change stageOf storageRoot next index = _ at working
      change contentAt next.shared.disk row.filePath = some other at found
      change other = held ∨ stageOf storageRoot pool index = _ ∧
        contentAt pool.shared.disk row.filePath = some other
      rw [newest] at working
      rw [shared] at found
      rw [own]
      rcases occurs with ⟨-, performed⟩ | ⟨fault, rfl⟩
      · apply writes_of_performed allowed performed _ working found
        intro row file held staged
        exact published.sound.written index row file held (own.trans staged)
      · rw [after_of_fault fault] at working
        exact .inr ⟨working, found⟩
  refine ⟨published.sound.step step, ?_, ?_, ?_⟩
  · intro row member
    rw [shared] at member
    rcases occurs with ⟨-, performed⟩ | ⟨-, rfl⟩
    · rcases @rows_of_performed _ _ _ _ index performed row member with earlier | stored
      · exact (published.rows row earlier).mono (older_within history)
      · refine .inr ⟨_, ?_, stored⟩
        rw [history]
        exact List.mem_cons_self
    · exact (published.rows row member).mono (older_within history)
  · intro row stored
    rcases told row stored with earlier | stored
    · rcases published.named row earlier with first | ⟨other, marked⟩
      · exact .inl first
      · exact .inr ⟨other, marked.mono kept⟩
    · obtain ⟨file, working, -⟩ := stores_of_allowed allowed stored
      have pending : (stageOf storageRoot pool index).pending = some (row, file) := by
        rw [own, working]
        rfl
      exact .inr ⟨index, (marked_of_pending pending).mono kept⟩
  · intro other inside there
    rw [phases] at there
    split at there
    · cases there
      exact learned_after published current allowed occurs kept history
    · exact (published.learned other inside there).mono kept (older_within history)

end Operated

theorem Published.move {storageRoot : List String} {start : TextureService}
    {pool next : TrafficPool} {choice : Move TextureTraffic}
    (published : Published storageRoot start pool)
    (obeys : pool.Obeys (contentProtocol storageRoot) Answered)
    (fresh : drawsFresh start pool choice = true)
    (moved : pool.move (handleTraffic storageRoot) choice = some next) :
    Published storageRoot start next := by
  have kept : ∀ index request, pool.owner index = some request →
      next.owner index = some request := fun _ _ owned => Pool.owner_move moved owned
  rcases Pool.move_phases obeys moved with ⟨request, rfl, shared, history, phases⟩ |
    ⟨index, phase, operation, result, after, -, -, current, allowed, occurs, shared, history,
      phases⟩
  · apply published.started fresh kept _ shared history phases
    obtain rfl := Option.some.inj moved
    rw [Pool.owner_started, if_pos rfl]
  · exact published.operated current allowed occurs kept shared history phases

/-! ## What is served -/

structure Genuine (row : Texture) (content : Bytes) : Prop where
  image : ∃ width height, validatePng row.kind content = .ok (width, height)
  size : row.fileSize = content.length
  small : content.length ≤ maxUploadBytes

theorem readUpload_ok {kind : TextureKind} {multipart : Multipart} {file : Bytes}
    {variant : Option SkinVariant} (read : readUpload kind multipart = .ok (file, variant)) :
    (∃ width height, validatePng kind file = .ok (width, height)) ∧
      file.length ≤ maxUploadBytes := by
  unfold readUpload at read
  split at read
  · cases read
  · cases read
  · rename_i found text gathered
    split at read
    · cases read
    · rename_i dimensions valid
      cases read
      exact ⟨⟨dimensions.1, dimensions.2, valid⟩, Catalog.readCappedUpload_le gathered⟩

theorem asI32_of_small {length : Nat} (small : length ≤ maxUploadBytes) :
    Catalog.asI32 length = length := by
  have bound : length < 2 ^ 31 := Nat.lt_of_le_of_lt small (by decide)
  unfold Catalog.asI32
  rw [BitVec.toInt_eq_toNat_of_lt]
  · rw [BitVec.toNat_ofNat, Nat.mod_eq_of_lt (by omega)]
  · rw [BitVec.toNat_ofNat]
    omega

theorem genuine_of_uploads {storageRoot : List String} {request : TextureTraffic} {row : Texture}
    {file : Bytes} (uploads : request.uploads storageRoot = some (row, file)) :
    Genuine row file := by
  cases request with
  | readPng => cases uploads
  | write request =>
      cases request with
      | upload segment user multipart revision now =>
          simp only [TextureTraffic.uploads, uploadedTexture, Option.bind_eq_bind,
            Option.bind_eq_some_iff, Option.some.injEq, Prod.mk.injEq] at uploads
          obtain ⟨kind, -, ⟨bytes, variant⟩, read, profileUuid, -, rfl, rfl⟩ := uploads
          have accepted : readUpload kind multipart = .ok (bytes, variant) := by
            cases result : readUpload kind multipart with
            | error error =>
                rw [result] at read
                cases read
            | ok found =>
                rw [result] at read
                cases read
                rfl
          obtain ⟨image, small⟩ := readUpload_ok accepted
          exact ⟨image, asI32_of_small small, small⟩
      | _ => cases uploads

section Runs

variable (storageRoot : List String) (start : TextureService)

theorem published_initial : Published storageRoot start (.initial start) where
  sound := by
    refine ⟨?_, ?_, ?_⟩
    · rintro row content (first | ⟨event, member, -⟩) found
      · exact .inl ⟨first, found⟩
      · exact (List.not_mem_nil member).elim
    · intro agent row file pending
      cases pending
    · intro agent row file held working
      cases working
  rows _ member := .inl member
  named := by
    rintro row (first | ⟨event, member, -⟩)
    · exact .inl first
    · exact (List.not_mem_nil member).elim
  learned _ _ current := by cases current

theorem genuine_of_backed {pool : TrafficPool}
    (intact : ∀ row ∈ start.registry.rows, ∀ content,
      contentAt start.disk row.filePath = some content → Genuine row content)
    {row : Texture} {content : Bytes} (backed : Backed storageRoot start pool row content) :
    Genuine row content := by
  rcases backed with ⟨first, found⟩ | ⟨index, request, -, uploads⟩
  · exact intact row first content found
  · exact genuine_of_uploads uploads

theorem key_of_phase (request : TextureTraffic) (index : Nat)
    (history : List (Event textureStore))
    (reading : ((contentProtocol storageRoot).phase request index history).key.isSome = true) :
    ((contentProtocol storageRoot).phase request index history).key = request.reads := by
  have same : ((contentProtocol storageRoot).phase request index history).key =
      (request.phase storageRoot).key := by
    apply @Protocol.phase_induction _ _ (contentProtocol storageRoot)
      (fun phase => phase.key = (request.phase storageRoot).key)
    · exact rfl
    · intro phase operation result known
      exact (ContentPhase.key_after phase operation result).trans known
  rw [same] at reading ⊢
  unfold TextureTraffic.phase at reading ⊢
  cases about : request.reads with
  | some key => rfl
  | none =>
      rw [about] at reading
      cases uploads : request.uploads storageRoot with
      | none =>
          rw [uploads] at reading
          cases reading
      | some claim =>
          rw [uploads] at reading
          cases reading

def imageServed (pool : TrafficPool) (index : Nat) : Option Bytes :=
  match pool.entries[index]? with
  | some (_, .done (.ok (.png bytes))) => some bytes
  | _ => none

/-- Where no two uploads draw one revision, the file of a row holds what was uploaded with the row,
whole and checked, or is gone, in every state. A read serves such bytes for the texture that it asks
for. -/
theorem served_textures_genuine
    (intact : ∀ row ∈ start.registry.rows, ∀ content,
      contentAt start.disk row.filePath = some content → Genuine row content)
    {moves : List (Move TextureTraffic)} {final : TrafficPool}
    (fresh : Along (Pool.move (handleTraffic storageRoot))
      (fun pool choice => drawsFresh start pool choice = true) (.initial start) moves)
    (reached : run (Pool.move (handleTraffic storageRoot)) (.initial start) moves = some final) :
    (∀ row ∈ final.shared.registry.rows, ∀ content,
      contentAt final.shared.disk row.filePath = some content →
        Genuine row content ∧ Backed storageRoot start final row content) ∧
    ∀ index content, imageServed final index = some content →
      ∃ request row, final.owner index = some request ∧ request.reads = some row.key ∧
        Genuine row content ∧ Backed storageRoot start final row content := by
  have step : ∀ (pool : TrafficPool) choice next, Published storageRoot start pool →
      pool.Obeys (contentProtocol storageRoot) Answered → drawsFresh start pool choice = true →
      pool.move (handleTraffic storageRoot) choice = some next → Published storageRoot start next :=
    fun _ _ _ published obeys fresh moved => published.move obeys fresh moved
  obtain ⟨published, obeys⟩ := Pool.invariant_of_protocol handleTraffic_follows step
    (published_initial storageRoot start) fresh reached
  constructor
  · intro row member content found
    have backed := published.sound.genuine row content (published.rows row member) found
    exact ⟨genuine_of_backed storageRoot start intact backed, backed⟩
  · intro index content seen
    unfold imageServed at seen
    split at seen
    · rename_i request bytes done
      cases seen
      obtain ⟨key, ended⟩ := obeys.2 index request _ done content rfl
      have owned := Pool.owner_of_entry done
      have current : final.phaseOf (contentProtocol storageRoot) index =
          some (.served key content) := by
        rw [Pool.phaseOf, owned, Option.map_some, ended]
      obtain ⟨row, -, same, backed⟩ := published.learned index _ current
      have about := key_of_phase storageRoot request index final.history (by rw [ended]; rfl)
      rw [ended] at about
      exact ⟨request, row, owned, by rw [same]; exact about.symm,
        genuine_of_backed storageRoot start intact backed, backed⟩
    · cases seen

end Runs

/-- The read has found the row of the first upload, and opens its file while the second upload is
writing its own. -/
def readDuringUpload : List (Move TextureTraffic) :=
  .start (.write (.upload "skin" aurora skinBody firstRevision 0)) ::
    List.replicate 5 (.advance 0) ++
    [.start (.readPng "0123456789abcdef0123456789abcdef" "skin" fun _ => .ok (some 1)),
      .advance 1, .start (.write (.upload "skin" aurora skinBody secondRevision 1)),
      .advance 2, .advance 2, .advance 1]

theorem served_textures_genuine_during_upload :
    ∃ final content row, run (Pool.move (handleTraffic ["textures"])) (.initial noTextures)
      readDuringUpload = some final ∧ imageServed final 1 = some content ∧ content.length = 24 ∧
        Genuine row content := by
  have ended : ((run (Pool.move (handleTraffic ["textures"])) (.initial noTextures)
      readDuringUpload).map fun final => (imageServed final 1).map List.length) =
        some (some 24) := by decide +kernel
  obtain ⟨final, reached, served⟩ := Option.map_eq_some_iff.mp ended
  obtain ⟨content, seen, whole⟩ := Option.map_eq_some_iff.mp served
  have fresh : Along (Pool.move (handleTraffic ["textures"]))
      (fun pool choice => drawsFresh noTextures pool choice = true) (.initial noTextures)
      readDuringUpload := by decide +kernel
  obtain ⟨-, row, -, -, genuine, -⟩ := (served_textures_genuine ["textures"] noTextures
    (fun row member => (List.not_mem_nil member).elim) fresh reached).2 1 content seen
  exact ⟨final, content, row, reached, seen, whole, genuine⟩

end Loontail.Textures
