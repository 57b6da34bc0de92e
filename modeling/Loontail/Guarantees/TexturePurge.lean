import Loontail.Guarantees.TextureFiles

/-! # A purge of textures spares the files that exist

A purge tests the files of the rows that it has listed, and then deletes by user and kind. An
upload that replaces a row in between loses its own. -/

namespace Loontail.Textures

open Concurrency Disk Relational
open Bundles (DiskCall)

/-! ## Rows that are replaced -/

def lists (index : Nat) (kind : TextureKind) (event : Event textureStore) : Bool :=
  event.process = index &&
    match event with
    | ⟨_, _, .statement (.adminFetchAll other _), .ok _, _⟩ => other = kind
    | _ => false

def replaces (key : TextureKey) (path : List String) (event : Event textureStore) : Bool :=
  match event with
  | ⟨_, _, .statement (.upsert row), .ok _, _⟩ => row.key = key
  | ⟨_, _, .disk (.create other), .ok _, _⟩ => other = path
  | _ => false

/-- The history, newest first, has no upload of the row or its file since the process listed. -/
def unreplaced (index : Nat) (key : TextureKey) (path : List String) :
    List (Event textureStore) → Bool
  | [] => false
  | event :: earlier =>
      lists index key.2 event || !replaces key path event && unreplaced index key path earlier

def TextureRequest.purges : TextureRequest → Bool
  | purgeMissing .. => true
  | _ => false

/-- A purge deletes a row only as it has listed it, and takes no file for missing that exists. -/
def purgesInOrder (pool : TexturePool) : Move TextureRequest → Bool
  | .start _ => true
  | .advance index =>
      match pool.owner index, pool.upcoming index with
      | some request, some (.statement (.deleteByUser kind userId)) =>
          match pool.shared.stored (userId, kind) with
          | some path => !request.purges || unreplaced index (userId, kind) path pool.history
          | none => true
      | _, _ => true
  | .fail index =>
      match pool.owner index, pool.upcoming index with
      | some request, some (.disk (.tryExists path)) =>
          !request.purges || !pool.shared.disk.isFile path
      | _, _ => true

def deletedPath : Event textureStore → Option (List String)
  | ⟨_, _, .statement (.deleteByUser ..), .ok path, _⟩ => path
  | _ => none

def overlooks : Event textureStore → Bool
  | ⟨_, _, .disk (.tryExists _), .ok true, _⟩ => false
  | ⟨_, before, .disk (.tryExists path), _, _⟩ => before.disk.isFile path
  | _ => false

def PurgesMissing (pool : TexturePool) : Prop :=
  ∀ event ∈ pool.history, ∀ request, pool.owner event.process = some request →
    request.purges = true → ∀ path, deletedPath event = some path →
      event.before.disk.isFile path = false

/-! ## What a purge knows -/

/-- Of the rows that were not replaced: they are as they were listed, and those that were found
missing still are. -/
structure Knows (service : TextureService) (history : List (Event textureStore)) (index : Nat)
    (kind : TextureKind) (listed missing : List Texture) : Prop where
  within : missing ⊆ listed
  kinds : ∀ row ∈ listed, row.kind = kind
  same : ∀ row, service.registry.find row.key = some row → row.kind = kind →
    unreplaced index row.key row.filePath history = true →
      ∀ other ∈ listed, other.key = row.key → other = row
  gone : ∀ row ∈ missing, service.registry.find row.key = some row →
    unreplaced index row.key row.filePath history = true →
      service.disk.isFile row.filePath = false

section Knowing

variable {before after : TextureService} {operation : TextureOperation}
  {result : operation.Result} {phase : TexturePhase} {history : List (Event textureStore)}
  {index process : Nat} {kind : TextureKind} {listed missing : List Texture}

theorem find_of_erase {registry : Keyed Texture.key} {key other : TextureKey} {row : Texture}
    (found : (registry.erase other).find key = some row) : registry.find key = some row := by
  rw [Keyed.find_erase] at found
  split at found
  · cases found
  · exact found

theorem spared {key : TextureKey} {path : List String}
    (occurs : textureStore.Occurs before operation result after) (allowed : phase.allows operation)
    (spares : replaces key path ⟨process, before, operation, result, after⟩ = false) :
    (∀ row, after.registry.find key = some row → before.registry.find key = some row) ∧
      (before.disk.isFile path = false → after.disk.isFile path = false) := by
  rcases occurs with ⟨-, performed⟩ | ⟨-, rfl⟩
  · unfold TexturePhase.allows at allowed
    split at allowed
    · obtain ⟨-, rfl⟩ := Prod.mk.inj performed
      exact ⟨fun _ => id, fun gone => (congrFun isFile_createDirAll path).trans gone⟩
    · rename_i target other
      obtain ⟨made, rfl⟩ := Prod.mk.inj performed
      refine ⟨fun _ => id, fun gone => ?_⟩
      cases result with
      | error error =>
          change ((DiskCall.create other).perform before.disk).2.isFile path = false
          rw [isFile_create_refused made]
          exact gone
      | ok created =>
          have apart : path ≠ other := fun same => of_decide_eq_false spares same.symm
          refine (congrFun (isFile_create made) path).trans ?_
          rw [Function.update_apply, if_neg apart]
          exact gone
    · obtain ⟨-, rfl⟩ := Prod.mk.inj performed
      exact ⟨fun _ => id, fun gone => (congrFun isFile_append path).trans gone⟩
    · obtain ⟨-, rfl⟩ := Prod.mk.inj performed
      exact ⟨fun _ => id, id⟩
    · rename_i own place old row
      simp only [TextureOperation.perform, TextureStatement.execute] at performed
      split at performed
      · obtain ⟨rfl, rfl⟩ := Prod.mk.inj performed
        refine ⟨fun other found => ?_, id⟩
        have apart : key ≠ row.key := fun same => of_decide_eq_false spares same.symm
        exact (Keyed.find_upsert.trans (if_neg apart)).symm.trans found
      · obtain ⟨-, rfl⟩ := Prod.mk.inj performed
        exact ⟨fun _ => id, id⟩
    · obtain ⟨-, rfl⟩ := Prod.mk.inj performed
      refine ⟨fun _ => id, fun gone => (congrFun isFile_removeFile path).trans ?_⟩
      rw [Function.update_apply, gone, ite_self]
    · obtain ⟨-, rfl⟩ := Prod.mk.inj performed
      exact ⟨fun row found => find_of_erase found, id⟩
    · obtain ⟨-, rfl⟩ := Prod.mk.inj performed
      exact ⟨fun _ => id, id⟩
    · obtain ⟨-, rfl⟩ := Prod.mk.inj performed
      exact ⟨fun _ => id, id⟩
    · obtain ⟨-, rfl⟩ := Prod.mk.inj performed
      exact ⟨fun _ => id, id⟩
    · obtain ⟨-, rfl⟩ := Prod.mk.inj performed
      exact ⟨fun row found => find_of_erase found, id⟩
    · exact allowed.elim
  · exact ⟨fun _ => id, id⟩

theorem unreplaced_cons {key : TextureKey} {path : List String} {event : Event textureStore}
    (unlisted : lists index key.2 event = false)
    (still : unreplaced index key path (event :: history) = true) :
    replaces key path event = false ∧ unreplaced index key path history = true := by
  rw [unreplaced, unlisted, Bool.false_or, Bool.and_eq_true, Bool.not_eq_true'] at still
  exact still

theorem Knows.frame (knows : Knows before history index kind listed missing)
    (occurs : textureStore.Occurs before operation result after) (allowed : phase.allows operation)
    (unlisted : lists index kind ⟨process, before, operation, result, after⟩ = false) :
    Knows after (⟨process, before, operation, result, after⟩ :: history) index kind listed
      missing where
  within := knows.within
  kinds := knows.kinds
  same row found kinds still other member key := by
    rw [← kinds] at unlisted
    obtain ⟨spares, earlier⟩ := unreplaced_cons unlisted still
    exact knows.same row ((spared occurs allowed spares).1 row found) kinds earlier other member key
  gone row member found still := by
    rw [← knows.kinds row (knows.within member)] at unlisted
    obtain ⟨spares, earlier⟩ := unreplaced_cons unlisted still
    obtain ⟨kept, missing⟩ := spared occurs allowed spares
    exact missing (knows.gone row member (kept row found) earlier)

theorem mem_adminList {folding : CaseFolding} {search : String} {limit offset : Int64}
    {rows : List Texture} {arrangement : Arrangement Texture.recency} {row : Texture}
    (member : row ∈ (adminList folding kind search limit offset rows arrangement).getD []) :
    row ∈ rows ∧ row.kind = kind := by
  rw [adminList, limitOffset] at member
  split at member
  · cases member
  · have ordered := List.mem_of_mem_drop (List.mem_of_mem_take member)
    have selected := (arrangement.perm _).mem_iff.mp ordered
    obtain ⟨inside, chosen⟩ := List.mem_filter.mp selected
    simp only [Texture.selected, Bool.and_eq_true, decide_eq_true_eq] at chosen
    exact ⟨inside, chosen.1⟩

theorem knows_of_listing {arrangement : Arrangement Texture.recency} {rows : List Texture}
    (occurs : textureStore.Occurs before (.statement (.adminFetchAll kind arrangement)) (.ok rows)
      after) : Knows after history index kind rows [] := by
  rcases occurs with ⟨-, performed⟩ | ⟨fault, -⟩
  · obtain ⟨found, rfl⟩ := Prod.mk.inj performed
    obtain rfl := Except.ok.inj found
    refine ⟨List.nil_subset _, fun row member => (mem_adminList member).2,
      fun row found kinds still other member key => ?_, fun row member => (List.not_mem_nil member).elim⟩
    have own := Keyed.find_eq_some.mpr ⟨(mem_adminList member).1, key⟩
    exact Option.some.inj (own.symm.trans found)
  · cases fault

theorem Knows.noted {path : List String} (knows : Knows after history index kind listed missing)
    (absent : after.disk.isFile path = false) :
    Knows after history index kind listed
      (missing ++ listed.filter fun row => row.filePath = path) where
  within := List.append_subset.mpr ⟨knows.within, List.filter_subset_self _⟩
  kinds := knows.kinds
  same := knows.same
  gone row member found still := by
    rcases List.mem_append.mp member with known | noted
    · exact knows.gone row known found still
    · rw [of_decide_eq_true (List.mem_filter.mp noted).2]
      exact absent

theorem Knows.tested {path : List String} {answer : Except IoError Bool}
    (knows : Knows before history index kind listed missing)
    (occurs : textureStore.Occurs before (.disk (.tryExists path)) answer after)
    (sees : overlooks ⟨index, before, .disk (.tryExists path), answer, after⟩ = false) :
    Knows after (⟨index, before, .disk (.tryExists path), answer, after⟩ :: history) index kind
      listed (TexturePhase.tested listed missing path answer) := by
  have allowed : (TexturePhase.testing kind listed missing).allows (.disk (.tryExists path)) :=
    trivial
  have framed := @Knows.frame _ _ _ answer _ _ _ index _ _ _ knows occurs allowed
    (Bool.and_false _)
  have same : after.disk.isFile path = before.disk.isFile path := by
    rcases occurs with ⟨-, performed⟩ | ⟨-, rfl⟩
    · obtain ⟨-, rfl⟩ := Prod.mk.inj performed
      rfl
    · rfl
  cases answer with
  | error error => exact framed.noted (same.trans sees)
  | ok present =>
      cases present with
      | false => exact framed.noted (same.trans sees)
      | true => exact framed

def Relies (service : TextureService) (history : List (Event textureStore)) (index : Nat) :
    TexturePhase → Prop
  | .surveying => True
  | .testing kind listed missing => Knows service history index kind listed missing
  | _ => False

theorem overlooks_of_performed (performed : operation.perform before = (result, after)) :
    overlooks ⟨index, before, operation, result, after⟩ = false := by
  cases operation with
  | statement => rfl
  | disk call =>
      cases call with
      | tryExists path =>
          obtain ⟨rfl, -⟩ := Prod.mk.inj performed
          change overlooks ⟨_, _, .disk (.tryExists path), .ok (before.disk.present path), _⟩ = _
          cases present : before.disk.present path with
          | true => rfl
          | false =>
              have none : before.disk.isFile path ≠ true := fun file => by
                rw [Tree.present_cases.mpr (.inl file)] at present
                cases present
              exact Bool.eq_false_iff.mpr none
      | _ => rfl

theorem lists_of_other {event : Event textureStore} (other : event.process ≠ index) :
    lists index kind event = false := by
  simp only [lists, other, decide_false, Bool.false_and]

theorem Relies.frame {own : TexturePhase} (relies : Relies before history index own)
    (other : process ≠ index) (occurs : textureStore.Occurs before operation result after)
    (allowed : phase.allows operation) :
    Relies after (⟨process, before, operation, result, after⟩ :: history) index own := by
  cases own with
  | fresh => exact relies.elim
  | under => exact relies.elim
  | surveying => trivial
  | testing => exact Knows.frame relies occurs allowed (lists_of_other other)

theorem Relies.own (relies : Relies before history index phase)
    (occurs : textureStore.Occurs before operation result after) (allowed : phase.allows operation)
    (sees : overlooks ⟨index, before, operation, result, after⟩ = false) :
    Relies after (⟨index, before, operation, result, after⟩ :: history) index
      (phase.after operation result) := by
  unfold TexturePhase.allows at allowed
  split at allowed
  · exact relies.elim
  · exact relies.elim
  · exact relies.elim
  · exact relies.elim
  · exact relies.elim
  · exact relies.elim
  · exact relies.elim
  · cases result with
    | error error => trivial
    | ok rows => exact knows_of_listing occurs
  · rename_i kind listed missing other arrangement
    cases result with
    | error error =>
        have listing : (TexturePhase.testing kind listed missing).allows
          (.statement (.adminFetchAll other arrangement)) := trivial
        exact Knows.frame relies occurs listing (Bool.and_false _)
    | ok rows => exact knows_of_listing occurs
  · exact Knows.tested relies occurs sees
  · rename_i kind listed missing other userId
    have deleting : (TexturePhase.testing kind listed missing).allows
      (.statement (.deleteByUser other userId)) := allowed
    exact Knows.frame relies occurs deleting (Bool.and_false _)
  · exact allowed.elim

theorem Relies.absent {path : List String} {userId : Uuid}
    (relies : Relies before history index phase)
    (allowed : phase.allows (.statement (.deleteByUser kind userId)))
    (stored : before.stored (userId, kind) = some path)
    (unreplaced : unreplaced index (userId, kind) path history = true) :
    before.disk.isFile path = false := by
  cases phase with
  | fresh => exact relies.elim
  | under => exact relies.elim
  | surveying => exact allowed.elim
  | testing own listed missing =>
      obtain ⟨rfl, row, member, rfl⟩ := allowed
      obtain ⟨current, found, rfl⟩ := Option.map_eq_some_iff.mp stored
      have key : current.key = (row.userId, kind) := (Keyed.find_eq_some.mp found).2
      have ofKind := Knows.kinds relies row (Knows.within relies member)
      have own : row.key = current.key := by
        rw [key, Texture.key, ofKind]
      rw [← key] at found unreplaced
      obtain rfl := Knows.same relies current found (congrArg Prod.snd key) unreplaced row
        (Knows.within relies member) own
      exact Knows.gone relies row member found unreplaced

end Knowing

/-! ## Runs -/

structure Purging (storageRoot : List String) (pool : TexturePool) : Prop where
  relies : ∀ index request phase, pool.owner index = some request → request.purges = true →
    pool.phaseOf (textureProtocol storageRoot) index = some phase →
      Relies pool.shared pool.history index phase
  missing : PurgesMissing pool

section Steps

variable {storageRoot : List String} {pool next : TexturePool} {choice : Move TextureRequest}

theorem purging_initial (start : TextureService) : Purging storageRoot (.initial start) := by
  refine ⟨fun index request phase owned => ?_, fun event member => ?_⟩
  · cases owned
  · exact (List.not_mem_nil member).elim

theorem same_owner (moved : pool.move (handleTexture storageRoot) choice = some next) {index : Nat}
    {first second : TextureRequest} (earlier : pool.owner index = some first)
    (later : next.owner index = some second) : first = second :=
  Option.some.inj ((Pool.owner_move moved earlier).symm.trans later)

theorem owner_before (recorded : pool.Recorded)
    (moved : pool.move (handleTexture storageRoot) choice = some next)
    {event : Event textureStore} (member : event ∈ pool.history) {request : TextureRequest}
    (owned : next.owner event.process = some request) :
    pool.owner event.process = some request := by
  have bound := recorded event member
  have earlier : pool.owner event.process = some pool.entries[event.process].1 :=
    Pool.owner_of_entry (List.getElem?_eq_getElem bound)
  rw [same_owner moved earlier owned] at earlier
  exact earlier

theorem Purging.started {request : TextureRequest} (purging : Purging storageRoot pool)
    (recorded : pool.Recorded)
    (moved : pool.move (handleTexture storageRoot) (.start request) = some next)
    (phases : ∀ other, next.phaseOf (textureProtocol storageRoot) other =
      if other = pool.entries.length then some (request.phase storageRoot)
      else pool.phaseOf (textureProtocol storageRoot) other) :
    Purging storageRoot next := by
  have made : next = pool.started request (handleTexture storageRoot request) :=
    (Option.some.inj moved).symm
  have history : next.history = pool.history := by rw [made]; rfl
  have shared : next.shared = pool.shared := by rw [made]; rfl
  refine ⟨fun index own phase owned purges current => ?_, fun event member own owned => ?_⟩
  · rw [shared, history]
    rw [phases] at current
    rw [made, Pool.owner_started] at owned
    split at current
    · rename_i newest
      rw [if_pos newest] at owned
      obtain rfl := Option.some.inj owned
      obtain rfl := Option.some.inj current
      cases request with
      | upload => cases purges
      | delete => cases purges
      | adminDelete => cases purges
      | orphans => cases purges
      | purgeMissing => trivial
    · rename_i older
      rw [if_neg older] at owned
      exact purging.relies index own phase owned purges current
  · rw [history] at member
    exact purging.missing event member own (owner_before recorded moved member owned)

theorem Purging.operated {index : Nat} {phase : TexturePhase} {operation : TextureOperation}
    {result : operation.Result} {after : TextureService} (purging : Purging storageRoot pool)
    (recorded : pool.Recorded)
    (moved : pool.move (handleTexture storageRoot) choice = some next)
    (current : pool.phaseOf (textureProtocol storageRoot) index = some phase)
    (allowed : phase.allows operation)
    (occurs : textureStore.Occurs pool.shared operation result after)
    (sees : ∀ request, pool.owner index = some request → request.purges = true →
      overlooks ⟨index, pool.shared, operation, result, after⟩ = false)
    (deletes : ∀ request path, pool.owner index = some request → request.purges = true →
      deletedPath ⟨index, pool.shared, operation, result, after⟩ = some path →
        pool.shared.disk.isFile path = false)
    (shared : next.shared = after)
    (history : next.history = ⟨index, pool.shared, operation, result, after⟩ :: pool.history)
    (phases : ∀ other, next.phaseOf (textureProtocol storageRoot) other =
      if other = index then some (phase.after operation result)
      else pool.phaseOf (textureProtocol storageRoot) other) :
    Purging storageRoot next := by
  have owner_of : ∀ other own phase', next.owner other = some own →
      pool.phaseOf (textureProtocol storageRoot) other = some phase' →
        pool.owner other = some own := by
    intro other own phase' owned inside
    obtain ⟨earlier, known, -⟩ := Option.map_eq_some_iff.mp inside
    rw [known, same_owner moved known owned]
  refine ⟨fun other own phase' owned purges inside => ?_, fun event member own owned => ?_⟩
  · rw [shared, history]
    rw [phases] at inside
    split at inside
    · rename_i same
      subst same
      have known := owner_of other own phase owned current
      obtain rfl := Option.some.inj inside
      exact (purging.relies other own phase known purges current).own occurs allowed
        (sees own known purges)
    · rename_i apart
      have known := owner_of other own phase' owned inside
      exact (purging.relies other own phase' known purges inside).frame (Ne.symm apart) occurs
        allowed
  · rw [history] at member
    rcases List.mem_cons.mp member with rfl | earlier
    · intro purges path deleted
      exact deletes own path (owner_of index own phase owned current) purges deleted
    · exact purging.missing event earlier own (owner_before recorded moved earlier owned)

theorem Purging.move (purging : Purging storageRoot pool)
    (obeys : pool.Obeys (textureProtocol storageRoot) Discharged)
    (ordered : purgesInOrder pool choice = true)
    (moved : pool.move (handleTexture storageRoot) choice = some next) :
    Purging storageRoot next := by
  rcases Pool.move_phases obeys moved with ⟨request, rfl, -, -, phases⟩ |
    ⟨index, phase, operation, result, after, made, upcoming, current, allowed, occurs,
      shared, history, phases⟩
  · exact purging.started obeys.1 moved phases
  · refine purging.operated obeys.1 moved current allowed occurs (fun request owned purges => ?_)
      (fun request path owned purges deleted => ?_) shared history phases
    · rcases made with rfl | ⟨rfl, fault⟩
      · exact overlooks_of_performed (Pool.performed_of_advance moved history)
      · cases operation with
        | statement => rfl
        | disk call =>
            cases call with
            | tryExists path =>
                simp only [purgesInOrder, owned, upcoming, purges, Bool.not_true,
                  Bool.false_or, Bool.not_eq_true'] at ordered
                obtain rfl := Option.some.inj fault
                exact ordered
            | _ => rfl
    · cases operation with
      | disk => cases deleted
      | statement asked =>
          cases asked with
          | deleteByUser kind userId =>
              cases result with
              | error error => cases deleted
              | ok removed =>
                  change removed = some path at deleted
                  subst deleted
                  rcases made with rfl | ⟨rfl, fault⟩
                  · obtain ⟨found, -⟩ := Prod.mk.inj (Pool.performed_of_advance moved history)
                    have stored : pool.shared.stored (userId, kind) = some path :=
                      Except.ok.inj found
                    simp only [purgesInOrder, owned, upcoming, purges, stored, Bool.not_true,
                      Bool.false_or] at ordered
                    exact (purging.relies index request phase owned purges current).absent
                      allowed stored ordered
                  · cases fault
          | _ => cases deleted

end Steps

/-- Where a purge deletes only rows that no upload has replaced since it listed them, it spares the
rows of files that exist. -/
theorem texture_purge_spares (storageRoot : List String) (start : TextureService)
    {moves : List (Move TextureRequest)} {final : TexturePool}
    (ordered : Along (Pool.move (handleTexture storageRoot))
      (fun pool choice => purgesInOrder pool choice = true) (.initial start) moves)
    (reached : run (Pool.move (handleTexture storageRoot)) (.initial start) moves = some final) :
    PurgesMissing final := by
  have kept : ∀ (pool : TexturePool) choice next, Purging storageRoot pool →
      pool.Obeys (textureProtocol storageRoot) Discharged → purgesInOrder pool choice = true →
      pool.move (handleTexture storageRoot) choice = some next → Purging storageRoot next :=
    fun _ _ _ purging obeys ordered moved => purging.move obeys ordered moved
  exact (Pool.invariant_of_protocol handleTexture_follows kept (purging_initial start) ordered
    reached).1.missing

def lostSkin : TextureService where
  users := [1]
  registry := Keyed.upsert .empty
    { userId := 1
      kind := .skin
      profileUuid := "0a"
      username := "aurora"
      filePath := diskPath ["textures"] .skin "0a" firstRevision
      fileUrl := relativeTextureUrl "0a" "skin"
      fileSize := 24
      variant := some .classic
      updatedAt := 0 }
  disk := .empty
  folding := noTextures.folding

def purge : Move TextureRequest := .start (.purgeMissing .stable .stable)

/-- The upload has written its file when the purge deletes the row of the lost one, and stores its
own row after that. -/
def uploadAroundPurge : List (Move TextureRequest) :=
  [purge, .advance 0, .advance 0, skinUpload secondRevision] ++
    List.replicate 4 (.advance 1) ++ List.replicate 2 (.advance 0) ++
    List.replicate 2 (.advance 1)

theorem texture_purge_spares_beside :
    ∃ final, run (Pool.move (handleTexture ["textures"])) (.initial lostSkin)
      uploadAroundPurge = some final ∧
        final.history.filterMap deletedPath = [diskPath ["textures"] .skin "0a" firstRevision] ∧
        final.shared.registry.rows.map (·.filePath) =
          [diskPath ["textures"] .skin "0a" secondRevision] ∧
        PurgesMissing final := by
  have ended : ((run (Pool.move (handleTexture ["textures"])) (.initial lostSkin)
      uploadAroundPurge).map fun final =>
        (final.history.filterMap deletedPath, final.shared.registry.rows.map (·.filePath))) =
        some ([diskPath ["textures"] .skin "0a" firstRevision],
          [diskPath ["textures"] .skin "0a" secondRevision]) := by decide +kernel
  obtain ⟨final, reached, seen⟩ := Option.map_eq_some_iff.mp ended
  obtain ⟨deleted, stored⟩ := Prod.mk.inj seen
  have ordered : Along (Pool.move (handleTexture ["textures"]))
      (fun pool choice => purgesInOrder pool choice = true) (.initial lostSkin)
      uploadAroundPurge := by decide +kernel
  exact ⟨final, reached, deleted, stored,
    texture_purge_spares ["textures"] lostSkin ordered reached⟩

/-- The upload begins when the purge has missed the file, and ends before the row is deleted. -/
def uploadDuringPurge : List (Move TextureRequest) :=
  [purge, .advance 0, .advance 0, skinUpload secondRevision] ++
    List.replicate 6 (.advance 1) ++ [.advance 0]

theorem texture_purge_deletes_uploaded :
    ¬∀ (storageRoot : List String) (start : TextureService) (moves : List (Move TextureRequest))
      (final : TexturePool), (∀ index, Move.fail index ∉ moves) →
      run (Pool.move (handleTexture storageRoot)) (.initial start) moves = some final →
      PurgesMissing final := by
  intro always
  have ended : ((run (Pool.move (handleTexture ["textures"])) (.initial lostSkin)
      uploadDuringPurge).map fun final => final.history.any fun event =>
        (final.owner event.process).any TextureRequest.purges &&
          (deletedPath event).any event.before.disk.isFile) = some true := by
    decide +kernel
  obtain ⟨final, reached, seen⟩ := Option.map_eq_some_iff.mp ended
  obtain ⟨event, member, lost⟩ := List.any_eq_true.mp seen
  obtain ⟨owned, deleted⟩ := Bool.and_eq_true_iff.mp lost
  obtain ⟨request, owner, purges⟩ := (Option.any_eq_true _ _).mp owned
  obtain ⟨path, removed, present⟩ := (Option.any_eq_true _ _).mp deleted
  have spared := always ["textures"] lostSkin uploadDuringPurge final
    (fun index => by simp [uploadDuringPurge, purge, skinUpload]) reached
  have gone := spared event member request owner purges path removed
  rw [present] at gone
  cases gone

end Loontail.Textures
