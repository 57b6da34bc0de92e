import Loontail.Bundles.TidyOperations
import Loontail.Guarantees.MovedBytes
import Loontail.Guarantees.ScanReconciliation

/-! # The rows of a build form a tree

Whatever is uploaded, made, moved, renamed or deleted: every row stays named after its path and
on disk as what it is, and no file has a row below it.

A move takes rows in its transaction and files by its renames; the rows that the transaction has
so far are tidy with the tree, until it commits them. An archive takes the place of all files, and
the scan after it gives every one of them its row; one that is refused leaves the rows without the
files that it cleared. -/

namespace Loontail.Bundles

open Concurrency Disk Relational

/-- What a refused batch keeps as well: the rows are named after their paths, and the names on
disk are plain. -/
structure Coherent (id : Uuid) (slug : String) (service : Service) : Prop where
  registered : Registered service.database id slug
  named : ∀ row ∈ service.database.artifacts.rows, row.bundleId = id → row.Named
  bare : Tidy id slug [] service.disk

theorem Standing.coherent {id : Uuid} {slug : String} {service : Service}
    (standing : Standing id slug service) : Coherent id slug service where
  registered := standing.registered
  named := standing.tidy.named
  bare := standing.tidy.fewer fun _ member => absurd member List.not_mem_nil

def Placed (id : Uuid) (slug : String) (rows : List BundleArtifact) (disk : Builds) : Prop :=
  ∀ row ∈ rows, row.bundleId = id →
    kindAt disk (joinFiles (filesPath slug) row.relativePath) = some row.isDir

theorem Coherent.standing {id : Uuid} {slug : String} {service : Service}
    (coherent : Coherent id slug service)
    (placed : Placed id slug service.database.artifacts.rows service.disk) :
    Standing id slug service :=
  ⟨coherent.registered, coherent.named, placed, coherent.bare.plain⟩

structure Pending (id : Uuid) (slug : String) (start : Database) (log : List Statement)
    (seen : Database) (service : Service) : Prop where
  database : service.database = start
  replayed : replay start log = .ok seen
  bundles : seen.bundles = start.bundles
  tidy : Tidy id slug seen.artifacts.rows service.disk

theorem Standing.pending {id : Uuid} {slug : String} {service : Service}
    (standing : Standing id slug service) :
    Pending id slug service.database [] service.database service :=
  ⟨rfl, rfl, rfl, standing.tidy⟩

section Moves

variable {id : Uuid} {slug newRel : String} {service : Service} {entry : BundleArtifact}
  {rows : List BundleArtifact}

/-! ## One move -/

theorem moveOnDisk_tidy (tidy : Tidy id slug rows service.disk) (member : entry ∈ rows)
    (mine : entry.bundleId = id) (normalized : Normalized newRel)
    (free : ∀ row ∈ rows, row.bundleId = id → row.relativePath ≠ newRel) :
    (moveOnDisk (filesPath slug) entry.relativePath newRel).Meets (.alone registry)
      (fun _ following => following.database = service.database ∧ ∀ remaining,
        (∀ row ∈ remaining, ∃ old ∈ rows,
          row = movedRow id entry.relativePath newRel entry.isDir old) →
        Tidy id slug remaining following.disk)
      (fun _ following => following.database = service.database ∧ ∀ others,
        Tidy id slug others service.disk → Tidy id slug others following.disk) service := by
  have present : service.disk.present (joinFiles (filesPath slug) entry.relativePath) = true :=
    present_of_kind (tidy.placed entry member mine)
  have inner := @inner_parent (filesPath slug) newRel normalized
  unfold moveOnDisk
  rw [Fallible.meets_bind, alone_pathExists, if_pos present, Fallible.meets_bind]
  rcases DiskCall.settle_cases service.disk
      (service.disk.createDirAll (joinFiles (filesPath slug) newRel).dropLast) with
    ⟨tree, made, settled⟩ | ⟨error, -, settled⟩
  · have performed : (DiskCall.createDirAll (joinFiles (filesPath slug) newRel).dropLast).perform
        service.disk = (.ok (), tree) := settled
    apply io_done performed
    rcases DiskCall.settle_cases tree (tree.rename (joinFiles (filesPath slug) entry.relativePath)
        (joinFiles (filesPath slug) newRel)) with
      ⟨moved, renamed, settled⟩ | ⟨error, -, settled⟩
    · have performed : (DiskCall.rename (joinFiles (filesPath slug) entry.relativePath)
          (joinFiles (filesPath slug) newRel)).perform tree = (.ok (), moved) := settled
      apply @io_done { service with disk := tree } _ _ _ _ _ _ performed
      refine ⟨rfl, fun remaining image => ?_⟩
      exact (tidy.createDirAll inner made).moved normalized member mine rfl free renamed image
    · have performed : (DiskCall.rename (joinFiles (filesPath slug) entry.relativePath)
          (joinFiles (filesPath slug) newRel)).perform tree = (.error error, tree) := settled
      apply @io_failed { service with disk := tree } _ _ _ _ _ performed
      exact fun _ => ⟨rfl, fun others kept => kept.createDirAll inner made⟩
  · have performed : (DiskCall.createDirAll (joinFiles (filesPath slug) newRel).dropLast).perform
        service.disk = (.error error, service.disk) := settled
    exact io_failed performed fun _ => ⟨rfl, fun _ kept => kept⟩

theorem checkDestinationFree_alone {log : List Statement} {seen : Database} {isDir : Bool}
    (replayed : replay service.database log = .ok seen) :
    (checkDestinationFree log id newRel isDir).Meets (.alone registry)
      (fun _ following => following = service ∧ Vacant id newRel isDir seen.artifacts.rows)
      (fun _ following => following = service) service := by
  have looks : (checkDestinationFree log id newRel isDir).Insists Operation.Looks :=
    checkDestinationFree_insists (fun _ _ => trivial) ..
  have stays : (checkDestinationFree log id newRel isDir).Meets (.alone registry)
      (fun _ following => following = service) (fun _ following => following = service)
      service := by
    refine looks.footprint.of_footprint ?_ ?_ ?_
    · intro operation looks post holds
      cases operation with
      | begin => exact holds _
      | inside => exact holds _
      | disk call =>
          cases call with
          | tryExists => exact holds _
          | _ => exact looks.elim
      | _ => exact looks.elim
    · exact fun _ _ => rfl
    · exact fun _ _ => rfl
  exact (stays.both (checkDestinationFree_vacant replayed)).mono (fun _ _ both => both)
    fun _ _ both => both.1

/-- A listed entry has its row, or its place in the folder has been taken. -/
def Awaiting (id : Uuid) (rows : List BundleArtifact) (move : BundleArtifact × String) : Prop :=
  move.1 ∈ rows ∨ ∃ row ∈ rows, row.bundleId = id ∧ row.relativePath = move.2

theorem moveOne_pending {start seen : Database} {log : List Statement}
    (pending : Pending id slug start log seen service)
    (awaiting : Awaiting id seen.artifacts.rows (entry, newRel)) (mine : entry.bundleId = id)
    (normalized : Normalized newRel) (valid : validateMove entry newRel = .ok ()) :
    (moveOne id (filesPath slug) log entry newRel).Meets (.alone registry)
      (fun longer following => ∃ after, Pending id slug start longer after following ∧
        entry ∈ seen.artifacts.rows ∧
        RowsMoved id entry.relativePath newRel entry.isDir seen after)
      (fun _ following => following.database = start ∧ ∀ others,
        Tidy id slug others service.disk → Tidy id slug others following.disk) service := by
  have replayed : replay service.database log = .ok seen := by
    rw [pending.database]
    exact pending.replayed
  unfold moveOne moveSubtree
  simp only [Fallible.meets_bind]
  apply (checkDestinationFree_alone replayed).mono
  · rintro _ following ⟨rfl, vacant⟩
    have member : entry ∈ seen.artifacts.rows := by
      rcases awaiting with here | ⟨row, there, build, taken⟩
      · exact here
      · exact absurd taken (vacant.at_ row there build)
    obtain ⟨updates, after, substituted, ran⟩ := moveRows_substitutes replayed pending.tidy.named
      member mine normalized valid vacant
    apply Process.meets_alone.mpr
    rw [ran]
    apply (Fallible.meets_bind _ _).mpr
    apply (moveOnDisk_tidy pending.tidy member mine normalized vacant.at_).mono
    · rintro _ last ⟨database, tidy⟩
      refine ⟨after, ⟨database.trans pending.database, ?_, ?_, ?_⟩, member, substituted.rows⟩
      · rw [replay_append, pending.replayed]
        exact substituted.replayed
      · exact substituted.rows.bundles.trans pending.bundles
      · exact tidy _ fun row listed => (substituted.rows.rows row).mp listed
    · rintro _ last ⟨database, kept⟩
      exact ⟨database.trans pending.database, kept⟩
  · rintro _ following rfl
    exact ⟨pending.database, fun _ kept => kept⟩

theorem Pending.committed {start seen : Database} {log : List Statement}
    (pending : Pending id slug start log seen service) (registered : Registered start id slug)
    {onOk : Unit → Service → Prop} {onError : AppError → Service → Prop}
    (next : Standing id slug { service with database := seen } →
      onOk () { service with database := seen }) :
    (commit log).Meets (.alone registry) onOk onError service := by
  rw [alone_commit, pending.database, pending.replayed]
  apply next
  refine ⟨?_, pending.tidy⟩
  rw [Registered, pending.bundles]
  exact registered

theorem applyMove_tidy {bundle : Bundle} (same : bundle.id = id) (slugged : bundle.slug = slug)
    (standing : Standing id slug service) (member : entry ∈ service.database.artifacts.rows)
    (mine : entry.bundleId = id) (normalized : Normalized newRel) :
    KeepsTidy id slug (applyMove bundle entry newRel) service := by
  subst same slugged
  unfold applyMove
  simp only [KeepsTidy, Fallible.meets_bind, Fallible.meets_lift]
  refine ⟨fun _ _ => standing, fun _ valid => ?_⟩
  rw [alone_pathExists, Fallible.meets_refuse]
  refine ⟨fun _ => standing, fun _ => ?_⟩
  apply alone_begin.mpr
  apply (moveOne_pending standing.pending (.inl member) mine normalized valid).mono
  · rintro log following ⟨after, pending, -, -⟩
    exact pending.committed standing.registered id
  · rintro _ following ⟨database, kept⟩
    refine ⟨?_, ?_⟩
    · rw [database]
      exact standing.registered
    · rw [database]
      exact kept _ standing.tidy

theorem renameFile_tidy {state : State} (entryId : Option Uuid) (newRelativePath : String)
    (standing : Standing id slug service) :
    KeepsTidy id slug (renameFile state slug entryId newRelativePath) service := by
  unfold renameFile
  rw [KeepsTidy, Fallible.meets_bind]
  apply resolvedEntry_alone standing (fun _ => standing)
  intro bundle entry same named member mine
  simp only [Fallible.meets_bind, Fallible.meets_lift]
  refine ⟨fun _ _ => standing, fun normal accepted => ?_⟩
  apply (applyMove_tidy same named standing member mine (normalized_of_ok accepted)).mono
  · exact fun _ _ kept => regenerateManifest_tidy kept
  · exact fun _ _ kept => kept

theorem joinTargetDir_normalized {targetDir name newRel : String}
    (joined : joinTargetDir targetDir name = .ok newRel) : Normalized newRel := by
  unfold joinTargetDir at joined
  exact normalized_of_ok joined

theorem moveFile_tidy {state : State} (entryId : Option Uuid) (targetDir : String)
    (standing : Standing id slug service) :
    KeepsTidy id slug (moveFile state slug entryId targetDir) service := by
  unfold moveFile
  rw [KeepsTidy, Fallible.meets_bind]
  apply resolvedEntry_alone standing (fun _ => standing)
  intro bundle entry same named member mine
  simp only [Fallible.meets_bind, Fallible.meets_lift]
  refine ⟨fun _ _ => standing, fun newRel joined => ?_⟩
  apply (applyMove_tidy same named standing member mine (joinTargetDir_normalized joined)).mono
  · exact fun _ _ kept => regenerateManifest_tidy kept
  · exact fun _ _ kept => kept

/-! ## A batch -/

structure Batched (id : Uuid) (targetDir : String) (move : BundleArtifact × String) : Prop where
  mine : move.1.bundleId = id
  named : move.1.Named
  joined : joinTargetDir targetDir move.1.name = .ok move.2
  valid : validateMove move.1 move.2 = .ok ()

theorem Batched.arriving {targetDir : String} {move : BundleArtifact × String}
    (batched : Batched id targetDir move) : Arriving (targetParts targetDir) move :=
  arriving_of_valid batched.named batched.joined batched.valid

/-- What takes a place in the folder stays there, and an entry that is not below another one
keeps its row until its own turn. -/
theorem Awaiting.moved {targetDir : String} {seen after : Database}
    {move other : BundleArtifact × String} (batched : Batched id targetDir move)
    (later : Batched id targetDir other) (member : move.1 ∈ seen.artifacts.rows)
    (level : move.1.isDir = true → ¬Below move.1.relativePath other.1.relativePath)
    (awaiting : Awaiting id seen.artifacts.rows other)
    (moved : RowsMoved id move.1.relativePath move.2 move.1.isDir seen after) :
    Awaiting id after.artifacts.rows other := by
  rcases awaiting with here | ⟨row, there, build, taken⟩
  · by_cases same : other.1.relativePath = move.1.relativePath
    · -- listed twice
      have slot : artifactLayout.slot other.1 = artifactLayout.slot move.1 := by
        simp only [later.mine, batched.mine, same]
      have one : other.1 = move.1 := Table.eq_of_slot_eq here member rfl slot.symm
      have target : other.2 = move.2 := by
        have joined := later.joined
        rw [one, batched.joined] at joined
        exact (Except.ok.inj joined).symm
      right
      refine ⟨relocated move.2 move.1, (moved.rows _).mpr ⟨move.1, member, ?_⟩, batched.mine,
        target.symm⟩
      rw [movedRow, if_pos ⟨batched.mine, rfl⟩]
    · left
      refine (moved.rows _).mpr ⟨other.1, here, ?_⟩
      rw [movedRow, if_neg, if_neg]
      · exact fun below => level below.1 below.2.2
      · exact fun found => same found.2
  · right
    obtain ⟨fits, apart⟩ := batched.arriving
    have place : ∃ name, segments row.relativePath = targetParts targetDir ++ [name] := by
      rw [taken]
      exact later.arriving.fits.place
    refine ⟨row, (moved.rows _).mpr ⟨row, there, ?_⟩, build, taken⟩
    rw [movedRow, if_neg, if_neg]
    · rintro ⟨dir, -, below⟩
      exact apart dir (fits.aside _ place below.1)
    · rintro ⟨-, same⟩
      rw [same] at place
      exact fits.elsewhere place

theorem moveAll_pending {targetDir : String} {start seen : Database} {log : List Statement}
    {moves : List (BundleArtifact × String)} (pending : Pending id slug start log seen service)
    (batched : ∀ move ∈ moves, Batched id targetDir move)
    (awaiting : ∀ move ∈ moves, Awaiting id seen.artifacts.rows move)
    (level : ∀ move ∈ moves, ∀ other ∈ moves, move.1.isDir = true →
      ¬Below move.1.relativePath other.1.relativePath) :
    (moveAll id (filesPath slug) log moves).Meets (.alone registry)
      (fun longer following => ∃ after, Pending id slug start longer after following)
      (fun _ following => following.database = start ∧ Tidy id slug [] following.disk)
      service := by
  induction moves generalizing log seen service with
  | nil => exact ⟨seen, pending⟩
  | cons move rest induction =>
      have bare : Tidy id slug [] service.disk :=
        pending.tidy.fewer fun _ member => absurd member List.not_mem_nil
      rw [List.forall_mem_cons] at batched awaiting
      unfold moveAll
      rw [Fallible.meets_bind]
      apply (moveOne_pending pending awaiting.1 batched.1.mine
        (joinTargetDir_normalized batched.1.joined) batched.1.valid).mono
      · rintro longer following ⟨after, next, member, moved⟩
        apply induction next batched.2
        · intro other listed
          exact (awaiting.2 other listed).moved batched.1 (batched.2 other listed) member
            (level move List.mem_cons_self other (List.mem_cons_of_mem _ listed)) moved
        · intro first listed other also
          exact level first (List.mem_cons_of_mem _ listed) other (List.mem_cons_of_mem _ also)
      · rintro _ following ⟨database, kept⟩
        exact ⟨database, kept [] bare⟩

theorem resolveMoves_batched {targetDir : String} (ids : List Uuid)
    (named : ∀ row ∈ service.database.artifacts.rows, row.bundleId = id → row.Named) :
    (resolveMoves id targetDir ids).Meets (.alone registry)
      (fun moves following => following = service ∧ ∀ move ∈ moves,
        Batched id targetDir move ∧ move.1 ∈ service.database.artifacts.rows ∧ move.1.id ∈ ids)
      (fun _ following => following = service) service := by
  induction ids with
  | nil => exact ⟨rfl, fun _ member => absurd member List.not_mem_nil⟩
  | cons entryId rest induction =>
      unfold resolveMoves
      rw [Fallible.meets_bind]
      refine artifactInBundle_alone (fun _ => ?_) fun entry member same mine => ?_
      · rfl
      simp only [Fallible.meets_bind, Fallible.meets_lift, Fallible.meets_pure]
      refine ⟨fun _ _ => trivial, fun newRel joined => ⟨fun _ _ => trivial, fun _ valid => ?_⟩⟩
      apply induction.mono
      · rintro moves following ⟨rfl, batched⟩
        refine ⟨rfl, List.forall_mem_cons.mpr ⟨⟨?_, member, ?_⟩, fun move listed => ?_⟩⟩
        · exact ⟨mine, named entry member mine, joined, valid⟩
        · exact same ▸ List.mem_cons_self
        · obtain ⟨first, there, among⟩ := batched move listed
          exact ⟨first, there, List.mem_cons_of_mem _ among⟩
      · exact fun _ _ kept => kept

def Level (id : Uuid) (ids : List Uuid) (rows : List BundleArtifact) : Prop :=
  ∀ folder ∈ rows, ∀ row ∈ rows, folder.bundleId = id → row.bundleId = id → folder.id ∈ ids →
    row.id ∈ ids → folder.isDir = true → ¬Below folder.relativePath row.relativePath

/-- A batch that is refused may have taken files away from their rows. -/
theorem moveFiles_tidy {state : State} {ids : List Uuid} {targetDir : String}
    (standing : Standing id slug service) (level : Level id ids service.database.artifacts.rows) :
    (moveFiles state slug ids targetDir).Meets (.alone registry) (fun _ => Standing id slug)
      (fun _ => Coherent id slug) service := by
  unfold moveFiles moveBatch
  rw [Fallible.meets_bind]
  apply resolvedBundle_alone standing (fun _ => standing.coherent)
  rintro bundle rfl rfl
  simp only [Fallible.meets_bind, Fallible.meets_refuse]
  refine ⟨fun _ => standing.coherent, fun _ => ?_⟩
  apply (resolveMoves_batched ids standing.tidy.named).mono
  · rintro moves following ⟨rfl, listed⟩
    apply alone_begin.mpr
    apply (moveAll_pending standing.pending (fun move among => (listed move among).1)
      (fun move among => .inl (listed move among).2.1) _).mono
    · rintro log last ⟨after, pending⟩
      apply pending.committed standing.registered
      intro kept
      exact (regenerateManifest_tidy kept).mono (fun _ _ kept => kept) fun _ _ kept => kept.coherent
    · rintro _ last ⟨database, bare⟩
      refine ⟨?_, ?_, bare⟩
      · rw [database]
        exact standing.registered
      · rw [database]
        exact standing.tidy.named
    · intro move among other also dir
      obtain ⟨first, there, named⟩ := listed move among
      obtain ⟨second, here, given⟩ := listed other also
      exact level _ there _ here first.mine second.mine named given dir
  · rintro _ following rfl
    exact standing.coherent

end Moves

section Archives

variable {id : Uuid} {slug : String} {service : Service} {state : State}

/-! ## What a refused archive keeps -/

theorem idle_coherent {operation : Operation} (idle : operation.Idle slug) :
    (Concurrency.Logic.alone registry).Keeps (Coherent id slug) operation := by
  intro service coherent post holds
  apply holds
  cases operation with
  | statement statement =>
      simp only [Service.perform]
      split
      · rename_i executed
        obtain ⟨persists, same⟩ := Statement.Idle.persists idle executed
        exact ⟨persists.registered coherent.registered, by rw [same]; exact coherent.named, coherent.bare⟩
      · exact coherent
  | begin => exact coherent
  | inside => exact coherent
  | commit => exact idle.elim
  | newUpload => exact ⟨coherent.registered, coherent.named, coherent.bare⟩
  | disk call =>
      refine ⟨coherent.registered, coherent.named, coherent.bare.congr fun inside some => ?_⟩
      exact idle.files some

theorem Idles.coherent {Reply : Type} {part : Handler Reply} {onOk : Reply → Prop}
    (idles : Idles slug part onOk) (coherent : Coherent id slug service) :
    part.Meets (.alone registry) (fun reply following => onOk reply ∧ Coherent id slug following)
      (fun _ => Coherent id slug) service :=
  Fallible.Meets.keeping idles (fun _ => idle_coherent) coherent (fun _ _ => And.intro)
    fun _ _ _ kept => kept

theorem bare_writeFile {disk after : Builds} {path : List String} {content : Bytes}
    (bare : Tidy id slug [] disk) (inner : Inner (filesPath slug) path)
    (written : disk.writeFile path content = .ok after) : Tidy id slug [] after where
  named := bare.named
  placed := fun _ member => absurd member List.not_mem_nil
  plain := fun rest there => by
    by_cases here : filesPath slug ++ rest = path
    · obtain ⟨parts, plain, rfl⟩ := inner
      exact List.append_cancel_left here ▸ plain
    · rw [Tree.writeFile_keeps written here] at there
      exact bare.plain rest there

theorem inside_coherent {operation : Operation} (inside : operation.Inside (filesPath slug)) :
    (Concurrency.Logic.alone registry).Keeps (Coherent id slug) operation := by
  intro service coherent post holds
  apply holds
  cases operation with
  | disk call =>
      refine ⟨coherent.registered, coherent.named, ?_⟩
      have settled : ∀ made : Except IoError Builds,
          (∀ after, made = .ok after → Tidy id slug [] after) →
          Tidy id slug [] (DiskCall.settle service.disk made).2 := by
        intro made bare
        cases made with
        | ok after => exact bare after rfl
        | error error => exact coherent.bare
      cases call with
      | createDirAll path => exact settled _ fun after made => coherent.bare.createDirAll inside made
      | create path => exact settled _ fun after made => bare_writeFile coherent.bare inside made
      | append path data =>
          apply settled
          intro after made
          unfold DiskCall.appended at made
          split at made
          · exact bare_writeFile coherent.bare inside made
          · cases made
            exact coherent.bare
      | _ => exact inside.elim
  | _ => exact inside.elim

abbrev KeepsCoherent (id : Uuid) (slug : String) {Reply : Type} (part : Handler Reply)
    (service : Service) : Prop :=
  part.Meets (.alone registry) (fun _ => Coherent id slug) (fun _ => Coherent id slug) service

theorem clearFiles_coherent (coherent : Coherent id slug service) :
    KeepsCoherent id slug (clearFiles (filesPath slug)) service := by
  unfold clearFiles
  rw [KeepsCoherent, Fallible.meets_bind, alone_pathExists]
  split
  · have cleared : Coherent id slug { service with
        disk := ((DiskCall.removeDirAll (filesPath slug)).perform service.disk).2 } :=
      ⟨coherent.registered, coherent.named, coherent.bare.dirUnlinked fun _ member =>
        absurd member List.not_mem_nil⟩
    rw [alone_io]
    split
    · exact cleared
    · exact cleared
  · exact coherent

theorem mkdir_coherent {path : List String} (inner : Inner (filesPath slug) path)
    (coherent : Coherent id slug service) (context : String) :
    KeepsCoherent id slug (io (.createDirAll path) context) service := by
  have made : Coherent id slug { service with
      disk := ((DiskCall.createDirAll path).perform service.disk).2 } :=
    @inside_coherent id slug (.disk (.createDirAll path)) inner service coherent
      (fun _ following => Coherent id slug following) fun _ _ kept => kept
  rw [KeepsCoherent, alone_io]
  split
  · exact made
  · exact made

theorem extractZip_coherent {path : List String} (coherent : Coherent id slug service) :
    KeepsCoherent id slug (extractZip state path (filesPath slug)) service := by
  unfold extractZip
  rw [KeepsCoherent, Fallible.meets_bind, alone_io]
  have read : ((DiskCall.read path).perform service.disk).2 = service.disk := rfl
  rw [read]
  split
  · rename_i bytes _
    exact Fallible.Meets.keeping (unpackInto_within state (filesPath slug) bytes)
      (fun _ => inside_coherent) coherent (fun _ _ _ kept => kept) fun _ _ _ kept => kept
  · exact coherent

theorem registered_found (registered : Registered service.database id slug) :
    (service.database.bundles.find id).isSome := by
  obtain ⟨row, member, same, -⟩ := registered
  rw [Table.find_eq_some.mpr ⟨member, same⟩]
  rfl

/-! ## The scan -/

/-- The scan lists what is on disk, each path once. -/
structure Scanned (slug : String) (disk : Builds) (scan : List ScanEntry) : Prop where
  fitting : ∀ entry ∈ scan, Fitting slug disk entry
  distinct : (scan.map (·.relativePath)).Nodup

theorem scanEntry_path {filesRoot rest : List String} {node : Node Bytes}
    (plain : PlainNames rest) (some : rest ≠ []) :
    (scanEntry state filesRoot (rest, node)).relativePath = joinSegments rest := by
  have normalized := plain.normalized some
  have unified : unify (joinSegments rest) = joinSegments rest := by
    apply unify_eq_self
    intro held
    obtain ⟨segment, member, there⟩ := (mem_segments_iff (by decide)).mpr held
    exact (normalized segment member).plain there
  cases node with
  | folder => exact unified
  | file content => exact unified

theorem scanEntry_split (filesRoot : List String) (found : List String × Node Bytes) :
    splitRelativePath (scanEntry state filesRoot found).relativePath =
      ((scanEntry state filesRoot found).name, (scanEntry state filesRoot found).category) := by
  obtain ⟨rest, node⟩ := found
  obtain ⟨⟨name, category⟩, split⟩ : ∃ parts, splitRelativePath (unify (joinSegments rest)) =
    parts := ⟨_, rfl⟩
  cases node with
  | folder => simp only [scanEntry, split]
  | file content => simp only [scanEntry, split]

theorem scanEntry_isDir (filesRoot : List String) (found : List String × Node Bytes) :
    (scanEntry state filesRoot found).isDir = found.2.isFolder := by
  obtain ⟨rest, node⟩ := found
  unfold scanEntry
  cases node with
  | folder => rfl
  | file content => rfl

theorem scanned_of_found {disk : Builds} {found : List (List String × Node Bytes)}
    (bare : Tidy id slug [] disk)
    (there : ∀ pair ∈ found, pair.1 ≠ [] ∧ disk.find (filesPath slug ++ pair.1) = some pair.2)
    (once : (found.map Prod.fst).Nodup) :
    Scanned slug disk (found.map (scanEntry state (filesPath slug))) := by
  have plain : ∀ pair ∈ found, PlainNames pair.1 := by
    intro pair among
    apply bare.plain
    rw [(there pair among).2]
    rfl
  have path : ∀ pair ∈ found,
      (scanEntry state (filesPath slug) pair).relativePath = joinSegments pair.1 :=
    fun pair among => scanEntry_path (plain pair among) (there pair among).1
  constructor
  · intro entry listed
    obtain ⟨pair, among, rfl⟩ := List.mem_map.mp listed
    obtain ⟨some, found⟩ := there pair among
    refine ⟨?_, scanEntry_split _ pair, ?_⟩
    · rw [path pair among]
      exact (plain pair among).normalized some
    · rw [path pair among, joinFiles, (plain pair among).segments some, kindAt, found,
        scanEntry_isDir]
      rfl
  · rw [List.map_map]
    change (found.map fun pair =>
      (scanEntry state (filesPath slug) pair).relativePath).Nodup
    rw [List.map_congr_left path]
    apply once.of_map.map_on
    intro left leftMem right rightMem same
    have parts := congrArg segments same
    rw [(plain left leftMem).segments (there left leftMem).1,
      (plain right rightMem).segments (there right rightMem).1] at parts
    have node : some left.2 = some right.2 := by
      rw [← (there left leftMem).2, ← (there right rightMem).2, parts]
    exact Prod.ext parts (Option.some.inj node)

theorem refusedFolders_alone {filesRoot : List String} (found : List (List String × Node Bytes)) :
    (refusedFolders filesRoot found).Meets (.alone registry)
      (fun refused following => following = service ∧
        ∀ inside ∈ refused, service.disk.find (filesRoot ++ inside) ≠ some .folder)
      (fun _ _ => False) service := by
  induction found with
  | nil => exact ⟨rfl, fun _ member => absurd member List.not_mem_nil⟩
  | cons item rest induction =>
      obtain ⟨inside, content | _⟩ := item
      · exact induction
      · unfold refusedFolders
        rw [Fallible.meets_bind, alone_attempt, Fallible.meets_bind]
        apply induction.mono
        · intro refused following others
          cases read : service.disk.readDir (filesRoot ++ inside) with
          | ok answer =>
              rw [DiskCall.perform, read]
              exact others
          | error error =>
              rw [DiskCall.perform, read]
              apply And.intro others.1
              rw [List.forall_mem_cons]
              apply And.intro _ others.2
              intro folder
              rw [Tree.readDir, folder] at read
              cases read
        · exact fun _ _ impossible => impossible

/-- Where no call is refused the scan lists all that lies below the folder. -/
theorem scanDirectory_alone {filesRoot : List String} :
    (scanDirectory state filesRoot).Meets (.alone registry)
      (fun scan following => following = service ∧ scan =
        if service.disk.present filesRoot then
          (service.disk.below (fun left right => left < right) filesRoot).map
            (scanEntry state filesRoot)
        else [])
      (fun _ _ => False) service := by
  unfold scanDirectory
  rw [Fallible.meets_bind, alone_pathExists]
  split
  · rw [Fallible.meets_bind]
    apply @io_done service _ (.scan filesRoot) _ service.disk _ _ rfl
    rw [Fallible.meets_bind]
    apply (refusedFolders_alone _).mono
    · intro refused following outcome
      apply And.intro outcome.1
      congr 1
      rw [List.filter_eq_self]
      intro item member
      obtain ⟨proper, there⟩ := Tree.mem_below.mp member
      rw [isReached, Bool.not_eq_true', List.any_eq_false]
      intro folder hidden above
      rw [Bool.and_eq_true, decide_eq_true_eq, decide_eq_true_eq] at above
      apply outcome.2 folder hidden
      apply Tree.folder_of_above ((List.prefix_append_right_inj filesRoot).mpr above.1)
      · exact fun same => above.2 (List.append_cancel_left same)
      · rw [there]
        rfl
    · exact fun _ _ impossible => impossible
  · exact ⟨rfl, rfl⟩

theorem scanDirectory_scanned (bare : Tidy id slug [] service.disk) :
    (scanDirectory state (filesPath slug)).Meets (.alone registry)
      (fun scan following => following = service ∧ Scanned slug service.disk scan)
      (fun _ following => following = service) service := by
  apply scanDirectory_alone.mono
  · rintro scan following ⟨rfl, rfl⟩
    apply And.intro rfl
    split
    · exact scanned_of_found bare (fun pair among => Tree.mem_below.mp among) Tree.nodup_below
    · exact ⟨fun _ member => absurd member List.not_mem_nil, List.nodup_nil⟩
  · exact fun _ _ impossible => impossible.elim

/-! ## The rows of the scan -/

theorem upsertScan_reconciles {scan : List ScanEntry} {bundleId : Uuid}
    (there : (service.database.bundles.find bundleId).isSome)
    (distinct : (scan.map (·.relativePath)).Nodup) :
    (upsertScan bundleId scan).Meets (.alone registry)
      (fun _ following => ∃ database, following = { service with database } ∧
        Reconciled bundleId scan service.database database)
      (fun _ _ => False) service := by
  have start : Upserted bundleId [] service.database service.database :=
    ⟨rfl, by simp, fun _ _ => Iff.rfl⟩
  have whole : (chunks upsertChunkSize scan).flatten = scan := chunks_flatten (by decide) scan
  obtain ⟨middle, upserts, upserted⟩ := @replay_chunks bundleId _ _ _ there
    (chunks upsertChunkSize scan) start (by simpa [whole] using distinct)
  rw [List.nil_append, whole] at upserted
  unfold upsertScan
  rw [Fallible.meets_bind, alone_begin, Fallible.meets_bind]
  apply (@insideAll_granted service [] _ _ _ rfl upserts).mono
  · rintro log following ⟨rfl, rfl⟩
    rw [Fallible.meets_bind]
    apply (insideAll_granted upserts (show replay middle
      [.deleteUnlisted bundleId (scan.map (·.relativePath))] = .ok _ from rfl)).mono
    · rintro log last ⟨rfl, rfl⟩
      rw [alone_commit, replay_append, upserts]
      exact ⟨_, rfl, upserted.reconciled distinct⟩
    · exact fun _ _ => False.elim
  · exact fun _ _ => False.elim

theorem Reconciled.standing {scan : List ScanEntry} {database : Database}
    (reconciled : Reconciled id scan service.database database) (coherent : Coherent id slug service)
    (scanned : Scanned slug service.disk scan) :
    Standing id slug { service with database } := by
  have fits : ∀ row ∈ database.artifacts.rows, row.bundleId = id → row.Named ∧
      kindAt service.disk (joinFiles (filesPath slug) row.relativePath) = some row.isDir := by
    intro row member mine
    have listed : row.relativePath ∈ scan.map (·.relativePath) := by
      apply reconciled.paths.subset
      exact List.mem_map_of_mem (List.mem_filter.mpr ⟨member, decide_eq_true mine⟩)
    obtain ⟨entry, among, path⟩ := List.mem_map.mp listed
    obtain ⟨other, owned, recorded⟩ := reconciled.recorded entry among
    have same : other = row := at_unique (List.mem_filter.mp owned).1 member recorded.at_
      (Sql.at_iff.mpr ⟨mine, path.symm⟩)
    subst same
    have fitting := scanned.fitting entry among
    rw [recorded.fields]
    exact ⟨⟨fitting.normalized, fitting.split⟩, fitting.placed⟩
  refine ⟨?_, fun row member mine => (fits row member mine).1,
    fun row member mine => (fits row member mine).2, coherent.bare.plain⟩
  rw [Registered, reconciled.bundles]
  exact coherent.registered

/-! ## Ingestion -/

theorem ingestArchive_tidy {bundle : Bundle} {path : List String} (same : bundle.id = id)
    (slugged : bundle.slug = slug) (apart : ∀ inside, path ≠ filesPath slug ++ inside)
    (coherent : Coherent id slug service) :
    (ingestArchive state bundle path).Meets (.alone registry) (fun _ => Standing id slug)
      (fun _ => Coherent id slug) service := by
  subst same slugged
  unfold ingestArchive
  simp only [Fallible.meets_bind]
  apply (clearFiles_coherent coherent).mono
  · intro _ cleared coherent
    apply (mkdir_coherent ⟨[], .nil, List.append_nil _⟩ coherent _).mono
    · intro _ made coherent
      apply (extractZip_coherent coherent).mono
      · intro _ extracted coherent
        rw [alone_attempt]
        have unlinked := (@idle_coherent bundle.id bundle.slug (.disk (.removeFile path)) apart
          extracted coherent (fun _ following => Coherent bundle.id bundle.slug following)
          fun _ _ kept => kept)
        apply (scanDirectory_scanned unlinked.bare).mono
        · rintro scan following ⟨rfl, scanned⟩
          have found : (Service.database _).bundles.find bundle.id |>.isSome :=
            registered_found unlinked.registered
          apply (upsertScan_reconciles found scanned.distinct).mono
          · rintro _ following ⟨database, rfl, reconciled⟩
            have standing := reconciled.standing unlinked scanned
            exact (regenerateManifest_tidy standing).mono (fun _ _ kept => kept)
              fun _ _ kept => kept.coherent
          · exact fun _ _ => False.elim
        · rintro _ following rfl
          exact unlinked
      · exact fun _ _ kept => kept
    · exact fun _ _ kept => kept
  · exact fun _ _ kept => kept

/-! ## The upload -/

theorem streamArchive_tidy {path : List String} (standing : Standing id slug service)
    (apart : ∀ inside, path ≠ filesPath slug ++ inside) (fields : List Field) :
    KeepsTidy id slug (streamArchive path fields) service := by
  induction fields with
  | nil => exact standing
  | cons field rest induction =>
      unfold streamArchive
      split
      · rw [KeepsTidy, Fallible.meets_bind]
        apply (streamFieldToFile_staging standing apart field).mono
        · exact fun _ _ staging => staging.standing
        · exact fun _ _ kept => kept
      · exact induction

theorem failing_tidy {work : Handler Bundle}
    (tidy : work.Meets (.alone registry) (fun _ => Standing id slug) (fun _ => Coherent id slug)
      service) (bundleId : Uuid) :
    (failing state bundleId work).Meets (.alone registry) (fun _ => Standing id slug)
      (fun _ => Coherent id slug) service := by
  unfold failing
  rw [Fallible.meets_bind, meets_observe]
  apply tidy.mono
  · exact fun _ _ standing => standing
  · intro error following coherent
    rw [Fallible.meets_bind]
    apply ((@idles_query slug (.setStatus bundleId .failed (some (errorText state error)))
      trivial).coherent coherent).mono
    · exact fun _ _ kept => kept.2
    · exact fun _ _ kept => kept

theorem receiveArchive_tidy {bundle : Bundle} {path : List String} (multipart : Multipart)
    (same : bundle.id = id) (slugged : bundle.slug = slug)
    (apart : ∀ inside, path ≠ filesPath slug ++ inside) (standing : Standing id slug service) :
    (receiveArchive state bundle multipart path).Meets (.alone registry)
      (fun _ => Standing id slug) (fun _ => Coherent id slug) service := by
  unfold receiveArchive
  rw [Fallible.meets_bind]
  apply (streamArchive_tidy standing apart multipart.fields).mono
  · intro haveArchive following standing
    split
    · rw [Fallible.meets_bind]
      apply ((@idles_query slug (.setStatus bundle.id .processing none) trivial).standing
        standing).mono
      · rintro _ marked ⟨-, standing⟩
        exact failing_tidy (ingestArchive_tidy same slugged apart standing.coherent) bundle.id
      · exact fun _ _ kept => kept.coherent
    · rw [Fallible.meets_bind, Fallible.meets_lift]
      exact ⟨fun _ _ => standing.coherent, fun _ _ => standing.coherent⟩
  · exact fun _ _ kept => kept.coherent

/-- An upload that is refused may have cleared the files. -/
theorem uploadArchive_tidy (multipart : Multipart) (standing : Standing id slug service) :
    (uploadArchive state slug multipart).Meets (.alone registry) (fun _ => Standing id slug)
      (fun _ => Coherent id slug) service := by
  unfold uploadArchive
  rw [Fallible.meets_bind]
  apply resolvedBundle_alone standing (fun _ => standing.coherent)
  rintro bundle same rfl
  rw [Fallible.meets_bind]
  apply ((ensureBuildDir_idles bundle.slug _).standing standing).mono
  · rintro _ ensured ⟨-, standing⟩
    rw [Fallible.meets_bind]
    apply ((tempUpload_idles bundle.slug).standing standing).mono
    · rintro path reserved ⟨⟨number, rfl⟩, standing⟩
      have apart := upload_idle bundle.slug number
      have dropped := @dropUpload_idles bundle.slug _ apart
      rw [Fallible.meets_bind, meets_observe]
      apply (receiveArchive_tidy multipart same rfl apart standing).mono
      · intro refreshed received standing
        rw [Fallible.meets_bind]
        apply (dropped.standing standing).mono
        · exact fun _ _ kept => kept.2
        · exact fun _ _ kept => kept.coherent
      · intro error received coherent
        rw [Fallible.meets_bind]
        apply (dropped.coherent coherent).mono
        · exact fun _ _ kept => kept.2
        · exact fun _ _ kept => kept
    · exact fun _ _ kept => kept.coherent
  · exact fun _ _ kept => kept.coherent

end Archives

/-- Paths are distinct, name and category are those of the path, and files are leaves. -/
structure FormsTree (id : Uuid) (rows : List BundleArtifact) : Prop where
  distinct : ∀ left ∈ rows, ∀ right ∈ rows, left.bundleId = id → right.bundleId = id →
    left.relativePath = right.relativePath → left = right
  named : ∀ row ∈ rows, row.bundleId = id → row.Named
  leaves : ∀ file ∈ rows, ∀ row ∈ rows, file.bundleId = id → row.bundleId = id →
    file.isDir = false → ¬Below file.relativePath row.relativePath

section Tree

variable {id : Uuid} {slug : String} {service : Service} {state : State}

theorem Standing.formsTree (standing : Standing id slug service) :
    FormsTree id service.database.artifacts.rows where
  distinct := fun left leftMem right rightMem leftMine rightMine same =>
    distinctPaths service.database left leftMem right rightMem (leftMine.trans rightMine.symm) same
  named := standing.tidy.named
  leaves := by
    intro file fileMem row rowMem fileMine rowMine isFile below
    have present := present_of_kind (standing.tidy.placed row rowMem rowMine)
    have whole := standing.tidy.leaf fileMem fileMine isFile present
      ((List.prefix_append_right_inj _).mpr below.1)
    exact below.2 (joinFiles_injective whole).2

/-! ## Requests that change a row in place -/

theorem setArtifact_standing {entryId : Uuid} {set : BundleArtifact → BundleArtifact}
    {keeps : ∀ artifact, artifactLayout.key (set artifact) = artifactLayout.key artifact ∧
      artifactLayout.slot (set artifact) = artifactLayout.slot artifact}
    (standing : Standing id slug service)
    (same : ∀ artifact, (set artifact).name = artifact.name ∧
      (set artifact).category = artifact.category ∧ (set artifact).isDir = artifact.isDir) :
    Standing id slug
      { service with database := Sql.setArtifact entryId set keeps service.database } := by
  have fits : ∀ row ∈ (Sql.setArtifact entryId set keeps service.database).artifacts.rows,
      row.bundleId = id → row.Named ∧
        kindAt service.disk (joinFiles (filesPath slug) row.relativePath) = some row.isDir := by
    intro row member mine
    obtain ⟨old, there, rfl⟩ := List.mem_map.mp member
    unfold Table.revise at mine ⊢
    split
    · rename_i chosen
      rw [if_pos chosen] at mine
      obtain ⟨build, path⟩ := Prod.mk.inj (Option.some.inj (keeps old).2)
      obtain ⟨name, category, kind⟩ := same old
      have named := standing.tidy.named old there (build ▸ mine)
      refine ⟨⟨path ▸ named.normalized, ?_⟩, ?_⟩
      · rw [path, name, category]
        exact named.split
      · rw [path, kind]
        exact standing.tidy.placed old there (build ▸ mine)
    · rename_i other
      rw [if_neg other] at mine
      exact ⟨standing.tidy.named old there mine, standing.tidy.placed old there mine⟩
  exact ⟨standing.registered, fun row member mine => (fits row member mine).1,
    fun row member mine => (fits row member mine).2, standing.tidy.plain⟩

theorem toggleDownloadOnce_tidy (entryId : Option Uuid) (downloadOnce : Bool)
    (standing : Standing id slug service) :
    KeepsTidy id slug (toggleDownloadOnce state slug entryId downloadOnce) service := by
  unfold toggleDownloadOnce
  rw [KeepsTidy, Fallible.meets_bind]
  apply resolvedEntry_alone standing (fun _ => standing)
  intro bundle entry _ _ _ _
  simp only [Fallible.meets_bind]
  apply @query_done service _ (.setDownloadOnce entry.id downloadOnce) _ _ _ rfl
  exact regenerateManifest_tidy (setArtifact_standing standing fun _ => ⟨rfl, rfl, rfl⟩)

theorem rehashFile_tidy (entryId : Option Uuid) (standing : Standing id slug service) :
    KeepsTidy id slug (rehashFile state slug entryId) service := by
  unfold rehashFile
  rw [KeepsTidy, Fallible.meets_bind]
  apply resolvedEntry_alone standing (fun _ => standing)
  intro bundle entry _ _ _ _
  simp only [Fallible.meets_bind, Fallible.meets_refuse]
  refine ⟨fun _ => standing, fun _ => ?_⟩
  rw [alone_pathExists]
  refine ⟨fun _ => standing, fun _ => ?_⟩
  apply hashFile_alone (fun _ => standing)
  intro sha256
  apply @query_done service _ (.updateSha entry.id sha256) _ _ _ rfl
  exact regenerateManifest_tidy (setArtifact_standing standing fun _ => ⟨rfl, rfl, rfl⟩)

/-! ## One request -/

def Request.Concerns (slug : String) : Request → Prop
  | uploadArchive other _ => other = slug
  | uploadFile other _ => other = slug
  | createFolder other _ => other = slug
  | deleteFile other _ => other = slug
  | bulkDelete other _ => other = slug
  | renameFile other _ _ => other = slug
  | moveFile other _ _ => other = slug
  | moveFiles other _ _ => other = slug
  | toggleDownloadOnce other _ _ => other = slug
  | rehashFile other _ => other = slug
  | _ => False

def Request.Refusable (state : State) (id : Uuid) (slug : String) (service : Service)
    (request : Request) : Prop :=
  ∀ error after, (handle state request).evaluate service = (.error error, after) →
    Placed id slug after.database.artifacts.rows after.disk

/-- Archives and batches may be refused when it is too late. -/
def Request.Spares (state : State) (id : Uuid) (slug : String) (service : Service) :
    Request → Prop
  | uploadArchive other multipart => Refusable state id slug service (uploadArchive other multipart)
  | moveFiles other ids targetDir => Level id ids service.database.artifacts.rows ∧
      Refusable state id slug service (moveFiles other ids targetDir)
  | _ => True

theorem Request.Refusable.standing {request : Request} {Reply : Type} {part : Handler Reply}
    {wrap : Reply → Bundles.Reply} (refusable : request.Refusable state id slug service)
    (handled : request.handler state = wrap <$> part)
    (tidy : part.Meets (.alone registry) (fun _ => Standing id slug) (fun _ => Coherent id slug)
      service) : Standing id slug ((handle state request).evaluate service).2 := by
  have ended : (request.handler state).Meets (.alone registry) (fun _ => Standing id slug)
      (fun _ => Coherent id slug) service := by
    rw [handled]
    exact (Fallible.meets_map _ _).mpr tidy
  have judged := Process.meets_alone.mp ended
  cases ran : (handle state request).evaluate service with
  | mk outcome after =>
      have same : (request.handler state).run.evaluate service = (outcome, after) := ran
      rw [same] at judged
      cases outcome with
      | ok reply => exact judged
      | error error => exact Coherent.standing judged (refusable error after ran)

theorem standing_of_tidy {request : Request} {Reply : Type} {part : Handler Reply}
    {wrap : Reply → Bundles.Reply} (handled : request.handler state = wrap <$> part)
    (tidy : KeepsTidy id slug part service) :
    Standing id slug ((handle state request).evaluate service).2 := by
  have kept : KeepsTidy id slug (request.handler state) service := by
    rw [handled]
    exact (Fallible.meets_map _ _).mpr tidy
  exact kept.left

theorem request_standing {request : Request} (concerns : request.Concerns slug)
    (standing : Standing id slug service) (spares : request.Spares state id slug service) :
    Standing id slug ((handle state request).evaluate service).2 := by
  cases request with
  | uploadArchive other multipart =>
      cases concerns
      exact spares.standing rfl (uploadArchive_tidy multipart standing)
  | moveFiles other ids targetDir =>
      cases concerns
      exact spares.2.standing rfl (moveFiles_tidy standing spares.1)
  | uploadFile other multipart =>
      cases concerns
      exact standing_of_tidy rfl (uploadFile_tidy multipart standing)
  | createFolder other relativePath =>
      cases concerns
      exact standing_of_tidy rfl (createFolder_tidy relativePath standing)
  | deleteFile other entryId =>
      cases concerns
      exact standing_of_tidy rfl (deleteFile_tidy entryId standing)
  | bulkDelete other ids =>
      cases concerns
      exact standing_of_tidy rfl (bulkDelete_tidy ids standing)
  | renameFile other entryId newRelativePath =>
      cases concerns
      exact standing_of_tidy rfl (renameFile_tidy entryId newRelativePath standing)
  | moveFile other entryId targetDir =>
      cases concerns
      exact standing_of_tidy rfl (moveFile_tidy entryId targetDir standing)
  | toggleDownloadOnce other entryId downloadOnce =>
      cases concerns
      exact standing_of_tidy rfl (toggleDownloadOnce_tidy entryId downloadOnce standing)
  | rehashFile other entryId =>
      cases concerns
      exact standing_of_tidy rfl (rehashFile_tidy entryId standing)
  | _ => exact concerns.elim

/-! ## Runs -/

inductive Leads (state : State) (id : Uuid) (slug : String) (start : Service) : Service → Prop
  | start : Leads state id slug start start
  | request {service : Service} (request : Request) (leads : Leads state id slug start service)
      (concerns : request.Concerns slug) (spares : request.Spares state id slug service) :
      Leads state id slug start ((handle state request).evaluate service).2

theorem Leads.standing {start : Service} (leads : Leads state id slug start service)
    (standing : Standing id slug start) : Standing id slug service := by
  induction leads with
  | start => exact standing
  | request request leads concerns spares induction =>
      exact request_standing concerns induction spares

end Tree

/-- In every state that requests on a build lead to, its rows form a tree, and each row is on
disk: a folder for a folder and a file for a file. -/
theorem artifact_rows_tree {state : State} {id : Uuid} {slug : String} {start after : Service}
    (standing : Standing id slug start) (leads : Leads state id slug start after) :
    FormsTree id after.database.artifacts.rows ∧
      Placed id slug after.database.artifacts.rows after.disk :=
  ⟨(leads.standing standing).formsTree, (leads.standing standing).tidy.placed⟩

def stocked : Service :=
  ((handle shownState (.uploadFile "pack" (oneFile "a.jar" [65]))).evaluate
    ((handle shownState (.createFolder "pack" "mods")).evaluate onePack).2).2

theorem artifact_rows_tree_gathered :
    ∃ after, (handle shownState (.moveFiles "pack" [2] "mods")).evaluate stocked =
        (.ok (.bundle { packBundle with status := .ready, filesCount := 1, totalSize := 1 }), after) ∧
      FormsTree 1 after.database.artifacts.rows ∧
      Placed 1 "pack" after.database.artifacts.rows after.disk := by
  have standing : Standing 1 "pack" onePack := by
    have unfiled : onePack.database.artifacts.rows = [] := by decide +kernel
    have registered : packBundle ∈ onePack.database.bundles.rows := by decide +kernel
    refine ⟨⟨packBundle, registered, rfl, rfl⟩, ⟨?_, ?_, fun rest there => ?_⟩⟩
    · rw [unfiled]
      exact fun row member => absurd member List.not_mem_nil
    · rw [unfiled]
      exact fun row member => absurd member List.not_mem_nil
    · cases there
  have replied : ((handle shownState (.moveFiles "pack" [2] "mods")).evaluate stocked).1 =
      .ok (.bundle { packBundle with status := .ready, filesCount := 1, totalSize := 1 }) := by
    decide +kernel
  have level : Level 1 [2] stocked.database.artifacts.rows := by
    unfold Level
    decide +kernel
  have leads : Leads shownState 1 "pack" onePack stocked :=
    .request _ (.request _ .start rfl trivial) rfl trivial
  refine ⟨_, Prod.ext replied rfl, artifact_rows_tree standing (.request _ leads rfl ⟨level, ?_⟩)⟩
  intro error after ran
  rw [ran] at replied
  cases replied

end Loontail.Bundles
