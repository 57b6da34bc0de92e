import Loontail.Bundles.Admin
import Loontail.Bundles.DiskCalls
import Loontail.Bundles.Rules

/-! # Where moves take files

A file goes where the renames of a run take it, unless one of them puts another file in its
place. Then the bytes that were there are lost, and they stay lost as long as no rename
comes to that place again. -/

namespace Loontail.Bundles

open Concurrency Disk

/-! ## The parts of a move -/

section Rows

variable {allowed : Operation → Prop}

theorem insideAll_insists (taken : ∀ log statement, allowed (.inside log statement))
    (log statements : List Statement) : (insideAll log statements).Insists allowed := by
  induction statements generalizing log with
  | nil => exact id
  | cons statement rest induction =>
      exact .bind (insists_inside (taken log statement)) fun _ => induction _

theorem checkDestinationFree_insists (taken : ∀ log statement, allowed (.inside log statement))
    (log : List Statement) (bundleId : Uuid) (newRel : String) (isDir : Bool) :
    (checkDestinationFree log bundleId newRel isDir).Insists allowed := by
  refine .bind (insists_inside (taken log (.countAt bundleId newRel))) fun _ => ?_
  refine .bind (insists_refuse _ _) fun _ => ?_
  split
  · exact .bind (insists_inside (taken log (.countLike ..))) fun _ => insists_refuse _ _
  · exact id

theorem moveRows_insists (taken : ∀ log statement, allowed (.inside log statement))
    (log : List Statement) (bundleId : Uuid) (oldRel newRel : String) (isDir : Bool) :
    (moveRows log bundleId oldRel newRel isDir).Insists allowed := by
  refine .bind (insists_inside (taken log (.selectIdAt bundleId oldRel))) fun _ => ?_
  refine .bind (insists_okOr _ _) fun id => ?_
  refine .bind (insideAll_insists taken _ _) fun log => ?_
  split
  · exact .bind (insists_inside (taken log (.selectLike ..))) fun _ => insideAll_insists taken _ _
  · exact not_false

theorem resolveMoves_insists
    (taken : ∀ id, allowed (.statement (.findArtifact id))) (bundleId : Uuid)
    (targetDir : String) (ids : List Uuid) :
    (resolveMoves bundleId targetDir ids).Insists allowed := by
  induction ids with
  | nil => exact not_false
  | cons id rest induction =>
      unfold resolveMoves artifactInBundle
      refine .bind (.bind (insists_query (taken id)) fun _ => insists_okOr _ _) fun entry => ?_
      generalize joinTargetDir targetDir entry.name = target
      refine .bind (insists_lift _) fun _ => .bind (insists_lift _) fun _ => ?_
      exact .bind induction fun _ => not_false

end Rows

/-! ## What a run does to the files -/

def carry (event : Event registry) (path : List String) : List String :=
  match event with
  | ⟨_, _, .disk (.rename source target), .ok _, _⟩ =>
      if source <+: path then target ++ path.drop source.length else path
  | _ => path

/-- Where the events, the last of them first, have taken what was at the path. -/
def carried (events : List (Event registry)) (path : List String) : List String :=
  events.foldr carry path

/-- A rename that puts a file in the place of a file with other bytes. -/
def clobbers : Event registry → Bool
  | ⟨_, before, .disk (.rename source target), .ok _, _⟩ =>
      match before.disk.find source, before.disk.find target with
      | some (.file content), some (.file other) => content ≠ other
      | _, _ => false
  | _ => false

/-! ## Files that go along -/

/-- The operations of moves: what is renamed comes to a place among the files of a build. -/
def Operation.Moves : Operation → Prop
  | .disk (.createDirAll _) => True
  | .disk (.rename _ target) => ∃ build, filesPath build <+: target
  | .disk (.tryExists _) => True
  | .disk (.probe ..) => True
  | .disk (.writeManifest ..) => True
  | .disk _ => False
  | _ => True

/-- Where nothing was clobbered, each file is where the run has taken it. -/
def Carries (start : Service) (situation : Service × List (Event registry)) : Prop :=
  situation.2.any clobbers = false → ∀ build inside content,
    start.disk.find (filesPath build ++ inside) = some (.file content) →
      ∃ other rest, carried situation.2 (filesPath build ++ inside) = filesPath other ++ rest ∧
        situation.1.disk.find (filesPath other ++ rest) = some (.file content)

section Going

variable {index : Nat} {now after : Service} {operation : Operation}
  {result : operation.Result} {build : String} {inside : List String} {content : Bytes}

theorem manifest_spares (slug build : String) (json : Bytes) (inside : List String) :
    (DiskCall.writeManifest slug json).Spares (filesPath build ++ inside) := by
  have manifest : ¬manifestPath slug <+: filesPath build ++ inside :=
    not_within_files (by decide) inside
  refine ⟨not_within_files (by decide) inside, fun same => ?_⟩
  exact manifest (same ▸ List.prefix_refl _)

theorem rename_carries {source target : List String} {result : Except IoError Unit}
    (intoFiles : ∃ other, filesPath other <+: target)
    (occurs : registry.Occurs now (.disk (.rename source target)) result after)
    (clean : clobbers ⟨index, now, .disk (.rename source target), result, after⟩ = false)
    (there : now.disk.find (filesPath build ++ inside) = some (.file content)) :
    ∃ other rest, carry ⟨index, now, .disk (.rename source target), result, after⟩
        (filesPath build ++ inside) = filesPath other ++ rest ∧
      after.disk.find (filesPath other ++ rest) = some (.file content) := by
  rcases occurs_disk occurs with ⟨rfl, rfl⟩ | ⟨rfl, rfl⟩
  · rcases DiskCall.settle_cases now.disk (now.disk.rename source target) with
      ⟨tree, renamed, settled⟩ | ⟨error, -, settled⟩
    · have done : (DiskCall.rename source target).perform now.disk = (.ok (), tree) := settled
      rw [done] at clean ⊢
      have unmatched : filesPath build ++ inside = target →
          ∀ new, now.disk.find source = some (.file new) → new = content := by
        rintro rfl new found
        simpa [clobbers, found, there] using clean
      have followed := Tree.rename_follows renamed there unmatched
      simp only [carry]
      split at followed
      · obtain ⟨other, rest, rfl⟩ := intoFiles
        rename_i within
        rw [if_pos within]
        exact ⟨other, rest ++ (filesPath build ++ inside).drop source.length,
          List.append_assoc .., by rw [← List.append_assoc]; exact followed⟩
      · rename_i outside
        rw [if_neg outside]
        exact ⟨build, inside, rfl, followed⟩
    · have failed : (DiskCall.rename source target).perform now.disk =
          (.error error, now.disk) := settled
      rw [failed]
      exact ⟨build, inside, rfl, there⟩
  · exact ⟨build, inside, rfl, there⟩

theorem move_carries (moves : operation.Moves)
    (occurs : registry.Occurs now operation result after)
    (clean : clobbers ⟨index, now, operation, result, after⟩ = false)
    (there : now.disk.find (filesPath build ++ inside) = some (.file content)) :
    ∃ other rest, carry ⟨index, now, operation, result, after⟩ (filesPath build ++ inside) =
        filesPath other ++ rest ∧
      after.disk.find (filesPath other ++ rest) = some (.file content) := by
  have spared : ∀ (call : DiskCall) {result : (Operation.disk call).Result},
      call.Spares (filesPath build ++ inside) →
      registry.Occurs now (.disk call) result after →
      after.disk.find (filesPath build ++ inside) = some (.file content) := by
    intro call result spares occurs
    rcases occurs_disk occurs with ⟨-, rfl⟩ | ⟨-, rfl⟩
    · exact (DiskCall.perform_spares spares (by rw [there]; rfl)).trans there
    · exact there
  cases operation with
  | statement statement =>
      rcases occurs_statement occurs with ⟨_, _, -, -, rfl⟩ | ⟨_, -, rfl⟩
      · exact ⟨build, inside, rfl, there⟩
      · exact ⟨build, inside, rfl, there⟩
  | begin =>
      rw [occurs_begin occurs]
      exact ⟨build, inside, rfl, there⟩
  | inside log statement =>
      rw [(occurs_inside occurs).1]
      exact ⟨build, inside, rfl, there⟩
  | commit log =>
      rcases occurs_commit occurs with ⟨_, -, -, rfl⟩ | ⟨_, -, rfl⟩
      · exact ⟨build, inside, rfl, there⟩
      · exact ⟨build, inside, rfl, there⟩
  | newUpload =>
      rw [(occurs_newUpload occurs).2]
      exact ⟨build, inside, rfl, there⟩
  | disk call =>
      cases call with
      | rename source target => exact rename_carries moves occurs clean there
      | createDirAll path => exact ⟨build, inside, rfl, spared (.createDirAll path) trivial occurs⟩
      | tryExists path => exact ⟨build, inside, rfl, spared (.tryExists path) trivial occurs⟩
      | probe root paths => exact ⟨build, inside, rfl, spared (.probe root paths) trivial occurs⟩
      | writeManifest slug json =>
          exact ⟨build, inside, rfl, spared _ (manifest_spares slug build json inside) occurs⟩
      | _ => exact moves.elim

theorem moves_keep {start : Service} (moves : operation.Moves) :
    (Logic.recorded registry index).Keeps (Carries start) operation := by
  rintro ⟨now, history⟩ carries post holds result after occurs
  refine holds result _ fun clear build inside content there => ?_
  rw [List.any_cons, Bool.or_eq_false_iff] at clear
  obtain ⟨other, rest, same, found⟩ := carries clear.2 build inside content there
  rw [carried, List.foldr_cons]
  rw [carried] at same
  rw [same]
  exact move_carries moves occurs clear.1 found

end Going

/-! ### The handlers -/

section Handlers

variable {state : State} {slug : String}

theorem pathExists_moves (path : List String) : Takes Operation.Moves (pathExists path) :=
  takes_pathExists trivial

theorem regenerateManifest_moves (state : State) (bundle : Bundle) :
    Takes Operation.Moves (regenerateManifest state bundle) := by
  refine takes_bind (takes_query trivial) fun _ => ?_
  refine takes_bind (takes_io _ trivial) fun _ => ?_
  exact takes_bind (takes_io _ trivial) fun _ => takes_query trivial

theorem resolvedBundle_moves (slug : String) :
    Takes Operation.Moves (resolvedBundle slug) := by
  unfold resolvedBundle requireBySlug
  exact takes_bind (takes_lift _) fun _ => takes_bind (takes_query trivial) fun _ =>
    takes_okOr _ _

theorem moveOne_moves (bundleId : Uuid) (log : List Statement) (entry : BundleArtifact)
    (newRel : String) :
    Takes Operation.Moves (moveOne bundleId (filesPath slug) log entry newRel) := by
  unfold moveOne moveSubtree moveOnDisk
  refine takes_bind (checkDestinationFree_insists (fun _ _ => trivial) ..).footprint fun _ => ?_
  refine takes_bind (moveRows_insists (fun _ _ => trivial) ..).footprint fun _ => ?_
  refine takes_bind (takes_bind (pathExists_moves _) fun present => ?_) fun _ => trivial
  split
  · refine takes_bind (takes_io _ trivial) fun _ => takes_io _ ?_
    exact ⟨slug, List.prefix_append _ _⟩
  · trivial

theorem applyMove_moves (bundle : Bundle) (entry : BundleArtifact) (newRel : String) :
    Takes Operation.Moves (applyMove bundle entry newRel) := by
  unfold applyMove
  refine takes_bind (takes_lift _) fun _ => takes_bind (pathExists_moves _) fun _ => ?_
  refine takes_bind (takes_refuse _ _) fun _ => takes_bind (takes_begin trivial) fun _ => ?_
  exact takes_bind (moveOne_moves ..) fun _ => takes_commit trivial

theorem resolvedEntry_moves (slug : String) (entryId : Option Uuid) :
    Takes Operation.Moves (resolvedEntry slug entryId) := by
  unfold resolvedEntry artifactInBundle
  refine takes_bind (resolvedBundle_moves slug) fun _ => takes_bind (takes_okOr _ _) fun _ => ?_
  refine takes_bind ?_ fun _ => trivial
  exact takes_bind (takes_query trivial) fun _ => takes_okOr _ _

theorem moveAll_moves (bundleId : Uuid) (log : List Statement)
    (moves : List (BundleArtifact × String)) :
    Takes Operation.Moves (moveAll bundleId (filesPath slug) log moves) := by
  induction moves generalizing log with
  | nil => trivial
  | cons move rest induction => exact takes_bind (moveOne_moves ..) fun _ => induction _

def Request.Moving : Request → Prop
  | renameFile .. => True
  | moveFile .. => True
  | moveFiles .. => True
  | _ => False

theorem handler_moves {request : Request} (moving : request.Moving) :
    Takes Operation.Moves (request.handler state) := by
  cases request with
  | renameFile slug entryId newRelativePath =>
      refine (Fallible.meets_map _ _).mpr ?_
      unfold renameFile
      refine takes_bind (resolvedEntry_moves slug entryId) fun found => ?_
      rcases found with ⟨bundle, entry⟩
      dsimp only
      generalize normalizeRelativePath (Text.trim newRelativePath) "newRelativePath" = target
      refine takes_bind (takes_lift _) fun _ => takes_bind (applyMove_moves ..) fun _ => ?_
      exact regenerateManifest_moves ..
  | moveFile slug entryId targetDir =>
      refine (Fallible.meets_map _ _).mpr ?_
      unfold moveFile
      refine takes_bind (resolvedEntry_moves slug entryId) fun found => ?_
      rcases found with ⟨bundle, entry⟩
      dsimp only
      generalize joinTargetDir targetDir entry.name = target
      refine takes_bind (takes_lift _) fun _ => takes_bind (applyMove_moves ..) fun _ => ?_
      exact regenerateManifest_moves ..
  | moveFiles slug ids targetDir =>
      refine (Fallible.meets_map _ _).mpr ?_
      unfold moveFiles moveBatch
      refine takes_bind (resolvedBundle_moves slug) fun _ => takes_bind (takes_refuse _ _) fun _ => ?_
      refine takes_bind (resolveMoves_insists (fun _ => trivial) ..).footprint fun _ => ?_
      refine takes_bind (takes_begin trivial) fun _ => ?_
      refine takes_bind (takes_bind (moveAll_moves ..) fun _ => takes_commit trivial) fun _ => ?_
      exact regenerateManifest_moves ..
  | _ => exact moving.elim

end Handlers

/-! ## Files that are lost -/

structure Lost (start : Service) (path : List String)
    (situation : Service × List (Event registry)) : Prop where
  gone : ∃ content, start.disk.find path = some (.file content) ∧
    situation.1.disk.find path ≠ some (.file content)
  stays : carried situation.2 path = path

/-- Renames to the places take nothing from there: each place is as it was until a
rename comes to it, and what was clobbered is lost at one of those. -/
structure Awaits (start : Service) (root : List String) (places used : List String → Prop)
    (situation : Service × List (Event registry)) : Prop where
  database : situation.1.database = start.database
  free : ∀ inside, places inside → ¬used inside →
    situation.1.disk.find (root ++ inside) = start.disk.find (root ++ inside)
  stays : ∀ inside, places inside → carried situation.2 (root ++ inside) = root ++ inside
  lost : situation.2.any clobbers = true →
    ∃ inside, places inside ∧ used inside ∧ Lost start (root ++ inside) situation

structure Avoids (event : Event registry) (path : List String) : Prop where
  same : event.after.disk.find path = event.before.disk.find path
  stays : carry event path = path

section Awaiting

variable {start : Service} {root : List String} {places used : List String → Prop}
  {history : List (Event registry)} {index : Nat}

theorem Lost.next {event : Event registry} {path : List String}
    (lost : Lost start path (event.before, history)) (avoids : Avoids event path) :
    Lost start path (event.after, event :: history) where
  gone := by
    obtain ⟨content, there, different⟩ := lost.gone
    exact ⟨content, there, by rw [avoids.same]; exact different⟩
  stays := by
    have earlier := lost.stays
    rw [carried] at earlier ⊢
    rw [List.foldr_cons, earlier, avoids.stays]

theorem Awaits.idle {event : Event registry}
    (awaits : Awaits start root places used (event.before, history))
    (rows : event.after.database = event.before.database)
    (avoids : ∀ inside, places inside → Avoids event (root ++ inside))
    (clean : clobbers event = false) :
    Awaits start root places used (event.after, event :: history) where
  database := rows.trans awaits.database
  free := fun inside place unused => (avoids inside place).same.trans
    (awaits.free inside place unused)
  stays := fun inside place => by
    have earlier := awaits.stays inside place
    rw [carried] at earlier ⊢
    rw [List.foldr_cons, earlier, (avoids inside place).stays]
  lost := fun clobbered => by
    rw [List.any_cons, clean, Bool.false_or] at clobbered
    obtain ⟨inside, place, taken, lost⟩ := awaits.lost clobbered
    exact ⟨inside, place, taken, lost.next (avoids inside place)⟩

theorem Awaits.renamed {event : Event registry} {target : List String}
    (awaits : Awaits start root places used (event.before, history))
    (rows : event.after.database = event.before.database)
    (place : places target) (unused : ¬used target)
    (others : ∀ inside, places inside → inside ≠ target → Avoids event (root ++ inside))
    (stays : carry event (root ++ target) = root ++ target)
    (clobbered : clobbers event = true →
      ∃ content, event.before.disk.find (root ++ target) = some (.file content) ∧
        event.after.disk.find (root ++ target) ≠ some (.file content)) :
    Awaits start root places (fun inside => inside = target ∨ used inside)
      (event.after, event :: history) where
  database := rows.trans awaits.database
  free := fun inside other unused => by
    rw [not_or] at unused
    exact (others inside other unused.1).same.trans (awaits.free inside other unused.2)
  stays := fun inside other => by
    have earlier := awaits.stays inside other
    rw [carried] at earlier ⊢
    rw [List.foldr_cons, earlier]
    by_cases here : inside = target
    · rw [here, stays]
    · exact (others inside other here).stays
  lost := fun any => by
    rw [List.any_cons, Bool.or_eq_true] at any
    rcases any with now | before
    · obtain ⟨content, there, different⟩ := clobbered now
      refine ⟨target, place, .inl rfl, ⟨content, ?_, different⟩, ?_⟩
      · rw [← awaits.free target place unused]
        exact there
      · have earlier := awaits.stays target place
        rw [carried] at earlier ⊢
        rw [List.foldr_cons, earlier, stays]
    · obtain ⟨inside, other, taken, lost⟩ := awaits.lost before
      have apart : inside ≠ target := fun same => unused (same ▸ taken)
      exact ⟨inside, other, .inr taken, lost.next (others inside other apart)⟩

theorem Awaits.wider {more : List String → Prop} {situation : Service × List (Event registry)}
    (awaits : Awaits start root places used situation)
    (implies : ∀ inside, used inside → more inside) :
    Awaits start root places more situation where
  database := awaits.database
  free := fun inside place unused => awaits.free inside place (unused ∘ implies inside)
  stays := awaits.stays
  lost := fun clobbered => by
    obtain ⟨inside, place, taken, lost⟩ := awaits.lost clobbered
    exact ⟨inside, place, implies inside taken, lost⟩

end Awaiting

/-! ### Moves to the places -/

def Operation.Reads : Operation → Prop
  | .statement (.findBySlug _) => True
  | .statement (.findArtifact _) => True
  | .begin => True
  | .inside .. => True
  | .disk (.tryExists _) => True
  | _ => False

structure Fits (places : List String → Prop) (old new : List String) : Prop where
  place : places new
  elsewhere : ¬places old
  aside : ∀ inside, places inside → old <+: inside → old <+: new
  alone : ∀ inside, places inside → new <+: inside → inside = new
  above : ∀ inside, places inside → ¬inside <+: new.dropLast

section Moving

variable {start now after : Service} {root old new : List String}
  {places used : List String → Prop} {situation : Service × List (Event registry)} {index : Nat}

theorem reads_still {operation : Operation} {result : operation.Result}
    (reads : operation.Reads) (occurs : registry.Occurs now operation result after) :
    after = now ∧ carry ⟨index, now, operation, result, after⟩ = id ∧
      clobbers ⟨index, now, operation, result, after⟩ = false := by
  cases operation with
  | statement statement =>
      refine ⟨?_, rfl, rfl⟩
      rcases occurs_statement occurs with ⟨reply, database, -, executed, rfl⟩ | ⟨_, -, rfl⟩
      · cases statement with
        | findBySlug slug =>
            cases executed
            rfl
        | findArtifact id =>
            cases executed
            rfl
        | _ => exact reads.elim
      · rfl
  | begin => exact ⟨occurs_begin occurs, rfl, rfl⟩
  | inside log statement => exact ⟨(occurs_inside occurs).1, rfl, rfl⟩
  | disk call =>
      cases call with
      | tryExists path =>
          refine ⟨?_, rfl, rfl⟩
          rcases occurs_disk occurs with ⟨-, rfl⟩ | ⟨-, rfl⟩
          · rfl
          · rfl
      | _ => exact reads.elim
  | _ => exact reads.elim

theorem reads_awaits {operation : Operation} (reads : operation.Reads) :
    (Logic.recorded registry index).Keeps (Awaits start root places used) operation := by
  rintro ⟨now, history⟩ awaits post holds result after occurs
  obtain ⟨rfl, still, clean⟩ := @reads_still _ _ index _ _ reads occurs
  refine holds result _ (@Awaits.idle start root places used history
    ⟨index, after, operation, result, after⟩ awaits rfl (fun inside _ => ⟨rfl, ?_⟩) clean)
  rw [still, id]

theorem mkdir_awaits (fits : Fits places old new)
    (awaits : Awaits start root places used situation) (context : String) :
    (io (.createDirAll (root ++ new.dropLast)) context).Meets (.recorded registry index)
      (fun _ => Awaits start root places used) (fun _ => Awaits start root places used)
      situation := by
  refine (meets_io _ _).mpr fun result after occurs => ?_
  have next : Awaits start root places used (after, ⟨index, situation.1,
      .disk (.createDirAll (root ++ new.dropLast)), result, after⟩ :: situation.2) := by
    refine @Awaits.idle start root places used situation.2 ⟨index, situation.1,
      .disk (.createDirAll (root ++ new.dropLast)), result, after⟩ awaits ?_ ?_ rfl
    · rcases occurs_disk occurs with ⟨-, rfl⟩ | ⟨-, rfl⟩
      · rfl
      · rfl
    · intro inside place
      refine ⟨?_, rfl⟩
      rcases occurs_disk occurs with ⟨-, rfl⟩ | ⟨-, rfl⟩
      · refine DiskCall.settle_find fun tree made => Tree.createDirAll_apart made fun within => ?_
        exact fits.above inside place ((List.prefix_append_right_inj root).mp within)
      · rfl
  cases result with
  | ok answer => exact next
  | error error => exact next

theorem rename_awaits (fits : Fits places old new) (unused : ¬used new)
    (awaits : Awaits start root places used situation) (context : String) :
    (io (.rename (root ++ old) (root ++ new)) context).Meets (.recorded registry index)
      (fun _ => Awaits start root places fun inside => inside = new ∨ used inside)
      (fun _ => Awaits start root places fun inside => inside = new ∨ used inside)
      situation := by
  refine (meets_io _ _).mpr fun result after occurs => ?_
  have failed : ∀ error, Awaits start root places (fun inside => inside = new ∨ used inside)
      (situation.1, ⟨index, situation.1, .disk (.rename (root ++ old) (root ++ new)),
        .error error, situation.1⟩ :: situation.2) := fun error =>
    (@Awaits.idle start root places used situation.2 ⟨index, situation.1,
      .disk (.rename (root ++ old) (root ++ new)), .error error, situation.1⟩ awaits rfl
      (fun _ _ => ⟨rfl, rfl⟩) rfl).wider fun _ => .inr
  rcases occurs_disk occurs with ⟨rfl, rfl⟩ | ⟨rfl, rfl⟩
  · rcases DiskCall.settle_cases situation.1.disk
      (situation.1.disk.rename (root ++ old) (root ++ new)) with
      ⟨tree, renamed, settled⟩ | ⟨error, -, settled⟩
    · have done : (DiskCall.rename (root ++ old) (root ++ new)).perform situation.1.disk =
          (.ok (), tree) := settled
      rw [done]
      obtain ⟨-, -, movable⟩ := (Tree.rename_ok renamed).resolve_left fun same =>
        fits.elsewhere (List.append_cancel_left same.1 ▸ fits.place)
      have apart : ¬old <+: new := fun within =>
        movable.2.1 ((List.prefix_append_right_inj root).mpr within)
      have left : ∀ inside, places inside → ¬root ++ old <+: root ++ inside :=
        fun inside place within =>
          apart (fits.aside inside place ((List.prefix_append_right_inj root).mp within))
      refine @Awaits.renamed start root places used situation.2 ⟨index, situation.1,
        .disk (.rename (root ++ old) (root ++ new)), .ok (), { situation.1 with disk := tree }⟩
        new awaits rfl fits.place unused ?_ (if_neg (left new fits.place)) fun clobbered => ?_
      · intro inside place other
        refine ⟨Tree.rename_apart renamed (left inside place) fun within => other ?_,
          if_neg (left inside place)⟩
        exact fits.alone inside place ((List.prefix_append_right_inj root).mp within)
      · have puts := Tree.rename_puts renamed
        simp only [clobbers] at clobbered
        split at clobbered
        · rename_i content other source target
          refine ⟨other, target, ?_⟩
          rw [puts, source]
          simpa using clobbered
        · cases clobbered
    · have refused : (DiskCall.rename (root ++ old) (root ++ new)).perform situation.1.disk =
          (.error error, situation.1.disk) := settled
      rw [refused]
      exact failed error
  · exact failed .device

theorem moveOnDisk_awaits {oldRel newRel : String}
    (fits : Fits places (segments oldRel) (segments newRel)) (unused : ¬used (segments newRel))
    (awaits : Awaits start root places used situation) :
    (moveOnDisk root oldRel newRel).Meets (.recorded registry index)
      (fun _ => Awaits start root places fun inside => inside = segments newRel ∨ used inside)
      (fun _ => Awaits start root places fun inside => inside = segments newRel ∨ used inside)
      situation := by
  have folder : (joinFiles root newRel).dropLast = root ++ (segments newRel).dropLast :=
    List.dropLast_append_of_ne_nil (segments_ne_nil newRel)
  unfold moveOnDisk
  rw [folder, Fallible.meets_bind]
  refine Fallible.Meets.keeping (@takes_pathExists Operation.Reads _ trivial)
    (fun _ => reads_awaits) awaits (fun present following _ awaits => ?_)
    fun _ _ _ awaits => awaits.wider fun _ => .inr
  split
  · refine (Fallible.meets_bind _ _).mpr ((mkdir_awaits fits awaits "mkdir").mono ?_
      fun _ _ awaits => awaits.wider fun _ => .inr)
    exact fun _ following awaits => rename_awaits fits unused awaits "rename"
  · exact awaits.wider fun _ => .inr

end Moving

end Loontail.Bundles
