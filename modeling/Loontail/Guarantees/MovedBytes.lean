import Loontail.Guarantees.PrefixMoves

/-! # Whether a move destroys bytes

Single moves look at the disk before they rename; a batch looks at the rows only, and a
file without a row stands in its way unseen. -/

namespace Loontail.Bundles

open Concurrency Disk Relational

/-- Every file of every build has its bytes, at its old path or where it was moved. -/
def Kept (events : List (Event registry)) (before after : Service) : Prop :=
  ∀ build inside content,
    before.disk.find (filesPath build ++ inside) = some (.file content) →
      after.disk.find (filesPath build ++ inside) = some (.file content) ∨
        after.disk.find (carried events (filesPath build ++ inside)) = some (.file content)

/-! ## Places and their rows -/

section Moving

variable {start : Service} {root old : List String} {places used : List String → Prop}
  {situation : Service × List (Event registry)} {index : Nat}

def Occupied (bundleId : Uuid) (places used : List String → Prop) (rows : List BundleArtifact) :
    Prop :=
  ∀ inside, used inside → places inside ∧
    ∃ row ∈ rows, row.bundleId = bundleId ∧ segments row.relativePath = inside

section Rows

variable {bundleId : Uuid} {log : List Statement} {seen : Database} {entry : BundleArtifact}
  {newRel : String}

theorem Occupied.moved {database : Database}
    (occupied : Occupied bundleId places used seen.artifacts.rows)
    (fits : Fits places (segments entry.relativePath) (segments newRel))
    (apart : entry.isDir = true → ¬segments entry.relativePath <+: segments newRel)
    (moved : RowsMoved bundleId entry.relativePath newRel entry.isDir seen database) :
    Occupied bundleId places (fun inside => inside = segments newRel ∨ used inside)
      database.artifacts.rows := by
  rintro inside (rfl | taken)
  · obtain ⟨row, member, here⟩ := moved.moved
    have relocates : movedRow bundleId entry.relativePath newRel entry.isDir row =
        relocated newRel row := if_pos here
    refine ⟨fits.place, relocated newRel row, ?_, here.1, rfl⟩
    exact (moved.rows _).mpr ⟨row, member, relocates.symm⟩
  · obtain ⟨place, row, member, build, rfl⟩ := occupied inside taken
    have stays : movedRow bundleId entry.relativePath newRel entry.isDir row = row := by
      rw [movedRow, if_neg, if_neg]
      · rintro ⟨dir, -, below⟩
        exact apart dir (fits.aside _ place below.1)
      · rintro ⟨-, same⟩
        exact fits.elsewhere (same ▸ place)
    exact ⟨place, row, (moved.rows row).mpr ⟨row, member, stays.symm⟩, build, rfl⟩

theorem Occupied.unused (occupied : Occupied bundleId places used seen.artifacts.rows)
    (vacant : Vacant bundleId newRel entry.isDir seen.artifacts.rows) :
    ¬used (segments newRel) := by
  intro taken
  obtain ⟨-, row, member, build, same⟩ := occupied _ taken
  exact vacant.at_ row member build (segments_injective same)

theorem moveOne_awaits (replayed : replay start.database log = .ok seen)
    (occupied : Occupied bundleId places used seen.artifacts.rows)
    (fits : Fits places (segments entry.relativePath) (segments newRel))
    (apart : entry.isDir = true → ¬segments entry.relativePath <+: segments newRel)
    (awaits : Awaits start root places used situation) :
    (moveOne bundleId root log entry newRel).Meets (.recorded registry index)
      (fun longer following => ∃ database more, replay start.database longer = .ok database ∧
        Occupied bundleId places more database.artifacts.rows ∧
        Awaits start root places more following)
      (fun _ following => ∃ more, Awaits start root places more following) situation := by
  unfold moveOne moveSubtree
  simp only [Fallible.meets_bind]
  have unchanged : ∀ {following}, Awaits start root places used following →
      replay following.1.database log = .ok seen := fun awaits => by
    rw [awaits.database, replayed]
  refine (checkDestinationFree_insists (fun _ _ => trivial) ..).recorded
    (checkDestinationFree_vacant (unchanged awaits)) (fun _ => reads_awaits) awaits ?_
    fun _ _ awaits => ⟨used, awaits⟩
  intro _ following vacant free
  refine (moveRows_insists (fun _ _ => trivial) ..).recorded
    (moveRows_alone (unchanged free) apart) (fun _ => reads_awaits) free ?_
    fun _ _ awaits => ⟨used, awaits⟩
  rintro longer following ⟨-, database, continued, moved⟩ awaits
  rw [free.database] at continued
  refine (moveOnDisk_awaits fits (occupied.unused vacant) awaits).mono ?_
    fun _ _ awaits => ⟨_, awaits⟩
  intro _ following awaits
  exact ⟨database, _, continued, occupied.moved fits apart moved, awaits⟩

end Rows

theorem fits_folder {folder : List String} (elsewhere : ∀ other, old ≠ folder ++ [other])
    (name : String) :
    Fits (fun inside => ∃ name, inside = folder ++ [name]) old (folder ++ [name]) where
  place := ⟨name, rfl⟩
  elsewhere := fun ⟨other, here⟩ => elsewhere other here
  aside := by
    rintro inside ⟨other, rfl⟩ within
    rcases List.prefix_concat_iff.mp within with here | above
    · exact (elsewhere other here).elim
    · exact above.trans (List.prefix_append _ _)
  alone := by
    rintro inside ⟨other, rfl⟩ within
    exact (within.eq_of_length (by simp)).symm
  above := by
    rintro inside ⟨other, rfl⟩ within
    have longer := within.length_le
    rw [List.dropLast_concat, List.length_append, List.length_singleton] at longer
    omega

structure Arriving (folder : List String) (move : BundleArtifact × String) : Prop where
  fits : Fits (fun inside => ∃ name, inside = folder ++ [name])
    (segments move.1.relativePath) (segments move.2)
  apart : move.1.isDir = true → ¬segments move.1.relativePath <+: segments move.2

theorem arriving_of_valid {entry : BundleArtifact} {targetDir newRel : String}
    (named : entry.Named) (joined : joinTargetDir targetDir entry.name = .ok newRel)
    (valid : validateMove entry newRel = .ok ()) :
    Arriving (targetParts targetDir) (entry, newRel) := by
  have target := joinTargetDir_ok named.safe named.plain joined
  have elsewhere : ∀ other, segments entry.relativePath ≠ targetParts targetDir ++ [other] := by
    intro other same
    refine (@incoming_of_valid entry targetDir newRel entry.name named joined valid).elsewhere
      other ?_
    rw [joinFiles, same, List.append_assoc]
  exact ⟨target ▸ fits_folder elsewhere entry.name, validateMove_apart valid⟩

theorem resolveMoves_arriving {service : Service} {targetDir : String} (bundleId : Uuid)
    (named : ∀ row ∈ service.database.artifacts.rows, row.Named) (ids : List Uuid) :
    (resolveMoves bundleId targetDir ids).Meets (.alone registry)
      (fun moves following => following = service ∧
        ∀ move ∈ moves, Arriving (targetParts targetDir) move)
      (fun _ _ => True) service := by
  induction ids with
  | nil => exact ⟨rfl, by simp⟩
  | cons id rest induction =>
      unfold resolveMoves artifactInBundle
      simp only [Fallible.meets_bind, Fallible.meets_okOr, Fallible.meets_lift,
        Fallible.meets_pure]
      refine @query_done service _ (.findArtifact id) _ _ _ rfl ?_
      refine ⟨fun _ => trivial, fun entry found => ⟨fun _ _ => trivial, fun newRel joined => ?_⟩⟩
      refine ⟨fun _ _ => trivial, fun _ valid => ?_⟩
      have member : entry ∈ service.database.artifacts.rows :=
        (Table.find_eq_some.mp (Option.filter_eq_some_iff.mp found).1).1
      refine induction.mono ?_ fun _ _ _ => trivial
      rintro moves following ⟨rfl, arriving⟩
      exact ⟨rfl, List.forall_mem_cons.mpr ⟨arriving_of_valid (named entry member) joined valid,
        arriving⟩⟩

theorem moveAll_awaits {bundleId : Uuid} {folder : List String}
    {moves : List (BundleArtifact × String)} (arriving : ∀ move ∈ moves, Arriving folder move)
    {log : List Statement} {seen : Database} (replayed : replay start.database log = .ok seen)
    (occupied : Occupied bundleId (fun inside => ∃ name, inside = folder ++ [name]) used
      seen.artifacts.rows)
    (awaits : Awaits start root (fun inside => ∃ name, inside = folder ++ [name]) used
      situation) :
    (moveAll bundleId root log moves).Meets (.recorded registry index)
      (fun _ following => ∃ places more, Awaits start root places more following)
      (fun _ following => ∃ places more, Awaits start root places more following)
      situation := by
  induction moves generalizing log seen used situation with
  | nil => exact ⟨_, used, awaits⟩
  | cons move rest induction =>
      rw [List.forall_mem_cons] at arriving
      unfold moveAll
      rw [Fallible.meets_bind]
      refine (moveOne_awaits replayed occupied arriving.1.fits arriving.1.apart awaits).mono ?_ ?_
      · rintro longer following ⟨database, more, continued, occupied, awaits⟩
        exact induction arriving.2 continued occupied awaits
      · rintro error following ⟨more, awaits⟩
        exact ⟨_, more, awaits⟩

end Moving

/-! ## Requests -/

def Settles (start : Service) (situation : Service × List (Event registry)) : Prop :=
  situation.2.any clobbers = true →
    ∃ build inside, Lost start (filesPath build ++ inside) situation

structure Fresh (start : Service) (situation : Service × List (Event registry)) : Prop where
  still : situation.1 = start
  stays : ∀ path, carried situation.2 path = path
  clean : situation.2.any clobbers = false

def Operation.Ends : Operation → Prop
  | .statement _ => True
  | .commit _ => True
  | .disk (.probe ..) => True
  | .disk (.writeManifest ..) => True
  | _ => False

section Requests

variable {start : Service} {situation : Service × List (Event registry)} {index : Nat}

theorem Fresh.awaits (fresh : Fresh start situation) (root : List String)
    (places : List String → Prop) : Awaits start root places (fun _ => False) situation where
  database := by rw [fresh.still]
  free := fun _ _ _ => by rw [fresh.still]
  stays := fun _ _ => fresh.stays _
  lost := fun clobbered => by
    rw [fresh.clean] at clobbered
    cases clobbered

theorem Fresh.settles (fresh : Fresh start situation) : Settles start situation := by
  intro clobbered
  rw [fresh.clean] at clobbered
  cases clobbered

theorem Awaits.settles {build : String} {places used : List String → Prop}
    (awaits : Awaits start (filesPath build) places used situation) : Settles start situation := by
  intro clobbered
  obtain ⟨inside, -, -, lost⟩ := awaits.lost clobbered
  exact ⟨build, inside, lost⟩

theorem reads_fresh {operation : Operation} (reads : operation.Reads) :
    (Logic.recorded registry index).Keeps (Fresh start) operation := by
  rintro ⟨now, history⟩ fresh post holds result after occurs
  obtain ⟨rfl, still, clean⟩ := @reads_still _ _ index _ _ reads occurs
  refine holds result _ ⟨fresh.still, fun path => ?_, ?_⟩
  · rw [carried, List.foldr_cons, still]
    exact fresh.stays path
  · rw [List.any_cons, clean]
    exact fresh.clean

theorem ends_settles {operation : Operation} (ends : operation.Ends) :
    (Logic.recorded registry index).Keeps (Settles start) operation := by
  rintro ⟨now, history⟩ settles post holds result after occurs
  have avoids : clobbers ⟨index, now, operation, result, after⟩ = false ∧ ∀ build inside,
      Avoids ⟨index, now, operation, result, after⟩ (filesPath build ++ inside) := by
    cases operation with
    | statement statement =>
        refine ⟨rfl, fun build inside => ⟨?_, rfl⟩⟩
        rcases occurs_statement occurs with ⟨_, _, -, -, rfl⟩ | ⟨_, -, rfl⟩
        · rfl
        · rfl
    | commit log =>
        refine ⟨rfl, fun build inside => ⟨?_, rfl⟩⟩
        rcases occurs_commit occurs with ⟨_, -, -, rfl⟩ | ⟨_, -, rfl⟩
        · rfl
        · rfl
    | disk call =>
        cases call with
        | probe filesRoot paths =>
            refine ⟨rfl, fun build inside => ⟨?_, rfl⟩⟩
            rcases occurs_disk occurs with ⟨-, rfl⟩ | ⟨-, rfl⟩
            · rfl
            · rfl
        | writeManifest slug json =>
            refine ⟨rfl, fun build inside => ⟨?_, rfl⟩⟩
            rcases occurs_disk occurs with ⟨-, rfl⟩ | ⟨-, rfl⟩
            · exact DiskCall.replaceManifest_files now.disk slug json build inside
            · rfl
        | _ => exact ends.elim
    | _ => exact ends.elim
  refine holds result _ fun clobbered => ?_
  rw [List.any_cons, avoids.1, Bool.false_or] at clobbered
  obtain ⟨build, inside, lost⟩ := settles clobbered
  exact ⟨build, inside, @Lost.next start history ⟨index, now, operation, result, after⟩ _ lost
    (avoids.2 build inside)⟩

abbrev MovesSettled (start : Service) (index : Nat) {Reply : Type} (part : Handler Reply)
    (situation : Service × List (Event registry)) : Prop :=
  part.Meets (.recorded registry index) (fun _ => Settles start) (fun _ => Settles start)
    situation

theorem settled_of_ends {Reply : Type} {part : Handler Reply} (takes : Takes Operation.Ends part)
    (settles : Settles start situation) : MovesSettled start index part situation :=
  Fallible.Meets.keeping takes (fun _ => ends_settles) settles (fun _ _ _ kept => kept)
    fun _ _ _ kept => kept

theorem regenerateManifest_ends (state : State) (bundle : Bundle) :
    Takes Operation.Ends (regenerateManifest state bundle) := by
  refine takes_bind (takes_query trivial) fun _ => ?_
  refine takes_bind (takes_io _ trivial) fun _ => ?_
  exact takes_bind (takes_io _ trivial) fun _ => takes_query trivial

theorem settled_after_reads {Value Reply : Type} {first : Handler Value}
    {next : Value → Handler Reply} (takes : Takes Operation.Reads first)
    (fresh : Fresh start situation)
    (continued : ∀ value following, Fresh start following →
      MovesSettled start index (next value) following) :
    MovesSettled start index (first >>= next) situation :=
  (Fallible.meets_bind first next).mpr (Fallible.Meets.keeping takes (fun _ => reads_fresh) fresh
    (fun value following _ => continued value following) fun _ _ _ fresh => fresh.settles)

theorem resolvedBundle_reads (slug : String) : Takes Operation.Reads (resolvedBundle slug) := by
  unfold resolvedBundle requireBySlug
  exact takes_bind (takes_lift _) fun _ => takes_bind (takes_query trivial) fun _ =>
    takes_okOr _ _

theorem resolvedEntry_reads (slug : String) (entryId : Option Uuid) :
    Takes Operation.Reads (resolvedEntry slug entryId) := by
  unfold resolvedEntry artifactInBundle
  refine takes_bind (resolvedBundle_reads slug) fun _ => takes_bind (takes_okOr _ _) fun _ => ?_
  refine takes_bind ?_ fun _ => trivial
  exact takes_bind (takes_query trivial) fun _ => takes_okOr _ _

/-- A single move awaits its rename at the one place it goes to. -/
theorem applyMove_settles (bundle : Bundle) (entry : BundleArtifact) (newRel : String)
    (fresh : Fresh start situation) :
    MovesSettled start index (applyMove bundle entry newRel) situation := by
  unfold applyMove
  refine (Fallible.meets_bind _ _).mpr ((Fallible.meets_lift _).mpr
    ⟨fun _ _ => fresh.settles, fun _ valid => ?_⟩)
  refine settled_after_reads (takes_pathExists trivial) fresh fun _ following fresh => ?_
  refine settled_after_reads (takes_refuse _ _) fresh fun _ following fresh => ?_
  refine settled_after_reads (takes_begin trivial) fresh fun _ following fresh => ?_
  have fits : Fits (· = segments newRel) (segments entry.relativePath) (segments newRel) := by
    refine ⟨rfl, fun same => ?_, fun _ same => same ▸ id, fun _ same _ => same, ?_⟩
    · have here : newRel = entry.relativePath := (segments_injective same).symm
      rw [validateMove, if_pos here] at valid
      cases valid
    · rintro inside rfl within
      have longer := within.length_le
      have positive := List.length_pos_of_ne_nil (segments_ne_nil newRel)
      rw [List.length_dropLast] at longer
      omega
  have replayed : replay start.database [] = .ok start.database := rfl
  refine (Fallible.meets_bind _ _).mpr ((moveOne_awaits replayed nofun fits
    (validateMove_apart valid) (fresh.awaits (filesPath bundle.slug) _)).mono ?_ ?_)
  · rintro log following ⟨database, more, -, -, awaits⟩
    exact settled_of_ends (takes_commit trivial) awaits.settles
  · rintro error following ⟨more, awaits⟩
    exact awaits.settles

theorem moveFiles_settles {state : State} {slug targetDir : String} {ids : List Uuid}
    (named : ∀ row ∈ start.database.artifacts.rows, row.Named) (fresh : Fresh start situation) :
    MovesSettled start index (moveFiles state slug ids targetDir) situation := by
  unfold moveFiles moveBatch
  refine settled_after_reads (resolvedBundle_reads slug) fresh fun bundle following fresh => ?_
  refine settled_after_reads (takes_refuse _ _) fresh fun _ following fresh => ?_
  refine (Fallible.meets_bind _ _).mpr ?_
  rw [← fresh.still] at named
  refine (resolveMoves_insists (fun _ => trivial) ..).recorded
    (resolveMoves_arriving bundle.id named ids) (fun _ => reads_fresh) fresh ?_
    fun _ _ fresh => fresh.settles
  rintro moves following ⟨-, arriving⟩ fresh
  refine settled_after_reads (takes_begin trivial) fresh fun _ following fresh => ?_
  simp only [Fallible.meets_bind]
  have replayed : replay start.database [] = .ok start.database := rfl
  refine (moveAll_awaits arriving replayed (fun _ => False.elim)
    (fresh.awaits (filesPath bundle.slug) _)).mono ?_ ?_
  · rintro log following ⟨places, more, awaits⟩
    refine (settled_of_ends (takes_commit trivial) awaits.settles).mono ?_ fun _ _ => id
    exact fun _ following settles => settled_of_ends (regenerateManifest_ends ..) settles
  · rintro error following ⟨places, more, awaits⟩
    exact awaits.settles

theorem handler_settles {state : State} {request : Request} (moving : request.Moving)
    (named : ∀ row ∈ start.database.artifacts.rows, row.Named) :
    MovesSettled start index (request.handler state) (start, []) := by
  have fresh : Fresh start (start, []) := ⟨rfl, fun _ => rfl, rfl⟩
  have single : ∀ (bundle : Bundle) (entry : BundleArtifact) (newRel : String) {following},
      Fresh start following → MovesSettled start index (do
        applyMove bundle entry newRel
        regenerateManifest state bundle) following := by
    intro bundle entry newRel following fresh
    refine (Fallible.meets_bind _ _).mpr ((applyMove_settles bundle entry newRel fresh).mono ?_
      fun _ _ => id)
    exact fun _ following settles => settled_of_ends (regenerateManifest_ends ..) settles
  cases request with
  | renameFile slug entryId newRelativePath =>
      refine (Fallible.meets_map _ _).mpr ?_
      refine settled_after_reads (resolvedEntry_reads slug entryId) fresh ?_
      rintro ⟨bundle, entry⟩ following fresh
      simp only [Fallible.meets_bind, Fallible.meets_lift]
      exact ⟨fun _ _ => fresh.settles, fun _ _ => (Fallible.meets_bind _ _).mp (single _ _ _ fresh)⟩
  | moveFile slug entryId targetDir =>
      refine (Fallible.meets_map _ _).mpr ?_
      refine settled_after_reads (resolvedEntry_reads slug entryId) fresh ?_
      rintro ⟨bundle, entry⟩ following fresh
      simp only [Fallible.meets_bind, Fallible.meets_lift]
      exact ⟨fun _ _ => fresh.settles, fun _ _ => (Fallible.meets_bind _ _).mp (single _ _ _ fresh)⟩
  | moveFiles slug ids targetDir =>
      exact (Fallible.meets_map _ _).mpr (moveFiles_settles named fresh)
  | _ => exact moving.elim

end Requests

/-! ## Single moves -/

structure Unharmed (path : List String) (situation : Service × List (Event registry)) : Prop where
  free : situation.1.disk.find path = none
  clean : situation.2.any clobbers = false

section Single

variable {situation : Service × List (Event registry)} {index : Nat}

abbrev Harmless (index : Nat) {Reply : Type} (part : Handler Reply)
    (situation : Service × List (Event registry)) : Prop :=
  part.Meets (.recorded registry index) (fun _ following => following.2.any clobbers = false)
    (fun _ following => following.2.any clobbers = false) situation

theorem reads_unharmed {path : List String} {operation : Operation} (reads : operation.Reads) :
    (Logic.recorded registry index).Keeps (Unharmed path) operation := by
  rintro ⟨now, history⟩ unharmed post holds result after occurs
  obtain ⟨rfl, -, clean⟩ := @reads_still _ _ index _ _ reads occurs
  refine holds result _ ⟨unharmed.free, ?_⟩
  rw [List.any_cons, clean]
  exact unharmed.clean

theorem ends_harmless {Reply : Type} {part : Handler Reply} (takes : Takes Operation.Ends part)
    (clean : situation.2.any clobbers = false) : Harmless index part situation := by
  have keeps : ∀ operation : Operation, operation.Ends → (Logic.recorded registry index).Keeps
      (fun situation => situation.2.any clobbers = false) operation := by
    rintro operation ends ⟨now, history⟩ clean post holds result after occurs
    refine holds result _ ?_
    cases operation with
    | disk call =>
        cases call with
        | rename => exact ends.elim
        | _ => exact clean
    | _ => exact clean
  exact Fallible.Meets.keeping takes keeps clean (fun _ _ _ kept => kept) fun _ _ _ kept => kept

theorem moveOnDisk_harmless {root : List String} {oldRel newRel : String}
    (unharmed : Unharmed (joinFiles root newRel) situation) :
    Harmless index (moveOnDisk root oldRel newRel) situation := by
  unfold moveOnDisk
  refine (Fallible.meets_bind _ _).mpr (Fallible.Meets.keeping
    (@takes_pathExists Operation.Reads _ trivial) (fun _ => reads_unharmed) unharmed ?_
    fun _ _ _ unharmed => unharmed.clean)
  intro present following _ unharmed
  split
  · refine (Fallible.meets_bind _ _).mpr ((meets_io _ _).mpr fun result after occurs => ?_)
    have made : after.disk.find (joinFiles root newRel) = none := by
      rcases occurs_disk occurs with ⟨-, rfl⟩ | ⟨-, rfl⟩
      · refine (DiskCall.settle_find fun tree made => Tree.createDirAll_apart made ?_).trans
          unharmed.free
        intro within
        have longer := within.length_le
        have positive := List.length_pos_of_ne_nil
          (List.append_ne_nil_of_right_ne_nil root (segments_ne_nil newRel))
        rw [List.length_dropLast, joinFiles] at longer
        omega
      · exact unharmed.free
    cases result with
    | error error => exact unharmed.clean
    | ok done =>
        refine (meets_io _ _).mpr fun result last _ => ?_
        have unclobbered : clobbers ⟨index, after,
            .disk (.rename (joinFiles root oldRel) (joinFiles root newRel)), result, last⟩ =
              false := by
          cases result with
          | error error => rfl
          | ok answer => simp [clobbers, made]
        have clean : (⟨index, after,
            .disk (.rename (joinFiles root oldRel) (joinFiles root newRel)), result, last⟩ ::
              ⟨index, following.1, .disk (.createDirAll (joinFiles root newRel).dropLast),
                .ok done, after⟩ :: following.2 : List (Event registry)).any clobbers = false := by
          rw [List.any_cons, unclobbered]
          exact unharmed.clean
        cases result with
        | error error => exact clean
        | ok answer => exact clean
  · exact unharmed.clean

theorem moveOne_harmless {bundleId : Uuid} {root : List String} {log : List Statement}
    {entry : BundleArtifact} {newRel : String}
    (unharmed : Unharmed (joinFiles root newRel) situation) :
    Harmless index (moveOne bundleId root log entry newRel) situation := by
  unfold moveOne moveSubtree
  simp only [Fallible.meets_bind]
  refine Fallible.Meets.keeping (checkDestinationFree_insists (fun _ _ => trivial) ..).footprint
    (fun _ => reads_unharmed) unharmed ?_ fun _ _ _ unharmed => unharmed.clean
  intro _ following _ unharmed
  refine Fallible.Meets.keeping (moveRows_insists (fun _ _ => trivial) ..).footprint
    (fun _ => reads_unharmed) unharmed ?_ fun _ _ _ unharmed => unharmed.clean
  intro log following _ unharmed
  exact (moveOnDisk_harmless unharmed).mono (fun _ _ clean => clean) fun _ _ clean => clean

/-- A single move that can look at the disk renames to a free place only. -/
theorem applyMove_harmless (bundle : Bundle) (entry : BundleArtifact) (newRel : String)
    (clean : situation.2.any clobbers = false) :
    (applyMove bundle entry newRel).Meets (.steady registry index)
      (fun _ following => following.2.any clobbers = false)
      (fun _ following => following.2.any clobbers = false) situation := by
  unfold applyMove
  refine (Fallible.meets_bind _ _).mpr ((Fallible.meets_lift _).mpr
    ⟨fun _ _ => clean, fun _ valid => ?_⟩)
  have elsewhere : newRel ≠ entry.relativePath := by
    intro here
    rw [validateMove, if_pos here] at valid
    cases valid
  refine (Fallible.meets_bind _ _).mpr ((meets_pathExists _).mpr ?_)
  intro result after _ performed
  cases performed
  refine (Fallible.meets_bind _ _).mpr ((Fallible.meets_refuse _ _).mpr
    ⟨fun _ => clean, fun free => Fallible.Meets.steady ?_⟩)
  have absent : situation.1.disk.find (joinFiles (filesPath bundle.slug) newRel) = none := by
    simpa [elsewhere, Tree.present] using free
  refine (Fallible.meets_bind _ _).mpr (Fallible.Meets.keeping
    (@takes_begin Operation.Reads trivial) (fun _ => reads_unharmed) ⟨absent, clean⟩ ?_
    fun _ _ _ unharmed => unharmed.clean)
  intro _ following _ unharmed
  refine (Fallible.meets_bind _ _).mpr ((moveOne_harmless unharmed).mono ?_ fun _ _ => id)
  exact fun log following clean => ends_harmless (takes_commit trivial) clean

def Request.MovesOne : Request → Prop
  | renameFile .. => True
  | moveFile .. => True
  | _ => False

theorem handler_harmless {state : State} {start : Service} {request : Request}
    (single : request.MovesOne) :
    (request.handler state).Meets (.steady registry index)
      (fun _ following => following.2.any clobbers = false)
      (fun _ following => following.2.any clobbers = false) (start, []) := by
  have moves : ∀ (bundle : Bundle) (entry : BundleArtifact) (newRel : String)
      {following : Service × List (Event registry)}, following.2.any clobbers = false →
      Fallible.Meets (do
        applyMove bundle entry newRel
        regenerateManifest state bundle) (.steady registry index)
        (fun _ following => following.2.any clobbers = false)
        (fun _ following => following.2.any clobbers = false) following := by
    intro bundle entry newRel following clean
    refine (Fallible.meets_bind _ _).mpr ((applyMove_harmless bundle entry newRel clean).mono ?_
      fun _ _ => id)
    exact fun _ following clean => (ends_harmless (regenerateManifest_ends ..) clean).steady
  have resolves : ∀ (slug : String) (entryId : Option Uuid)
      {next : Bundle × BundleArtifact → Handler Bundle},
      (∀ found following, following.2.any clobbers = false →
        (next found).Meets (.steady registry index)
          (fun _ following => following.2.any clobbers = false)
          (fun _ following => following.2.any clobbers = false) following) →
      (resolvedEntry slug entryId >>= next).Meets (.steady registry index)
        (fun _ following => following.2.any clobbers = false)
        (fun _ following => following.2.any clobbers = false) (start, []) := by
    intro slug entryId next continued
    have fresh : Fresh start (start, []) := ⟨rfl, fun _ => rfl, rfl⟩
    refine (Fallible.meets_bind _ _).mpr (Fallible.Meets.steady (Fallible.Meets.keeping
      (resolvedEntry_reads slug entryId) (fun _ => reads_fresh) fresh ?_
      fun _ _ _ fresh => fresh.clean))
    exact fun found following _ fresh => continued found following fresh.clean
  cases request with
  | renameFile slug entryId newRelativePath =>
      refine (Fallible.meets_map _ _).mpr (resolves slug entryId ?_)
      rintro ⟨bundle, entry⟩ following clean
      simp only [Fallible.meets_bind, Fallible.meets_lift]
      exact ⟨fun _ _ => clean, fun _ _ => (Fallible.meets_bind _ _).mp (moves _ _ _ clean)⟩
  | moveFile slug entryId targetDir =>
      refine (Fallible.meets_map _ _).mpr (resolves slug entryId ?_)
      rintro ⟨bundle, entry⟩ following clean
      simp only [Fallible.meets_bind, Fallible.meets_lift]
      exact ⟨fun _ _ => clean, fun _ _ => (Fallible.meets_bind _ _).mp (moves _ _ _ clean)⟩
  | _ => exact single.elim

end Single

/-! ## The bytes -/

theorem Carries.kept {start after : Service} {events : List (Event registry)}
    (carries : Carries start (after, events)) (clean : events.any clobbers = false) :
    Kept events start after := by
  intro build inside content there
  obtain ⟨other, rest, same, found⟩ := carries clean build inside content there
  exact .inr (same ▸ found)

theorem Settles.unkept {start after : Service} {events : List (Event registry)}
    (settles : Settles start (after, events)) (clobbered : events.any clobbers = true) :
    ¬Kept events start after := by
  intro kept
  obtain ⟨build, inside, ⟨content, there, gone⟩, stays⟩ := settles clobbered
  rcases kept build inside content there with old | moved
  · exact gone old
  · rw [stays] at moved
    exact gone moved

/-- A move keeps every file exactly if none of its renames comes to a file with other bytes.
Unless an operation fails, no single move does. -/
theorem moved_bytes_kept_iff {state : State} {request : Request} {index : Nat}
    {faults : List Bool} {before after : Service} {outcome : Except AppError Reply}
    {events : List (Event registry)} (moving : request.Moving)
    (named : ∀ row ∈ before.database.artifacts.rows, row.Named)
    (executed : (handle state request).execute index faults before [] =
      some (outcome, after, events)) :
    (Kept events before after ↔ events.any clobbers = false) ∧
      (request.MovesOne → faults = [] → events.any clobbers = false) := by
  refine ⟨⟨fun kept => ?_, fun clean => ?_⟩, fun single unfailing => ?_⟩
  · have settles := Process.execute_recorded
      (Fallible.meets_run.mpr (handler_settles moving named)) executed
    cases clobbered : events.any clobbers with
    | false => rfl
    | true => exact (settles.unkept clobbered kept).elim
  · have carries : Carries before (after, events) := Process.execute_recorded
      (Fallible.meets_run.mpr (Fallible.Meets.keeping (handler_moves moving)
        (fun _ => moves_keep) (fun _ build inside content there => ⟨build, inside, rfl, there⟩)
        (fun _ _ _ kept => kept) fun _ _ _ kept => kept)) executed
    exact carries.kept clean
  · subst unfailing
    exact Process.execute_steady (Fallible.meets_run.mpr (handler_harmless single)) executed

/-- Two files at the root, and a namesake of the first that a deletion could not unlink. -/
def strayNamesake : Service :=
  let uploaded := served shownState onePack
    [.uploadFile "pack" (oneFile "a.jar" [65]), .uploadFile "pack" (oneFile "b.jar" [66]),
     .uploadFile "pack" (oneFile "t/a.jar" [67])]
  match (handle shownState (.deleteFile "pack" (some 3))).execute 0
      (List.replicate 6 false ++ [true]) uploaded [] with
  | some (_, after, _) => after
  | none => uploaded

theorem moved_bytes_kept_beside :
    ∃ reply after events,
      (handle shownState (.moveFiles "pack" [2] "t")).execute 0 [] strayNamesake [] =
        some (.ok reply, after, events) ∧ Kept events strayNamesake after := by
  have moved : ((handle shownState (.moveFiles "pack" [2] "t")).execute 0 [] strayNamesake
      []).map (fun run => decide (run.1.toOption.isSome ∧ run.2.2.any clobbers = false)) =
        some true := by decide +kernel
  obtain ⟨⟨outcome, after, events⟩, executed, holds⟩ := Option.map_eq_some_iff.mp moved
  obtain ⟨succeeded, clean⟩ := of_decide_eq_true holds
  cases outcome with
  | error error => cases succeeded
  | ok reply =>
      have named : ∀ row ∈ strayNamesake.database.artifacts.rows, row.Named := by decide +kernel
      exact ⟨reply, after, events, executed,
        (moved_bytes_kept_iff (show Request.Moving (.moveFiles ..) from trivial) named executed).1.mpr
          clean⟩

/-- The first file takes the place of its namesake, which no row tells of. -/
theorem moved_bytes_lost :
    ¬∀ (state : State) (request : Request) (index : Nat) (before after : Service)
      (reply : Reply) (events : List (Event registry)), request.Moving →
      (∀ row ∈ before.database.artifacts.rows, row.Named) →
      (handle state request).execute index [] before [] = some (.ok reply, after, events) →
      Kept events before after := by
  intro always
  have moved : ((handle shownState (.moveFiles "pack" [1] "t")).execute 0 [] strayNamesake
      []).map (fun run => decide (run.1.toOption.isSome ∧
        run.2.1.disk.find (filesPath "pack" ++ ["t", "a.jar"]) = some (.file [65]) ∧
        carried run.2.2 (filesPath "pack" ++ ["t", "a.jar"]) =
          filesPath "pack" ++ ["t", "a.jar"])) = some true := by decide +kernel
  obtain ⟨⟨outcome, after, events⟩, executed, holds⟩ := Option.map_eq_some_iff.mp moved
  obtain ⟨succeeded, replaced, stays⟩ := of_decide_eq_true holds
  cases outcome with
  | error error => cases succeeded
  | ok reply =>
      have named : ∀ row ∈ strayNamesake.database.artifacts.rows, row.Named := by decide +kernel
      have there : strayNamesake.disk.find (filesPath "pack" ++ ["t", "a.jar"]) =
          some (.file [67]) := by decide +kernel
      have kept := always shownState (.moveFiles "pack" [1] "t") 0 strayNamesake after reply events
        trivial named executed "pack" ["t", "a.jar"] [67] there
      rw [stays, replaced] at kept
      rcases kept with same | same
      · cases same
      · cases same

end Loontail.Bundles
