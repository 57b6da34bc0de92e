import Loontail.Bundles.Moves
import Loontail.Bundles.Storage
import Loontail.Concurrency.Sequence
import Loontail.Disk.Strays
import Loontail.Guarantees.RecordedHashes

/-! # Whether a batch of moves is undone

A batch that fails leaves its rows to the transaction, which forgets them; what it has
done on disk stays. -/

namespace Loontail.Bundles

open Concurrency Disk

/-! ## What a batch has done -/

def shifts : Event registry → Bool
  | ⟨_, before, .disk (.createDirAll path), .ok _, _⟩ => !before.disk.present path
  | ⟨_, _, .disk (.rename ..), .ok _, _⟩ => true
  | _ => false

def commits : Event registry → Bool
  | ⟨_, _, .commit _, .ok _, _⟩ => true
  | _ => false

structure Undone (before after : Service) : Prop where
  rows : after.database.artifacts.rows = before.database.artifacts.rows
  disk : after.disk.find = before.disk.find

/-- The logic of a request that does not get as far as its commit. -/
abbrev uncommitted (index : Nat) : Logic registry :=
  .marked registry index (fun event => commits event = false) shifts

def Operation.Looks : Operation → Prop
  | .begin => True
  | .inside .. => True
  | .disk (.tryExists _) => True
  | _ => False

theorem uncommitted_ignores {index : Nat} {situation : Service × Bool} {operation : Operation}
    (looks : operation.Looks) : (uncommitted index).Ignores situation operation := by
  intro post holds result after occurs _
  cases operation with
  | begin =>
      rw [occurs_begin occurs]
      exact holds result
  | inside log statement =>
      rw [(occurs_inside occurs).1]
      exact holds result
  | disk call =>
      cases call with
      | tryExists path =>
          rcases occurs_disk occurs with ⟨-, rfl⟩ | ⟨-, rfl⟩ <;> exact holds result
      | _ => exact looks.elim
  | _ => exact looks.elim

/-! ## The rows of a move -/

theorem looks_uncommitted {Reply : Type} {part : Handler Reply} {index : Nat}
    {situation : Service × Bool} (insists : part.Insists Operation.Looks)
    {holds : Service × Bool → Prop} (here : holds situation) :
    part.Meets (uncommitted index) (fun _ => holds) (fun _ => holds) situation :=
  insists.footprint.of_footprint (fun _ looks => uncommitted_ignores looks) (fun _ _ => here)
    fun _ _ => here

/-! ## The disk of a move -/

section Gathering

variable {start : Service} {folder : List String} {situation : Service × Bool} {index : Nat}

/-- Nothing was shifted and the tree is as it was, or it has come nearer to a tree where
everything lies in the folder. -/
structure Gathering (start : Service) (folder : List String) (situation : Service × Bool) :
    Prop where
  database : situation.1.database = start.database
  disk : situation.2 = false ∧ situation.1.disk.find = start.disk.find ∨
    situation.2 = true ∧
      situation.1.disk.outstanding folder < start.disk.outstanding folder

theorem Gathering.initial (service : Service) (folder : List String) :
    Gathering service folder (service, false) := ⟨rfl, .inl ⟨rfl, rfl⟩⟩

theorem Gathering.undone (gathering : Gathering start folder situation) :
    Undone start situation.1 ↔ situation.2 = false := by
  constructor
  · intro undone
    rcases gathering.disk with ⟨still, -⟩ | ⟨-, nearer⟩
    · exact still
    · rw [Tree.outstanding_eq undone.disk] at nearer
      exact (Nat.lt_irrefl _ nearer).elim
  · intro still
    rcases gathering.disk with ⟨-, same⟩ | ⟨shifted, -⟩
    · exact ⟨by rw [gathering.database], same⟩
    · rw [still] at shifted
      cases shifted

theorem Gathering.idle (gathering : Gathering start folder situation) {disk : Builds}
    (same : disk.find = situation.1.disk.find) :
    Gathering start folder ({ situation.1 with disk }, situation.2) where
  database := gathering.database
  disk := by
    rcases gathering.disk with ⟨still, before⟩ | ⟨shifted, nearer⟩
    · exact .inl ⟨still, same.trans before⟩
    · exact .inr ⟨shifted, by rw [Tree.outstanding_eq same]; exact nearer⟩

theorem Gathering.nearer (gathering : Gathering start folder situation) {disk : Builds}
    (nearer : disk.outstanding folder < situation.1.disk.outstanding folder) :
    Gathering start folder ({ situation.1 with disk }, true) where
  database := gathering.database
  disk := by
    refine .inr ⟨rfl, ?_⟩
    rcases gathering.disk with ⟨-, before⟩ | ⟨-, earlier⟩
    · rw [← Tree.outstanding_eq before]
      exact nearer
    · exact nearer.trans earlier

theorem mkdir_gathers (gathering : Gathering start folder situation) (context : String) :
    (io (.createDirAll folder) context).Meets (uncommitted index)
      (fun _ => Gathering start folder) (fun _ => Gathering start folder) situation := by
  refine (meets_io _ _).mpr fun result after occurs _ => ?_
  rcases occurs_disk occurs with ⟨rfl, rfl⟩ | ⟨rfl, rfl⟩
  · rcases DiskCall.settle_cases situation.1.disk (situation.1.disk.createDirAll folder) with
      ⟨tree, made, settled⟩ | ⟨error, -, settled⟩
    · have done : (DiskCall.createDirAll folder).perform situation.1.disk = (.ok (), tree) :=
        settled
      rw [done]
      cases found : situation.1.disk.find folder with
      | none =>
          have mark : shifts ⟨index, situation.1, .disk (.createDirAll folder), .ok (),
              { situation.1 with disk := tree }⟩ = true := by
            simp [shifts, Tree.present, found]
          rw [mark]
          exact gathering.nearer (Tree.createDirAll_outstanding made found)
      | some node =>
          have mark : shifts ⟨index, situation.1, .disk (.createDirAll folder), .ok (),
              { situation.1 with disk := tree }⟩ = false := by
            simp [shifts, Tree.present, found]
          rw [mark]
          exact gathering.idle (Tree.createDirAll_idle made (by rw [found]; rfl))
    · have failed : (DiskCall.createDirAll folder).perform situation.1.disk =
          (.error error, situation.1.disk) := settled
      rw [failed]
      exact gathering
  · exact gathering

theorem rename_gathers (gathering : Gathering start folder situation) {source : List String}
    {name : String} (elsewhere : ∀ other, source ≠ folder ++ [other]) (context : String) :
    (io (.rename source (folder ++ [name])) context).Meets (uncommitted index)
      (fun _ => Gathering start folder) (fun _ => Gathering start folder) situation := by
  refine (meets_io _ _).mpr fun result after occurs _ => ?_
  rcases occurs_disk occurs with ⟨rfl, rfl⟩ | ⟨rfl, rfl⟩
  · rcases DiskCall.settle_cases situation.1.disk
      (situation.1.disk.rename source (folder ++ [name])) with
      ⟨tree, renamed, settled⟩ | ⟨error, -, settled⟩
    · have done : (DiskCall.rename source (folder ++ [name])).perform situation.1.disk =
          (.ok (), tree) := settled
      rw [done]
      exact gathering.nearer (Tree.rename_outstanding renamed elsewhere)
    · have failed : (DiskCall.rename source (folder ++ [name])).perform situation.1.disk =
          (.error error, situation.1.disk) := settled
      rw [failed]
      exact gathering
  · exact gathering

theorem moveOnDisk_gathers (gathering : Gathering start folder situation)
    {filesRoot : List String} {oldRel newRel name : String}
    (target : joinFiles filesRoot newRel = folder ++ [name])
    (elsewhere : ∀ other, joinFiles filesRoot oldRel ≠ folder ++ [other]) :
    (moveOnDisk filesRoot oldRel newRel).Meets (uncommitted index)
      (fun _ => Gathering start folder) (fun _ => Gathering start folder) situation := by
  unfold moveOnDisk
  rw [target, List.dropLast_concat, Fallible.meets_bind, meets_pathExists]
  refine uncommitted_ignores (show (Operation.disk (.tryExists _)).Looks from trivial) _
    fun result => ?_
  have branch : ∀ present : Bool, (if present = true then do
        io (.createDirAll folder) "mkdir"
        io (.rename (joinFiles filesRoot oldRel) (folder ++ [name])) "rename"
      else pure () : Handler Unit).Meets (uncommitted index) (fun _ => Gathering start folder)
        (fun _ => Gathering start folder) situation := by
    intro present
    cases present with
    | false => exact gathering
    | true =>
        refine (Fallible.meets_bind _ _).mpr ((mkdir_gathers gathering "mkdir").mono ?_ ?_)
        · exact fun _ following nearer => rename_gathers nearer elsewhere "rename"
        · exact fun _ following nearer => nearer
  cases result with
  | ok present => exact branch present
  | error error => exact branch false

/-! ## The batch -/

theorem reads_uncommitted (statement : Statement) {value : statement.Reply}
    (reads : statement.execute situation.1.database = .ok (value, situation.1.database))
    {onOk : statement.Reply → Service × Bool → Prop} {onError : AppError → Service × Bool → Prop}
    (replied : onOk value situation) (refused : ∀ error, onError error situation) :
    @Fallible.Meets registry AppError statement.Reply (query statement) (uncommitted index) onOk
      onError situation := by
  refine (meets_query statement).mpr fun result after occurs _ => ?_
  rcases occurs_statement occurs with ⟨reply, database, rfl, executed, rfl⟩ | ⟨error, rfl, rfl⟩
  · rw [reads] at executed
    cases executed
    exact replied
  · exact refused _

structure Incoming (filesRoot folder : List String) (move : BundleArtifact × String) : Prop where
  target : ∃ name, joinFiles filesRoot move.2 = folder ++ [name]
  elsewhere : ∀ other, joinFiles filesRoot move.1.relativePath ≠ folder ++ [other]

theorem moveAll_gathers (bundleId : Uuid) {filesRoot : List String}
    {moves : List (BundleArtifact × String)}
    (incoming : ∀ move ∈ moves, Incoming filesRoot folder move) (log : List Statement)
    (gathering : Gathering start folder situation) :
    (moveAll bundleId filesRoot log moves).Meets (uncommitted index)
      (fun _ => Gathering start folder) (fun _ => Gathering start folder) situation := by
  induction moves generalizing log situation with
  | nil => exact gathering
  | cons move rest induction =>
      have first := incoming move (by simp)
      obtain ⟨name, target⟩ := first.target
      unfold moveAll moveOne moveSubtree
      simp only [Fallible.meets_bind]
      refine (looks_uncommitted (checkDestinationFree_insists (fun _ _ => trivial) ..)
        gathering).mono ?_ fun _ _ => id
      intro _ following gathering
      refine (looks_uncommitted (moveRows_insists (fun _ _ => trivial) ..) gathering).mono ?_
        fun _ _ => id
      intro log following gathering
      refine (moveOnDisk_gathers gathering target first.elsewhere).mono ?_ fun _ _ => id
      intro _ following gathering
      exact induction (fun move member => incoming move (List.mem_cons_of_mem _ member)) log
        gathering

theorem moveBatch_gathers (bundleId : Uuid) {filesRoot : List String}
    {moves : List (BundleArtifact × String)}
    (incoming : ∀ move ∈ moves, Incoming filesRoot folder move)
    (gathering : Gathering start folder situation) :
    (moveBatch bundleId filesRoot moves).Meets (uncommitted index)
      (fun _ _ => False) (fun _ => Gathering start folder) situation := by
  unfold moveBatch
  refine (Fallible.meets_bind _ _).mpr ((moveAll_gathers bundleId incoming [] gathering).mono ?_
    fun _ _ => id)
  intro log following gathering
  refine (meets_commit log).mpr fun result after occurs unmet => ?_
  rcases occurs_commit occurs with ⟨database, rfl, -, rfl⟩ | ⟨error, rfl, rfl⟩
  · cases unmet
  · exact gathering

theorem incoming_of_valid {entry : BundleArtifact} {targetDir newRel slug : String}
    (named : entry.Named) (joined : joinTargetDir targetDir entry.name = .ok newRel)
    (valid : validateMove entry newRel = .ok ()) :
    Incoming (filesPath slug) (filesPath slug ++ targetParts targetDir) (entry, newRel) := by
  have parts := joinTargetDir_ok named.safe named.plain joined
  refine ⟨⟨entry.name, by simp only [joinFiles, parts, List.append_assoc]⟩, fun other same => ?_⟩
  simp only [joinFiles, List.append_assoc, List.append_cancel_left_eq] at same
  have last : entry.name = other := by
    have whole := named.last.symm.trans same
    exact (List.append_inj' whole rfl).2 |> List.cons.inj |>.1
  have here : newRel = entry.relativePath := segments_injective (by rw [parts, same, last])
  unfold validateMove at valid
  rw [if_pos here] at valid
  cases valid

theorem resolveMoves_incoming (slug : String) {targetDir : String} (bundleId : Uuid)
    (named : ∀ row ∈ situation.1.database.artifacts.rows, row.Named) (ids : List Uuid) :
    (resolveMoves bundleId targetDir ids).Meets (uncommitted index)
      (fun moves following => following = situation ∧ ∀ move ∈ moves,
        Incoming (filesPath slug) (filesPath slug ++ targetParts targetDir) move)
      (fun _ following => following = situation) situation := by
  induction ids with
  | nil => exact ⟨rfl, by simp⟩
  | cons id rest induction =>
      unfold resolveMoves artifactInBundle
      simp only [Fallible.meets_bind, Fallible.meets_okOr, Fallible.meets_lift,
        Fallible.meets_pure]
      refine reads_uncommitted (.findArtifact id) rfl ?_ fun _ => rfl
      refine ⟨fun _ => rfl, fun entry found => ⟨fun _ _ => rfl, fun newRel joined => ?_⟩⟩
      refine ⟨fun _ _ => rfl, fun _ valid => ?_⟩
      have member : entry ∈ situation.1.database.artifacts.rows :=
        (Relational.Table.find_eq_some.mp (Option.filter_eq_some_iff.mp found).1).1
      refine induction.mono ?_ fun _ _ same => same
      rintro moves following ⟨rfl, incoming⟩
      refine ⟨rfl, fun move listed => ?_⟩
      rcases List.mem_cons.mp listed with rfl | later
      · exact incoming_of_valid (named entry member) joined valid
      · exact incoming move later

theorem moveFiles_gathers {state : State} {slug targetDir : String} {ids : List Uuid}
    (named : ∀ row ∈ start.database.artifacts.rows, row.Named) :
    (moveFiles state slug ids targetDir).Meets (uncommitted index) (fun _ _ => False)
      (fun _ following => ∃ folder, Gathering start folder following) (start, false) := by
  have still : ∃ folder, Gathering start folder (start, false) := ⟨[], .initial start []⟩
  unfold moveFiles resolvedBundle requireBySlug
  simp only [Fallible.meets_bind, Fallible.meets_lift, Fallible.meets_okOr,
    Fallible.meets_refuse]
  refine ⟨fun _ _ => still, fun _ _ => ?_⟩
  refine reads_uncommitted (.findBySlug slug) rfl ?_ fun _ => still
  refine ⟨fun _ => still, fun bundle found => ⟨fun _ => still, fun _ => ?_⟩⟩
  refine (resolveMoves_incoming bundle.slug bundle.id named ids).mono ?_ ?_
  · rintro moves following ⟨rfl, incoming⟩
    refine meets_begin.mpr fun result after occurs _ => ?_
    obtain rfl := occurs_begin occurs
    cases result with
    | error error => exact still
    | ok begun =>
        refine (moveBatch_gathers bundle.id incoming (.initial _ _)).mono ?_ ?_
        · exact fun _ _ impossible => impossible.elim
        · exact fun _ _ gathering => ⟨_, gathering⟩
  · rintro error following rfl
    exact still

end Gathering

/-- A batch that fails before its commit, or in it, is undone exactly if it has renamed
nothing and made no folder by then. -/
theorem failed_batch_undone_iff {state : State} {slug targetDir : String} {ids : List Uuid}
    {index : Nat} {faults : List Bool} {before after : Service} {error : AppError}
    {events : List (Event registry)}
    (named : ∀ row ∈ before.database.artifacts.rows, row.Named)
    (executed : (handle state (.moveFiles slug ids targetDir)).execute index faults before [] =
      some (.error error, after, events))
    (unmet : ∀ event ∈ events, commits event = false) :
    Undone before after ↔ events.any shifts = false := by
  have meets : Process.Meets (uncommitted index)
      (fun outcome following => match outcome with
        | .ok _ => False
        | .error _ => ∃ folder, Gathering before folder following)
      (handle state (.moveFiles slug ids targetDir)) (before, false) :=
    Fallible.meets_outcome.mpr ((Fallible.meets_map _ _).mpr (moveFiles_gathers named))
  obtain ⟨folder, gathering⟩ := Process.execute_marked meets executed unmet
  exact gathering.undone

def served (state : State) (start : Service) (requests : List Request) : Service :=
  requests.foldl (fun service request =>
    match (handle state request).execute 0 [] service [] with
    | some (_, after, _) => after
    | none => service) start

def namesakes : Service :=
  served shownState onePack
    [.uploadFile "pack" (oneFile "a.jar" [65]), .uploadFile "pack" (oneFile "b.jar" [66]),
     .uploadFile "pack" (oneFile "t/b.jar" [67])]

theorem failed_batch_undone_alone :
    ∃ after error events,
      (handle shownState (.moveFiles "pack" [2] "t")).execute 0 [] namesakes [] =
        some (.error error, after, events) ∧
      namesakes.database.artifacts.rows.length = 3 ∧ Undone namesakes after := by
  have refused : ((handle shownState (.moveFiles "pack" [2] "t")).execute 0 [] namesakes []).map
      (fun run => decide (run.1.toOption = none ∧ run.2.2.any commits = false ∧
        run.2.2.any shifts = false)) = some true := by decide +kernel
  obtain ⟨⟨outcome, after, events⟩, executed, holds⟩ := Option.map_eq_some_iff.mp refused
  obtain ⟨failed, uncommitted, still⟩ := of_decide_eq_true holds
  cases outcome with
  | ok reply => cases failed
  | error error =>
      have named : ∀ row ∈ namesakes.database.artifacts.rows, row.Named := by decide +kernel
      have unmet : ∀ event ∈ events, commits event = false := by
        simpa [List.any_eq_false] using uncommitted
      exact ⟨after, error, events, executed, by decide +kernel,
        (failed_batch_undone_iff named executed unmet).mpr still⟩

/-- The first file has been renamed when the second is refused. -/
theorem failed_batch_half_done :
    ¬∀ (state : State) (slug targetDir : String) (ids : List Uuid) (index : Nat)
      (faults : List Bool) (before after : Service) (error : AppError)
      (events : List (Event registry)),
      (∀ row ∈ before.database.artifacts.rows, row.Named) →
      (handle state (.moveFiles slug ids targetDir)).execute index faults before [] =
        some (.error error, after, events) →
      (∀ event ∈ events, commits event = false) → Undone before after := by
  intro always
  have refused : ((handle shownState (.moveFiles "pack" [1, 2] "t")).execute 0 [] namesakes
      []).map (fun run => decide (run.1.toOption = none ∧ run.2.2.any commits = false ∧
        run.2.1.disk.find (joinFiles (filesPath "pack") "a.jar") = none)) = some true := by
    decide +kernel
  obtain ⟨⟨outcome, after, events⟩, executed, holds⟩ := Option.map_eq_some_iff.mp refused
  obtain ⟨failed, uncommitted, gone⟩ := of_decide_eq_true holds
  cases outcome with
  | ok reply => cases failed
  | error error =>
      have named : ∀ row ∈ namesakes.database.artifacts.rows, row.Named := by decide +kernel
      have unmet : ∀ event ∈ events, commits event = false := by
        simpa [List.any_eq_false] using uncommitted
      have undone := always shownState "pack" "t" [1, 2] 0 [] namesakes after error events named
        executed unmet
      have there : namesakes.disk.find (joinFiles (filesPath "pack") "a.jar") =
          some (.file [65]) := by decide +kernel
      rw [← undone.disk, gone] at there
      cases there

end Loontail.Bundles
