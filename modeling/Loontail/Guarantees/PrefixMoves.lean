import Loontail.Bundles.Rewrites
import Loontail.Guarantees.BatchMoves

/-! # A move puts one path in the place of another

Where nothing lies at the new path, nor below it for a folder, every statement of the move
is granted, and together they put the new path for the old one in the rows of the entry and
of what lies below it. -/

namespace Loontail.Bundles

open Concurrency Relational Text

/-! ## Where the children go -/

theorem below_beneath (path suffix : String) : Below path (beneath path suffix) := by
  rw [Below, segments_beneath]
  refine ⟨List.prefix_append _ _, fun same => ?_⟩
  have parts := congrArg segments same
  rw [segments_beneath] at parts
  exact segments_ne_nil suffix (List.append_right_eq_self.mp parts.symm)

theorem below_rebased {oldRel path : String} (newRel : String) (below : Below oldRel path) :
    Below newRel (rebased oldRel newRel path) := by
  obtain ⟨suffix, rfl⟩ := below.exists_beneath
  rw [rebased_beneath]
  exact below_beneath newRel suffix

theorem rebased_injective {oldRel newRel left right : String} (leftBelow : Below oldRel left)
    (rightBelow : Below oldRel right)
    (same : rebased oldRel newRel left = rebased oldRel newRel right) : left = right := by
  obtain ⟨first, rfl⟩ := leftBelow.exists_beneath
  obtain ⟨second, rfl⟩ := rightBelow.exists_beneath
  rw [rebased_beneath, rebased_beneath] at same
  have parts := congrArg segments same
  rw [segments_beneath, segments_beneath] at parts
  rw [segments_injective (List.append_cancel_left parts)]

theorem childMoves_apart (bundleId : Uuid) (oldRel newRel : String) (database : Database) :
    ((childMoves bundleId oldRel newRel database).map Prod.snd).Nodup := by
  unfold childMoves
  rw [List.map_map]
  refine List.Nodup.map_on ?_ (List.Nodup.of_map _ database.artifacts.keysUnique |>.filter _)
  intro left leftMem right rightMem same
  obtain ⟨leftThere, leftMatched⟩ := List.mem_filter.mp leftMem
  obtain ⟨rightThere, rightMatched⟩ := List.mem_filter.mp rightMem
  obtain ⟨leftBuild, leftBelow⟩ := matching_below.mp leftMatched
  obtain ⟨rightBuild, rightBelow⟩ := matching_below.mp rightMatched
  have path := rebased_injective leftBelow rightBelow same
  have slot : artifactLayout.slot left = artifactLayout.slot right := by
    simp only [leftBuild, rightBuild, path]
  exact Table.eq_of_slot_eq leftThere rightThere rfl slot.symm

/-! ## Moves to a free place -/

/-- What `check_destination_free` looks for is not there. -/
structure Vacant (bundleId : Uuid) (newRel : String) (isDir : Bool) (rows : List BundleArtifact) :
    Prop where
  at_ : ∀ row ∈ rows, row.bundleId = bundleId → row.relativePath ≠ newRel
  below : isDir = true → ∀ row ∈ rows, row.bundleId = bundleId → ¬Below newRel row.relativePath

section Granted

variable {service : Service} {log : List Statement} {seen : Database} {bundleId : Uuid}
variable {oldRel newRel : String} {isDir : Bool}

theorem checkDestinationFree_vacant (replayed : replay service.database log = .ok seen) :
    (checkDestinationFree log bundleId newRel isDir).Meets (.alone registry)
      (fun _ _ => Vacant bundleId newRel isDir seen.artifacts.rows) (fun _ _ => True) service := by
  unfold checkDestinationFree
  rw [Fallible.meets_bind, alone_inside replayed]
  simp only [Statement.execute, Fallible.meets_bind, Fallible.meets_refuse, decide_eq_true_eq,
    decide_eq_false_iff_not, Nat.not_lt, Nat.le_zero, Table.affected_eq_zero]
  refine ⟨fun _ => trivial, fun untaken => ?_⟩
  have at_ : ∀ row ∈ seen.artifacts.rows, row.bundleId = bundleId →
      row.relativePath ≠ newRel := by
    intro row member build same
    have taken := Sql.at_iff.mpr ⟨build, same⟩
    rw [untaken row member] at taken
    cases taken
  split
  · rw [Fallible.meets_bind, alone_inside replayed]
    simp only [Statement.execute, Fallible.meets_refuse, decide_eq_true_eq,
      decide_eq_false_iff_not, Nat.not_lt, Nat.le_zero, Table.affected_eq_zero]
    refine ⟨fun _ => trivial, fun unmatched => ⟨at_, fun _ row member build below => ?_⟩⟩
    have matched := matching_below.mpr ⟨build, below⟩
    rw [unmatched row member] at matched
    cases matched
  · rename_i file
    exact ⟨at_, fun dir => (file dir).elim⟩

theorem vacant_of_free (replayed : replay service.database log = .ok seen)
    (free : ((checkDestinationFree log bundleId newRel isDir).run.evaluate service).1 = .ok ()) :
    Vacant bundleId newRel isDir seen.artifacts.rows :=
  (checkDestinationFree_vacant replayed).replied (Prod.ext free rfl)

/-- Below a folder that moves to a free place every row follows. -/
theorem children_granted {row : BundleArtifact} (member : row ∈ seen.artifacts.rows)
    (here : row.bundleId = bundleId ∧ row.relativePath = oldRel)
    (vacant : Vacant bundleId newRel true seen.artifacts.rows) {middle : Database}
    (moved : replay seen [relocation row.id newRel] = .ok middle) :
    ∃ after, replay middle ((childMoves bundleId oldRel newRel middle).map
      fun move => relocation move.1 move.2) = .ok after := by
  obtain ⟨-, rows⟩ := relocate_at member here moved
  refine @replay_relocations_granted bundleId _ _
    (childMoves_apart bundleId oldRel newRel middle) ?_ ?_
  · intro move listed
    obtain ⟨child, chosen, rfl⟩ := List.mem_map.mp listed
    obtain ⟨there, matched⟩ := List.mem_filter.mp chosen
    exact ⟨child, there, rfl, (matching_below.mp matched).1⟩
  · intro move listed other among build same
    obtain ⟨child, chosen, rfl⟩ := List.mem_map.mp listed
    have below : Below newRel other.relativePath :=
      same ▸ below_rebased newRel (matching_below.mp (List.mem_filter.mp chosen).2).2
    obtain ⟨old, there, rfl⟩ := (rows other).mp among
    split at below
    · exact below.2 rfl
    · rename_i elsewhere
      rw [if_neg elsewhere] at build
      exact vacant.below rfl old there build below

theorem moveRows_granted (replayed : replay service.database log = .ok seen)
    (present : ∃ row ∈ seen.artifacts.rows, row.bundleId = bundleId ∧ row.relativePath = oldRel)
    (vacant : Vacant bundleId newRel isDir seen.artifacts.rows) :
    (moveRows log bundleId oldRel newRel isDir).Meets (.alone registry)
      (fun longer following => following = service ∧ ∃ updates after,
        longer = log ++ updates ∧ replay seen updates = .ok after)
      (fun _ _ => False) service := by
  unfold moveRows
  rw [Fallible.meets_bind, alone_inside replayed]
  simp only [Statement.execute, Fallible.meets_bind, Fallible.meets_okOr]
  constructor
  · intro missing
    obtain ⟨row, member, here⟩ := present
    have unfound := List.find?_eq_none.mp (Option.map_eq_none_iff.mp missing) row member
    exact unfound (Sql.at_iff.mpr here)
  intro id found
  obtain ⟨row, selected, rfl⟩ := Option.map_eq_some_iff.mp found
  have member : row ∈ seen.artifacts.rows := List.mem_of_find?_eq_some selected
  have here := Sql.at_iff.mp (List.find?_some selected)
  have first : ∃ middle, replay seen [relocation row.id newRel] = .ok middle := by
    refine @replay_relocations_granted bundleId [(row.id, newRel)] seen (by simp) ?_ ?_
    · simpa using ⟨row, member, rfl, here.1⟩
    · simpa using vacant.at_
  obtain ⟨middle, moved⟩ := first
  refine (insideAll_granted replayed moved).mono ?_ fun _ _ impossible => impossible
  rintro longer following ⟨rfl, rfl⟩
  split
  · rename_i dir
    subst dir
    obtain ⟨after, followed⟩ := children_granted member here vacant moved
    have continued : replay following.database (log ++ [relocation row.id newRel]) = .ok middle := by
      rw [replay_append, replayed]
      exact moved
    rw [Fallible.meets_bind, alone_inside continued]
    simp only [Statement.execute]
    rw [children_relocations]
    refine (insideAll_granted continued followed).mono ?_ fun _ _ impossible => impossible
    rintro longer last ⟨rfl, rfl⟩
    refine ⟨rfl, _, after, List.append_assoc .., ?_⟩
    rw [replay_append, moved]
    exact followed
  · exact ⟨rfl, _, middle, rfl, moved⟩

/-- The disk's part of a move changes only the disk, and only the disk can refuse it. -/
theorem moveOnDisk_alone (filesRoot : List String) (oldRel newRel : String) :
    (moveOnDisk filesRoot oldRel newRel).Meets (.alone registry)
      (fun _ following => ∃ disk, following = { service with disk })
      (fun error following => (∃ disk, following = { service with disk }) ∧
        ∃ text, error = .internal text) service := by
  unfold moveOnDisk
  rw [Fallible.meets_bind, alone_pathExists]
  split
  · rw [Fallible.meets_bind, alone_io]
    split
    · rw [alone_io]
      split
      · exact ⟨_, rfl⟩
      · exact ⟨⟨_, rfl⟩, _, rfl⟩
    · exact ⟨⟨_, rfl⟩, _, rfl⟩
  · exact ⟨_, rfl⟩

end Granted

/-! ## The substitution -/

def DistinctPaths (rows : List BundleArtifact) : Prop :=
  ∀ left ∈ rows, ∀ right ∈ rows, left.bundleId = right.bundleId →
    left.relativePath = right.relativePath → left = right

/-- The updates put the new path for the old one, and paths are distinct between them. -/
structure Substituted (bundleId : Uuid) (oldRel newRel : String) (isDir : Bool)
    (before : Database) (updates : List Statement) (after : Database) : Prop where
  replayed : replay before updates = .ok after
  rows : RowsMoved bundleId oldRel newRel isDir before after
  named : ∀ row ∈ after.artifacts.rows, row.bundleId = bundleId → row.Named
  between : ∀ done, done <+: updates →
    ∃ middle, replay before done = .ok middle ∧ DistinctPaths middle.artifacts.rows

theorem distinctPaths (database : Database) : DistinctPaths database.artifacts.rows := by
  intro left leftMem right rightMem build path
  have slot : artifactLayout.slot left = artifactLayout.slot right := by
    simp only [build, path]
  exact Table.eq_of_slot_eq leftMem rightMem rfl slot.symm

theorem replay_prefix {database after : Database} {done updates : List Statement}
    (leads : done <+: updates) (replayed : replay database updates = .ok after) :
    ∃ middle, replay database done = .ok middle := by
  obtain ⟨rest, rfl⟩ := leads
  rw [replay_append] at replayed
  cases reached : replay database done with
  | ok middle => exact ⟨middle, rfl⟩
  | error error =>
      rw [reached] at replayed
      cases replayed

theorem movedRow_named {bundleId : Uuid} {oldRel newRel : String} {isDir : Bool}
    {row : BundleArtifact} (normalized : Normalized newRel) (named : row.Named) :
    (movedRow bundleId oldRel newRel isDir row).Named := by
  unfold movedRow
  split
  · exact relocated_named normalized row
  · split
    · refine relocated_named ?_ row
      intro part member
      rw [segments_rebased] at member
      rcases List.mem_append.mp member with first | later
      · exact normalized part first
      · exact named.normalized part (List.mem_of_mem_drop later)
    · exact named

theorem movedRow_bundleId (bundleId : Uuid) (oldRel newRel : String) (isDir : Bool)
    (row : BundleArtifact) : (movedRow bundleId oldRel newRel isDir row).bundleId = row.bundleId := by
  unfold movedRow
  split
  · rfl
  · split
    · rfl
    · rfl

theorem validateMove_apart {entry : BundleArtifact} {newRel : String}
    (valid : validateMove entry newRel = .ok ()) (dir : entry.isDir = true) :
    ¬segments entry.relativePath <+: segments newRel := by
  intro leads
  unfold validateMove at valid
  split at valid
  · cases valid
  · rename_i elsewhere
    have below : Below entry.relativePath newRel := ⟨leads, fun same => elsewhere same.symm⟩
    rw [dir, List.isPrefixOf_iff_prefix.mpr (leads_iff.mpr below)] at valid
    cases valid

theorem moveRows_substitutes {service : Service} {log : List Statement} {seen : Database}
    {bundleId : Uuid} {entry : BundleArtifact} {newRel : String}
    (replayed : replay service.database log = .ok seen)
    (named : ∀ row ∈ seen.artifacts.rows, row.bundleId = bundleId → row.Named)
    (present : entry ∈ seen.artifacts.rows) (build : entry.bundleId = bundleId)
    (normalized : Normalized newRel) (valid : validateMove entry newRel = .ok ())
    (vacant : Vacant bundleId newRel entry.isDir seen.artifacts.rows) :
    ∃ updates after, Substituted bundleId entry.relativePath newRel entry.isDir seen updates after ∧
      (moveRows log bundleId entry.relativePath newRel entry.isDir).run.evaluate service =
        (.ok (log ++ updates), service) := by
  have granted := Process.meets_alone.mp
    (moveRows_granted replayed ⟨entry, present, build, rfl⟩ vacant)
  have moved := Process.meets_alone.mp
    (@moveRows_alone _ _ _ bundleId _ newRel _ replayed (validateMove_apart valid))
  cases ran : (moveRows log bundleId entry.relativePath newRel entry.isDir).run.evaluate service with
  | mk outcome following =>
      rw [ran] at granted moved
      cases outcome with
      | error error => exact granted.elim
      | ok longer =>
          obtain ⟨same, updates, after, whole, replayedUpdates⟩ := granted
          obtain ⟨-, last, reached, rows⟩ := moved
          rw [whole, replay_append, replayed] at reached
          have ended : after = last := Except.ok.inj (replayedUpdates.symm.trans reached)
          subst ended
          refine ⟨updates, after, ⟨replayedUpdates, rows, ?_, ?_⟩,
            Prod.ext (congrArg Except.ok whole) same⟩
          · intro row member owned
            obtain ⟨old, there, rfl⟩ := (rows.rows row).mp member
            rw [movedRow_bundleId] at owned
            exact movedRow_named normalized (named old there owned)
          · intro done leads
            obtain ⟨middle, between⟩ := replay_prefix leads replayedUpdates
            exact ⟨middle, between, distinctPaths middle⟩

/-- A move that is valid and whose destination is free puts the new path for the old one:
only the disk can still refuse it. -/
theorem moves_substitute {service : Service} {log : List Statement} {seen : Database}
    {bundleId : Uuid} {filesRoot : List String} {entry : BundleArtifact} {newRel : String}
    (replayed : replay service.database log = .ok seen)
    (named : ∀ row ∈ seen.artifacts.rows, row.bundleId = bundleId → row.Named)
    (present : entry ∈ seen.artifacts.rows) (build : entry.bundleId = bundleId)
    (normalized : Normalized newRel) (valid : validateMove entry newRel = .ok ())
    (free : ((checkDestinationFree log bundleId newRel entry.isDir).run.evaluate service).1 =
      .ok ()) :
    ∃ updates after, Substituted bundleId entry.relativePath newRel entry.isDir seen updates after ∧
      (moveRows log bundleId entry.relativePath newRel entry.isDir).run.evaluate service =
        (.ok (log ++ updates), service) ∧
      ∃ outcome disk, (moveSubtree log bundleId filesRoot entry.relativePath newRel
          entry.isDir).run.evaluate service = (outcome, { service with disk }) ∧
        (outcome = .ok (log ++ updates) ∨ ∃ text, outcome = .error (.internal text)) := by
  have vacant := vacant_of_free replayed free
  obtain ⟨updates, after, substituted, ran⟩ :=
    moveRows_substitutes replayed named present build normalized valid vacant
  have whole : (moveSubtree log bundleId filesRoot entry.relativePath newRel entry.isDir).Meets
      (.alone registry)
      (fun longer following => (∃ disk, following = { service with disk }) ∧
        longer = log ++ updates)
      (fun error following => (∃ disk, following = { service with disk }) ∧
        ∃ text, error = .internal text) service := by
    unfold moveSubtree
    rw [Fallible.meets_bind]
    refine Process.meets_alone.mpr ?_
    rw [ran]
    refine (Fallible.meets_bind _ _).mpr ?_
    refine (moveOnDisk_alone filesRoot entry.relativePath newRel).mono ?_ fun _ _ failed => failed
    exact fun _ following same => ⟨same, rfl⟩
  refine ⟨updates, after, substituted, ran, ?_⟩
  have ended := Process.meets_alone.mp whole
  cases run : (moveSubtree log bundleId filesRoot entry.relativePath newRel
      entry.isDir).run.evaluate service with
  | mk outcome following =>
      rw [run] at ended
      cases outcome with
      | ok longer =>
          obtain ⟨⟨disk, rfl⟩, rfl⟩ : (∃ disk, following = { service with disk }) ∧
            longer = log ++ updates := ended
          exact ⟨_, disk, rfl, .inl rfl⟩
      | error error =>
          obtain ⟨⟨disk, rfl⟩, text, rfl⟩ : (∃ disk, following = { service with disk }) ∧
            ∃ text, error = .internal text := ended
          exact ⟨_, disk, rfl, .inr ⟨text, rfl⟩⟩

def moddedPack : Service :=
  served shownState onePack
    [.createFolder "pack" "mods", .uploadFile "pack" (oneFile "mods/a.jar" [65]),
     .uploadFile "pack" (oneFile "mods.jar" [66])]

theorem moves_substitute_mods :
    ∃ (entry : BundleArtifact) (updates : List Statement) (after : Database), entry.isDir = true ∧
      Substituted 1 entry.relativePath "lib/mods" entry.isDir moddedPack.database updates after ∧
      (moveRows [] 1 entry.relativePath "lib/mods" entry.isDir).run.evaluate moddedPack =
        (.ok updates, moddedPack) := by
  have stored : (moddedPack.database.artifacts.find 1).any (fun entry =>
      decide (entry.bundleId = 1 ∧ entry.isDir = true ∧ validateMove entry "lib/mods" = .ok () ∧
        ((checkDestinationFree [] 1 "lib/mods" entry.isDir).run.evaluate moddedPack).1 =
          .ok ())) = true := by decide +kernel
  obtain ⟨entry, found, holds⟩ := (Option.any_eq_true _ _).mp stored
  obtain ⟨build, dir, valid, free⟩ := of_decide_eq_true holds
  have named : ∀ row ∈ moddedPack.database.artifacts.rows, row.bundleId = 1 → row.Named := by
    decide +kernel
  have normalized : Normalized "lib/mods" := by decide +kernel
  obtain ⟨updates, after, substituted, ran, -⟩ := @moves_substitute moddedPack [] _ 1
    (filesPath "pack") entry "lib/mods" rfl named (Table.find_eq_some.mp found).1 build
    normalized valid free
  exact ⟨entry, updates, after, dir, substituted, ran⟩

end Loontail.Bundles
