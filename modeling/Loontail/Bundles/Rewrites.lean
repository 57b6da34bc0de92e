import Loontail.Bundles.Rules
import Loontail.Bundles.Admin
import Loontail.Bundles.Storage

/-! # How a transaction rewrites rows

The rows that the statements of a deletion drop, and those that the statements of a move
take from below one path to below another. -/

namespace Loontail.Bundles

open Concurrency Relational Text

/-! ## Rows below a path -/

def Below (path other : String) : Prop := segments path <+: segments other ∧ path ≠ other

instance (path other : String) : Decidable (Below path other) := inferInstanceAs (Decidable (_ ∧ _))

theorem leads_iff {path other : String} :
    (path ++ "/").toList <+: other.toList ↔ Below path other := by
  constructor
  · rintro ⟨suffix, whole⟩
    have same : beneath path (.ofList suffix) = other := by
      rw [← String.toList_inj, ← whole]
      simp [beneath]
    subst same
    rw [Below, segments_beneath]
    refine ⟨List.prefix_append _ _, fun same => ?_⟩
    have parts := congrArg segments same
    rw [segments_beneath] at parts
    exact segments_ne_nil _ (List.append_right_eq_self.mp parts.symm)
  · rintro ⟨⟨rest, whole⟩, proper⟩
    have some : rest ≠ [] := by
      rintro rfl
      exact proper (segments_injective (by simpa using whole))
    have apart : ∀ part ∈ rest, '/' ∉ part.toList := fun part member =>
      not_mem_of_mem_segments (whole ▸ List.mem_append_right _ member)
    have same : beneath path (joinSegments rest) = other := by
      refine segments_injective ?_
      rw [segments_beneath, segments_joinSegments some apart, whole]
    rw [← same]
    simp [beneath]

theorem matching_below {bundleId : Uuid} {path : String} {row : BundleArtifact} :
    Sql.matching bundleId (startingWith (path ++ "/")) row = true ↔
      row.bundleId = bundleId ∧ Below path row.relativePath := by
  unfold Sql.matching startingWith
  rw [String.toList_ofList, like_startsWith, Bool.and_eq_true, decide_eq_true_eq,
    List.isPrefixOf_iff_prefix, leads_iff]

theorem replay_append (database : Database) (first second : List Statement) :
    replay database (first ++ second) =
      (replay database first).bind fun middle => replay middle second := by
  induction first generalizing database with
  | nil => rfl
  | cons statement rest induction =>
      simp only [List.cons_append, replay]
      split
      · exact induction _
      · rfl

/-! ## Deletions -/

/-- The deletion of the entry takes the row with it. -/
def Dropped (bundleId : Uuid) (entry row : BundleArtifact) : Prop :=
  row.id = entry.id ∨
    entry.isDir = true ∧ row.bundleId = bundleId ∧ Below entry.relativePath row.relativePath

theorem replay_deleteEntryRows (bundleId : Uuid) (entry : BundleArtifact) (database : Database) :
    ∃ after, replay database (deleteEntryRows bundleId entry) = .ok after ∧
      after.bundles = database.bundles ∧ ∀ row, row ∈ after.artifacts.rows ↔
        row ∈ database.artifacts.rows ∧ ¬Dropped bundleId entry row := by
  have matched : ∀ row : BundleArtifact,
      Sql.matching bundleId (startingWith (entry.relativePath ++ "/")) row = false ↔
        ¬(row.bundleId = bundleId ∧ Below entry.relativePath row.relativePath) := fun row => by
    rw [← matching_below, Bool.not_eq_true]
  unfold deleteEntryRows Dropped
  split
  · rename_i isDir
    refine ⟨_, rfl, rfl, fun row => ?_⟩
    simp only [Sql.deleteArtifacts, Table.mem_delete, matched, decide_eq_false_iff_not, isDir]
    tauto
  · rename_i isFile
    refine ⟨_, rfl, rfl, fun row => ?_⟩
    simp only [Sql.deleteArtifacts, Table.mem_delete, decide_eq_false_iff_not]
    tauto

theorem replay_deletions (bundleId : Uuid) (entries : List BundleArtifact) (database : Database) :
    ∃ after, replay database (entries.flatMap (deleteEntryRows bundleId)) = .ok after ∧
      after.bundles = database.bundles ∧ ∀ row, row ∈ after.artifacts.rows ↔
        row ∈ database.artifacts.rows ∧ ∀ entry ∈ entries, ¬Dropped bundleId entry row := by
  induction entries generalizing database with
  | nil => exact ⟨database, rfl, rfl, by simp⟩
  | cons entry rest induction =>
      obtain ⟨middle, first, bundles, kept⟩ := replay_deleteEntryRows bundleId entry database
      obtain ⟨after, second, later, remaining⟩ := induction middle
      refine ⟨after, ?_, later.trans bundles, fun row => ?_⟩
      · rw [List.flatMap_cons, replay_append, first]
        exact second
      · rw [remaining, kept, List.forall_mem_cons, and_assoc]

/-! ## Relocations -/

def relocated (path : String) (row : BundleArtifact) : BundleArtifact :=
  { row with
    relativePath := path
    name := (splitRelativePath path).1
    category := (splitRelativePath path).2 }

def relocation (id : Uuid) (path : String) : Statement :=
  .updatePath id path (splitRelativePath path).1 (splitRelativePath path).2

theorem relocated_named {path : String} (normalized : Normalized path) (row : BundleArtifact) :
    (relocated path row).Named := ⟨normalized, rfl⟩

theorem relocation_rows {id : Uuid} {path : String} {database after : Database} {reply : Unit}
    (executed : (relocation id path).execute database = .ok (reply, after)) :
    after.bundles = database.bundles ∧ ∀ row, row ∈ after.artifacts.rows ↔
      ∃ old ∈ database.artifacts.rows,
        row = if old.id = id then relocated path old else old := by
  simp only [relocation, Statement.execute, Sql.updatePath] at executed
  split at executed
  · rename_i artifacts claimed
    cases executed
    refine ⟨rfl, fun row => ?_⟩
    rw [(Table.claim_rows claimed).1, List.mem_map]
    simp only [Table.revise, decide_eq_true_eq, relocated, @eq_comm _ row]
  · cases executed

theorem replay_relocations {moves : List (Uuid × String)} {database after : Database}
    (once : (moves.map Prod.fst).Nodup)
    (replayed : replay database (moves.map fun move => relocation move.1 move.2) = .ok after) :
    after.bundles = database.bundles ∧ ∀ row, row ∈ after.artifacts.rows ↔
      ∃ old ∈ database.artifacts.rows, (row = old ∧ old.id ∉ moves.map Prod.fst) ∨
        ∃ path, (old.id, path) ∈ moves ∧ row = relocated path old := by
  induction moves generalizing database with
  | nil =>
      cases replayed
      exact ⟨rfl, by simp⟩
  | cons move rest induction =>
      obtain ⟨id, path⟩ := move
      rw [List.map_cons, List.nodup_cons] at once
      rw [List.map_cons, replay] at replayed
      split at replayed
      · rename_i reply middle executed
        obtain ⟨bundles, first⟩ := relocation_rows executed
        obtain ⟨later, remaining⟩ := induction once.2 replayed
        refine ⟨later.trans bundles, fun row => ?_⟩
        rw [remaining]
        constructor
        · rintro ⟨seen, member, last⟩
          obtain ⟨old, there, rfl⟩ := (first seen).mp member
          refine ⟨old, there, ?_⟩
          by_cases chosen : old.id = id
          · subst chosen
            rw [if_pos rfl] at last
            rcases last with ⟨rfl, -⟩ | ⟨other, listed, -⟩
            · exact .inr ⟨path, by simp, rfl⟩
            · exact (once.1 (List.mem_map.mpr ⟨_, listed, rfl⟩)).elim
          · rw [if_neg chosen] at last
            rcases last with ⟨rfl, free⟩ | ⟨other, listed, rfl⟩
            · exact .inl ⟨rfl, by simpa [chosen] using free⟩
            · exact .inr ⟨other, List.mem_cons_of_mem _ listed, rfl⟩
        · rintro ⟨old, there, ⟨rfl, free⟩ | ⟨other, listed, rfl⟩⟩
          · rw [List.map_cons, List.mem_cons, not_or] at free
            exact ⟨row, (first row).mpr ⟨row, there, by rw [if_neg free.1]⟩, .inl ⟨rfl, free.2⟩⟩
          · rcases List.mem_cons.mp listed with same | later
            · cases same
              exact ⟨relocated path old, (first _).mpr ⟨old, there, by rw [if_pos rfl]⟩,
                .inl ⟨rfl, once.1⟩⟩
            · have apart : old.id ≠ id := by
                rintro rfl
                exact once.1 (List.mem_map.mpr ⟨_, later, rfl⟩)
              exact ⟨old, (first old).mpr ⟨old, there, by rw [if_neg apart]⟩,
                .inr ⟨other, later, rfl⟩⟩
      · cases replayed

/-! ## Moves -/

def rebased (oldRel newRel path : String) : String :=
  joinSegments (segments newRel ++ (segments path).drop (segments oldRel).length)

theorem segments_rebased (oldRel newRel path : String) :
    segments (rebased oldRel newRel path) =
      segments newRel ++ (segments path).drop (segments oldRel).length := by
  refine segments_joinSegments ?_ fun part member => ?_
  · intro empty
    exact segments_ne_nil newRel (List.append_eq_nil_iff.mp empty).1
  · rcases List.mem_append.mp member with first | later
    · exact not_mem_of_mem_segments first
    · exact not_mem_of_mem_segments (List.mem_of_mem_drop later)

theorem rebased_beneath (oldRel newRel suffix : String) :
    rebased oldRel newRel (beneath oldRel suffix) = beneath newRel suffix := by
  refine segments_injective ?_
  rw [segments_rebased, segments_beneath, segments_beneath, List.drop_left]

theorem Below.exists_beneath {path other : String} (below : Below path other) :
    ∃ suffix, other = beneath path suffix := by
  obtain ⟨suffix, whole⟩ := leads_iff.mpr below
  refine ⟨.ofList suffix, ?_⟩
  rw [← String.toList_inj, ← whole]
  simp [beneath]

theorem movedChild_below {oldRel newRel : String} {child : BundleArtifact}
    (below : Below oldRel child.relativePath) :
    movedChild oldRel newRel child =
      some (relocation child.id (rebased oldRel newRel child.relativePath)) := by
  obtain ⟨suffix, path⟩ := below.exists_beneath
  have stripped : withoutLeading (oldRel ++ "/") child.relativePath = some suffix := by
    have leads : child.relativePath.toList = (oldRel ++ "/").toList ++ suffix.toList := by
      simp [path, beneath]
    unfold withoutLeading stripLeading
    rw [leads, if_pos (List.isPrefixOf_iff_prefix.mpr (List.prefix_append _ _)),
      List.drop_left, Option.map_some, String.ofList_toList]
  unfold movedChild relocation
  rw [stripped, Option.map_some, path, rebased_beneath]

/-- Relocations of rows of one build are granted when no two of them go to one path, and
none to the path of a row. -/
theorem replay_relocations_granted {bundleId : Uuid} {moves : List (Uuid × String)}
    {database : Database} (apart : (moves.map Prod.snd).Nodup)
    (present : ∀ move ∈ moves, ∃ row ∈ database.artifacts.rows,
      row.id = move.1 ∧ row.bundleId = bundleId)
    (free : ∀ move ∈ moves, ∀ row ∈ database.artifacts.rows, row.bundleId = bundleId →
      row.relativePath ≠ move.2) :
    ∃ after, replay database (moves.map fun move => relocation move.1 move.2) = .ok after := by
  induction moves generalizing database with
  | nil => exact ⟨database, rfl⟩
  | cons move rest induction =>
      obtain ⟨id, path⟩ := move
      rw [List.map_cons, List.nodup_cons] at apart
      obtain ⟨row, member, here, build⟩ := present _ List.mem_cons_self
      have granted : ∃ artifacts, database.artifacts.claim (fun row => row.id = id)
          (relocated path) = some artifacts := by
        refine @Table.exists_claim_of_apart _ _ _ _ _ _ _ _ _ row ?_ ?_
        · intro other among chosen
          exact Table.eq_of_key_eq among member ((of_decide_eq_true chosen).trans here.symm)
        · intro other among _ slot claimed same
          obtain ⟨owner, taken⟩ := Prod.mk.inj (Option.some.inj (same.trans claimed.symm))
          exact free _ List.mem_cons_self other among (owner.trans build) taken
      obtain ⟨artifacts, claimed⟩ := granted
      have executed : (relocation id path).execute database =
          .ok ((), { database with artifacts }) := by
        unfold relocated at claimed
        simp only [relocation, Statement.execute, Sql.updatePath, claimed]
      obtain ⟨-, rows⟩ := relocation_rows executed
      have remaining : ∀ later ∈ rest, ∃ row ∈ artifacts.rows,
          row.id = later.1 ∧ row.bundleId = bundleId := by
        intro later listed
        obtain ⟨old, there, named, owned⟩ := present later (List.mem_cons_of_mem _ listed)
        refine ⟨_, (rows _).mpr ⟨old, there, rfl⟩, ?_⟩
        split
        · exact ⟨named, owned⟩
        · exact ⟨named, owned⟩
      have unused : ∀ later ∈ rest, ∀ row ∈ artifacts.rows, row.bundleId = bundleId →
          row.relativePath ≠ later.2 := by
        intro later listed other among owned
        obtain ⟨old, there, rfl⟩ := (rows other).mp among
        split
        · intro same
          exact apart.1 (List.mem_map.mpr ⟨later, listed, same.symm⟩)
        · rename_i elsewhere
          rw [if_neg elsewhere] at owned
          exact free later (List.mem_cons_of_mem _ listed) old there owned
      obtain ⟨after, replayed⟩ := @induction { database with artifacts } apart.2 remaining unused
      refine ⟨after, ?_⟩
      rw [List.map_cons, replay, executed]
      exact replayed

def movedRow (bundleId : Uuid) (oldRel newRel : String) (isDir : Bool) (row : BundleArtifact) :
    BundleArtifact :=
  if row.bundleId = bundleId ∧ row.relativePath = oldRel then relocated newRel row
  else if isDir = true ∧ row.bundleId = bundleId ∧ Below oldRel row.relativePath then
    relocated (rebased oldRel newRel row.relativePath) row
  else row

/-- In a folder's move its children follow, and the folder itself does not move twice. -/
theorem followed_eq_movedRow {bundleId : Uuid} {oldRel newRel : String}
    (apart : ¬segments oldRel <+: segments newRel) (old : BundleArtifact) :
    (let middle := if old.bundleId = bundleId ∧ old.relativePath = oldRel then relocated newRel old
        else old
      if middle.bundleId = bundleId ∧ Below oldRel middle.relativePath then
        relocated (rebased oldRel newRel middle.relativePath) middle else middle) =
      movedRow bundleId oldRel newRel true old := by
  unfold movedRow
  split
  · exact if_neg fun below => apart below.2.1
  · simp only [true_and]

section Moves

variable {service : Service} {log : List Statement} {seen : Database}

theorem insideAll_alone (replayed : replay service.database log = .ok seen)
    (statements : List Statement) :
    (insideAll log statements).Meets (.alone registry)
      (fun longer following => following = service ∧ ∃ after,
        replay service.database longer = .ok after ∧ replay seen statements = .ok after)
      (fun _ following => following = service) service := by
  induction statements generalizing log seen with
  | nil => exact ⟨rfl, seen, replayed, rfl⟩
  | cons statement rest induction =>
      unfold insideAll
      rw [Fallible.meets_bind, alone_inside replayed]
      cases executed : statement.execute seen with
      | error error => rfl
      | ok done =>
          have continued : replay service.database (log ++ [statement]) = .ok done.2 := by
            rw [replay_append, replayed]
            simp [Except.bind, replay, executed]
          refine (induction continued).mono ?_ fun _ _ same => same
          rintro longer following ⟨rfl, after, whole, later⟩
          refine ⟨rfl, after, whole, ?_⟩
          rw [replay, executed]
          exact later

theorem insideAll_granted {statements : List Statement} {after : Database}
    (replayed : replay service.database log = .ok seen)
    (granted : replay seen statements = .ok after) :
    (insideAll log statements).Meets (.alone registry)
      (fun longer following => following = service ∧ longer = log ++ statements)
      (fun _ _ => False) service := by
  induction statements generalizing log seen with
  | nil => exact ⟨rfl, (List.append_nil log).symm⟩
  | cons statement rest induction =>
      unfold insideAll
      rw [Fallible.meets_bind, alone_inside replayed]
      cases executed : statement.execute seen with
      | error error =>
          rw [replay, executed] at granted
          cases granted
      | ok done =>
          rw [replay, executed] at granted
          have continued : replay service.database (log ++ [statement]) = .ok done.2 := by
            rw [replay_append, replayed]
            simp [Except.bind, replay, executed]
          refine (induction continued granted).mono ?_ fun _ _ impossible => impossible
          rintro longer following ⟨rfl, rfl⟩
          exact ⟨rfl, List.append_assoc log [statement] rest⟩

theorem relocate_at {bundleId : Uuid} {oldRel newRel : String} {before after : Database}
    {row : BundleArtifact} (member : row ∈ before.artifacts.rows)
    (here : row.bundleId = bundleId ∧ row.relativePath = oldRel)
    (replayed : replay before [relocation row.id newRel] = .ok after) :
    after.bundles = before.bundles ∧ ∀ other, other ∈ after.artifacts.rows ↔
      ∃ old ∈ before.artifacts.rows,
        other = if old.bundleId = bundleId ∧ old.relativePath = oldRel then relocated newRel old
          else old := by
  obtain ⟨bundles, rows⟩ := @replay_relocations [(row.id, newRel)] before after (by simp) replayed
  refine ⟨bundles, fun other => ?_⟩
  rw [rows]
  refine exists_congr fun old => and_congr_right fun there => ?_
  have alone : old.id = row.id ↔ old.bundleId = bundleId ∧ old.relativePath = oldRel := by
    constructor
    · intro same
      exact Table.eq_of_key_eq there member same ▸ here
    · rintro ⟨build, path⟩
      have slot : artifactLayout.slot old = artifactLayout.slot row := by
        simp only [build, path, here.1, here.2]
      rw [Table.eq_of_slot_eq there member rfl slot.symm]
  by_cases same : old.id = row.id
  · simp [same, alone.mp same]
  · rw [if_neg (same ∘ alone.mpr)]
    simp [same]

def childMoves (bundleId : Uuid) (oldRel newRel : String) (database : Database) :
    List (Uuid × String) :=
  (database.artifacts.rows.filter (Sql.matching bundleId (startingWith (oldRel ++ "/")))).map
    fun child => (child.id, rebased oldRel newRel child.relativePath)

theorem children_relocations (bundleId : Uuid) (oldRel newRel : String) (database : Database) :
    (database.artifacts.rows.filter (Sql.matching bundleId
      (startingWith (oldRel ++ "/")))).filterMap (movedChild oldRel newRel) =
      (childMoves bundleId oldRel newRel database).map fun move => relocation move.1 move.2 := by
  unfold childMoves
  rw [List.map_map, ← List.filterMap_eq_map]
  refine List.filterMap_congr fun child member => ?_
  exact movedChild_below (matching_below.mp (List.mem_filter.mp member).2).2

theorem replay_children {bundleId : Uuid} {oldRel newRel : String} {before after : Database}
    (replayed : replay before ((before.artifacts.rows.filter (Sql.matching bundleId
      (startingWith (oldRel ++ "/")))).filterMap (movedChild oldRel newRel)) = .ok after) :
    after.bundles = before.bundles ∧ ∀ row, row ∈ after.artifacts.rows ↔
      ∃ old ∈ before.artifacts.rows,
        row = if old.bundleId = bundleId ∧ Below oldRel old.relativePath then
          relocated (rebased oldRel newRel old.relativePath) old else old := by
  rw [children_relocations] at replayed
  obtain ⟨bundles, rows⟩ := replay_relocations (by
    rw [childMoves, List.map_map]
    exact (List.filter_sublist.map _).nodup before.artifacts.keysUnique) replayed
  refine ⟨bundles, fun row => ?_⟩
  rw [rows]
  refine exists_congr fun old => and_congr_right fun there => ?_
  have chosen : ∀ path, (old.id, path) ∈ childMoves bundleId oldRel newRel before ↔
      (old.bundleId = bundleId ∧ Below oldRel old.relativePath) ∧
        path = rebased oldRel newRel old.relativePath := by
    intro path
    rw [childMoves, List.mem_map, ← matching_below]
    constructor
    · rintro ⟨child, member, same⟩
      obtain ⟨present, matched⟩ := List.mem_filter.mp member
      obtain ⟨id, rfl⟩ := Prod.mk.inj same
      obtain rfl := Table.eq_of_key_eq present there id
      exact ⟨matched, rfl⟩
    · rintro ⟨matched, rfl⟩
      exact ⟨old, List.mem_filter.mpr ⟨there, matched⟩, rfl⟩
  have listed : old.id ∈ (childMoves bundleId oldRel newRel before).map Prod.fst ↔
      old.bundleId = bundleId ∧ Below oldRel old.relativePath := by
    rw [List.mem_map]
    constructor
    · rintro ⟨⟨id, path⟩, member, rfl⟩
      exact ((chosen path).mp member).1
    · exact fun below => ⟨_, (chosen _).mpr ⟨below, rfl⟩, rfl⟩
  rw [listed]
  split
  · rename_i below
    simp only [below, not_true, and_false, false_or, chosen, true_and, exists_eq_left]
  · rename_i outside
    simp only [outside, not_false_iff, and_true, chosen, false_and, exists_false, or_false]

/-- What the rows of the build are after a move, before anything moves on disk. -/
structure RowsMoved (bundleId : Uuid) (oldRel newRel : String) (isDir : Bool)
    (before after : Database) : Prop where
  bundles : after.bundles = before.bundles
  moved : ∃ row ∈ before.artifacts.rows, row.bundleId = bundleId ∧ row.relativePath = oldRel
  rows : ∀ row, row ∈ after.artifacts.rows ↔
    ∃ old ∈ before.artifacts.rows, row = movedRow bundleId oldRel newRel isDir old

theorem moveRows_alone {bundleId : Uuid} {oldRel newRel : String} {isDir : Bool}
    (replayed : replay service.database log = .ok seen)
    (apart : isDir = true → ¬segments oldRel <+: segments newRel) :
    (moveRows log bundleId oldRel newRel isDir).Meets (.alone registry)
      (fun longer following => following = service ∧ ∃ after,
        replay service.database longer = .ok after ∧
          RowsMoved bundleId oldRel newRel isDir seen after)
      (fun _ following => following = service) service := by
  unfold moveRows
  rw [Fallible.meets_bind, alone_inside replayed]
  simp only [Statement.execute, Fallible.meets_bind, Fallible.meets_okOr]
  refine ⟨fun _ => trivial, fun id found => ?_⟩
  obtain ⟨row, selected, rfl⟩ := Option.map_eq_some_iff.mp found
  have member : row ∈ seen.artifacts.rows := List.mem_of_find?_eq_some selected
  have here := Sql.at_iff.mp (List.find?_some selected)
  refine (insideAll_alone replayed _).mono ?_ fun _ _ same => same
  rintro longer following ⟨rfl, middle, whole, first⟩
  obtain ⟨bundles, entry⟩ := relocate_at member here first
  split
  · rename_i dir
    rw [Fallible.meets_bind, alone_inside whole]
    refine (insideAll_alone whole _).mono ?_ fun _ _ same => same
    rintro longer following ⟨rfl, after, whole, later⟩
    obtain ⟨kept, children⟩ := replay_children later
    refine ⟨rfl, after, whole, kept.trans bundles, ⟨row, member, here⟩, fun other => ?_⟩
    rw [children]
    simp only [entry]
    constructor
    · rintro ⟨middle, ⟨old, there, rfl⟩, rfl⟩
      exact ⟨old, there, dir ▸ followed_eq_movedRow (apart dir) old⟩
    · rintro ⟨old, there, rfl⟩
      exact ⟨_, ⟨old, there, rfl⟩, dir ▸ (followed_eq_movedRow (apart dir) old).symm⟩
  · rename_i file
    refine ⟨rfl, middle, whole, bundles, ⟨row, member, here⟩, fun other => ?_⟩
    rw [entry]
    refine exists_congr fun old => and_congr_right fun there => ?_
    unfold movedRow
    rw [if_neg (fun impossible : isDir = true ∧ _ => file impossible.1)]

end Moves

end Loontail.Bundles
