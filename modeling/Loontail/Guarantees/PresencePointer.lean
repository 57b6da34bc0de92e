import Loontail.Guarantees.PlayerAccounting
import Loontail.Network.WorldProtocol
import Loontail.Network.PresenceRevision

/-! # The world a presence row names

A status that names a world is checked in one statement and written in another, a
PATCH cleans up after a world only when it has read it open, and a cleanup that finds
no presence row of the host does not see one that is inserted before its commit. -/

namespace Loontail

open Concurrency Relational Network

/-- Every presence row that names a world names an open world of its own user. -/
def Database.PresencePoints (database : Database) : Prop :=
  ∀ presence ∈ database.presence.rows, ∀ id ∈ presence.currentWorldSessionId,
    Sql.ownsOpenWorld id presence.userId database = true

def Database.Unnamed (id : Uuid) (database : Database) : Prop :=
  ∀ presence ∈ database.presence.rows, presence.currentWorldSessionId ≠ some id

instance (id : Uuid) (database : Database) : Decidable (database.Unnamed id) := by
  unfold Database.Unnamed
  infer_instance

/-- The statement names only an open world of the user, and closes a world without
taking its host out of it only while no row names it. -/
def Statement.keepsPointers (database : Database) : Statement → Prop
  | .presence (.setStatus userId _ (some worldId)) =>
      Sql.ownsOpenWorld worldId userId database = true
  | .world (.update id _ .closed _) => database.Unnamed id
  | .world (.commitUpdate closing id ..) => closing.present = false → database.Unnamed id
  | .world (.commitClose closing id _ true) =>
      closing.present = false → database.Unnamed id
  | _ => True

instance (database : Database) (statement : Statement) :
    Decidable (statement.keepsPointers database) := by
  unfold Statement.keepsPointers
  split <;> infer_instance

def KeepsPointers (event : Event network) : Prop :=
  match event.operation, event.result with
  | .statement statement, .ok _ => statement.keepsPointers event.before.database
  | _, _ => True

instance : (event : Event network) → Decidable (KeepsPointers event)
  | ⟨_, _, operation, result, _⟩ => by
      cases operation with
      | statement => cases result <;> dsimp only [KeepsPointers] <;> infer_instance
      | _ => exact isTrue trivial

theorem Sql.ownsOpenWorld_iff {worldId userId : Uuid} {database : Database} :
    Sql.ownsOpenWorld worldId userId database = true ↔
      ∃ world, database.worldSessions.find worldId = some world ∧
        world.hostUserId = userId ∧ world.status = .open := by
  simp only [Sql.ownsOpenWorld, List.any_eq_true, Bool.and_eq_true, decide_eq_true_eq]
  constructor
  · rintro ⟨world, member, ⟨rfl, host⟩, isOpen⟩
    exact ⟨world, Table.find_eq_some.mpr ⟨member, rfl⟩, host, isOpen⟩
  · rintro ⟨world, found, host, isOpen⟩
    obtain ⟨member, key⟩ := Table.find_eq_some.mp found
    exact ⟨world, member, ⟨key, host⟩, isOpen⟩

/-! ## What a statement does to a pointer -/

namespace Statement

def pointsTo (userId worldId : Uuid) : Statement → Prop
  | .presence (.setStatus user _ named) => user = userId ∧ named = some worldId
  | _ => False

def leaves (userId : Uuid) : Statement → Prop
  | .world (.commitUpdate closing _ _ _ hostId) => hostId = userId ∧ closing.present = true
  | .world (.commitClose closing _ hostId _) => hostId = userId ∧ closing.present = true
  | _ => False

def shuts (worldId : Uuid) : Statement → Prop
  | .world (.update id _ status _) => id = worldId ∧ status = .closed
  | .world (.commitUpdate _ id ..) => id = worldId
  | .world (.commitClose _ id _ shut) => id = worldId ∧ shut = true
  | _ => False

theorem revisePresence.refreshed_pointer (now : Timestamp) (presence : Presence)
    (userId : Uuid) :
    (refreshed now presence userId).currentWorldSessionId = presence.currentWorldSessionId := by
  unfold refreshed
  split <;> rfl

theorem revisePresence.left_pointer {closing : Closing} {row : Presence} {hostId id : Uuid}
    (names : (left closing row hostId).currentWorldSessionId = some id) :
    row.currentWorldSessionId = some id ∧ ¬(row.userId = hostId ∧ closing.present = true) := by
  unfold left at names
  split at names
  · cases names
  · rename_i other
    exact ⟨names, other⟩

/-- A row that names a world names it as before, and is not left behind by its
closing, or has just been set. -/
theorem pointer_of_revised {now : Timestamp} {row : Presence} {statement : Statement}
    {id : Uuid}
    (names : (statement.revisePresence now row).currentWorldSessionId = some id) :
    statement.pointsTo row.userId id ∨
      row.currentWorldSessionId = some id ∧ ¬statement.leaves row.userId := by
  unfold revisePresence at names
  split at names
  · rw [revisePresence.refreshed_pointer] at names
    exact .inr ⟨names, by simp [leaves]⟩
  · rw [revisePresence.refreshed_pointer] at names
    exact .inr ⟨names, by simp [leaves]⟩
  · split at names
    · cases names
    · exact .inr ⟨names, by simp [leaves]⟩
  · split at names
    · rename_i own
      exact .inl ⟨own.symm, names⟩
    · exact .inr ⟨names, by simp [leaves]⟩
  · split at names
    · exact .inr ⟨names, by simp [leaves]⟩
    · exact .inr ⟨names, by simp [leaves]⟩
  · have stays := revisePresence.left_pointer names
    exact .inr ⟨stays.1, fun left => stays.2 ⟨left.1.symm, left.2⟩⟩
  · have stays := revisePresence.left_pointer names
    exact .inr ⟨stays.1, fun left => stays.2 ⟨left.1.symm, left.2⟩⟩
  · rename_i notUpdate notClose
    refine .inr ⟨names, ?_⟩
    unfold leaves
    split
    · exact fun _ => notUpdate _ _ _ _ _ rfl
    · exact fun _ => notClose _ _ _ _ rfl
    · exact not_false

theorem pointer_of_inserted {row : Presence} {statement : Statement} {id : Uuid}
    (inserted : statement.insertsPresence row)
    (names : row.currentWorldSessionId = some id) : statement.pointsTo row.userId id := by
  unfold insertsPresence at inserted
  split at inserted
  · exact nomatch names.symm.trans inserted.2.2
  · exact nomatch names.symm.trans inserted.2.2
  · exact nomatch names.symm.trans inserted.2.2
  · exact ⟨inserted.1.symm, inserted.2.2.symm.trans names⟩
  · exact inserted.elim

theorem open_of_revised {now : Timestamp} {world : WorldSession} {statement : Statement}
    (isOpen : world.status = .open) (stays : ¬statement.shuts world.id) :
    (statement.reviseWorld now world).status = .open := by
  unfold reviseWorld
  split
  · split <;> exact isOpen
  · split
    · rename_i id maxPlayers status invitePolicy here
      cases status with
      | «open» => rfl
      | closed => exact (stays ⟨here.symm, rfl⟩).elim
    · exact isOpen
  · split
    · rename_i here
      exact (stays here.symm).elim
    · exact isOpen
  · rename_i closing id hostId shut
    split
    · rename_i here
      cases shut with
      | true => exact (stays ⟨here.symm, rfl⟩).elim
      | false => exact isOpen
    · exact isOpen
  all_goals first
    | exact isOpen
    | (split <;> exact isOpen)

end Statement

def Statement.names (worldId hostId : Uuid) : Statement → Prop
  | .world (.commitUpdate _ id _ _ host) => id = worldId ∧ host = hostId
  | .world (.commitClose _ id host _) => id = worldId ∧ host = hostId
  | _ => False

theorem Statement.leaves_of_shuts {database : Database} {statement : Statement} {id : Uuid}
    {row : Presence} (keeps : statement.keepsPointers database)
    (member : row ∈ database.presence.rows) (pointer : row.currentWorldSessionId = some id)
    (shuts : statement.shuts id) :
    ∃ hostId, statement.names id hostId ∧ statement.leaves hostId := by
  unfold Statement.shuts at shuts
  split at shuts
  · rcases shuts with ⟨rfl, rfl⟩
    exact (keeps row member pointer).elim
  · rename_i closing closed maxPlayers invitePolicy hostId
    subst shuts
    cases present : closing.present with
    | true => exact ⟨hostId, ⟨rfl, rfl⟩, rfl, present⟩
    | false => exact (keeps present row member pointer).elim
  · rename_i closing closed hostId shut
    rcases shuts with ⟨rfl, rfl⟩
    cases present : closing.present with
    | true => exact ⟨hostId, ⟨rfl, rfl⟩, rfl, present⟩
    | false => exact (keeps present row member pointer).elim
  · exact shuts.elim

theorem Statement.points_own {database : Database} {statement : Statement}
    {userId worldId : Uuid} (keeps : statement.keepsPointers database)
    (points : statement.pointsTo userId worldId) :
    Sql.ownsOpenWorld worldId userId database = true := by
  unfold pointsTo at points
  split at points
  · obtain ⟨rfl, rfl⟩ := points
    exact keeps
  · exact points.elim

/-! ## Every run -/

/-- One statement that keeps pointers leaves every row naming an open world of
its own user, when worlds are closed under the name of their host. -/
theorem presencePoints_after {before after : Service} {statement : Statement}
    {reply : statement.Reply} (points : before.database.PresencePoints)
    (occurs : network.Occurs before (.statement statement) (.ok reply) after)
    (keeps : statement.keepsPointers before.database)
    (hosts : ∀ id hostId, statement.names id hostId → ∃ world,
      before.database.worldSessions.find id = some world ∧ world.hostUserId = hostId) :
    after.database.PresencePoints := by
  have owned : ∀ userId id, Sql.ownsOpenWorld id userId before.database = true →
      ¬statement.shuts id → Sql.ownsOpenWorld id userId after.database = true := by
    intro userId id owns stays
    obtain ⟨world, found, host, isOpen⟩ := Sql.ownsOpenWorld_iff.mp owns
    have here : world.id = id := (Table.find_eq_some.mp found).2
    refine Sql.ownsOpenWorld_iff.mpr ⟨_, occurs_world_found occurs found, ?_, ?_⟩
    · rw [Operation.reviseWorld_hostUserId]
      exact host
    · exact Statement.open_of_revised isOpen (here.symm ▸ stays)
  have set : ∀ userId id, statement.pointsTo userId id → ¬statement.shuts id := by
    intro userId id set
    unfold Statement.pointsTo at set
    split at set
    · exact not_false
    · exact set.elim
  intro presence member id names
  rcases occurs_presence occurs presence member with ⟨row, was, rfl⟩ | ⟨-, inserted⟩
  · have user : (statement.revisePresence before.clock row).userId = row.userId :=
      Statement.revisePresence_userId _ _ _
    change Sql.ownsOpenWorld id (statement.revisePresence before.clock row).userId _ = true
    rw [user]
    rcases Statement.pointer_of_revised names with pointed | ⟨pointer, stays⟩
    · exact owned _ _ (Statement.points_own keeps pointed) (set _ _ pointed)
    · have owns := points row was id pointer
      refine owned _ _ owns fun shuts => ?_
      obtain ⟨hostId, named, leaves⟩ := Statement.leaves_of_shuts keeps was pointer shuts
      obtain ⟨world, found, rfl⟩ := hosts id hostId named
      obtain ⟨other, again, host, -⟩ := Sql.ownsOpenWorld_iff.mp owns
      cases found.symm.trans again
      exact stays (host ▸ leaves)
  · have pointed := Statement.pointer_of_inserted inserted names
    exact owned _ _ (Statement.points_own keeps pointed) (set _ _ pointed)

theorem HostPhase.knowing_of_names {phase : HostPhase} {statement : Statement}
    {id hostId : Uuid} (allowed : phase.allows (.statement statement))
    (named : statement.names id hostId) : phase = .knowing id hostId := by
  unfold Statement.names at named
  split at named
  · obtain ⟨rfl, rfl⟩ := named
    exact allowed
  · obtain ⟨rfl, rfl⟩ := named
    exact allowed
  · exact named.elim

/-- While statements keep pointers, every presence row that names a world names
an open world of its own user. -/
theorem presence_points_to_own_open_world (state : AppState) (database : Database)
    (clock : Timestamp) (points : database.PresencePoints) {moves : List (Move Request)}
    {final : Pool network Request (Except AppError Reply)}
    (reached : run (Pool.move (handle state)) (.initial (.boot database clock)) moves =
      some final) (keeps : ∀ event ∈ final.history, KeepsPointers event) :
    final.shared.database.PresencePoints := by
  have traced := Pool.traced_of_run reached
  refine @Traced.invariant network _ _ _ (fun _ service => service.database.PresencePoints)
    traced points ?_
  intro event older suffix happened points
  obtain ⟨request, -, allowed⟩ := Pool.allowed_in_phase (handle_names state) reached suffix
  have kept := keeps event (suffix.subset (by simp))
  have earlier := (traced.of_suffix suffix).1
  rcases event with ⟨process, before, operation, result, after⟩
  have occurs : network.Occurs before operation result after := happened
  cases operation with
  | statement statement =>
      cases result with
      | error failure =>
          rcases occurs_statement occurs with ⟨-, -, rfl⟩ | ⟨_, _, fails, -⟩
          · exact points
          · cases fails
      | ok reply =>
          refine presencePoints_after points occurs kept fun id hostId named => ?_
          exact host_of_trace earlier process id hostId
            (HostPhase.knowing_of_names allowed named)
  | _ =>
      rw [show after.database = before.database from occurs_database (by simp) occurs]
      exact points

def announcedWorld : List (Move Request) :=
  [.start (.setStatus 5 ⟨"joinable", some 3⟩), .advance 0, .advance 0, .advance 0,
   .start (.heartbeat 5), .advance 1]

theorem hostedDatabase_presencePoints : hostedDatabase.PresencePoints := by
  intro presence member
  cases member

theorem presence_points_announced :
    ∃ final, run (Pool.move (handle plainState)) (.initial (.boot hostedDatabase 0))
        announcedWorld = some final ∧
      (final.shared.database.presence.find 5).bind (·.currentWorldSessionId) = some 3 ∧
      final.shared.database.PresencePoints := by
  have announced : ((run (Pool.move (handle plainState)) (.initial (.boot hostedDatabase 0))
      announcedWorld).map fun final => decide (
        (final.shared.database.presence.find 5).bind (·.currentWorldSessionId) = some 3 ∧
        ∀ event ∈ final.history, KeepsPointers event)) = some true := by decide +kernel
  rcases Option.map_eq_some_iff.mp announced with ⟨final, reached, holds⟩
  rcases of_decide_eq_true holds with ⟨named, keeps⟩
  exact ⟨final, reached, named, presence_points_to_own_open_world plainState hostedDatabase 0
    hostedDatabase_presencePoints reached keeps⟩

/-- The world is closed between the check of the status and its write. -/
def closedBeforeStatus : List (Move Request) :=
  [.start (.setStatus 5 ⟨"joinable", some 3⟩), .advance 0,
   .start (.closeWorld 5 3), .advance 1, .advance 1, .advance 1, .advance 1, .advance 1,
   .advance 1, .advance 0]

/-- A presence row can name a closed world. -/
theorem presence_points_to_closed_world :
    ¬∀ (state : AppState) (database : Database) (clock : Timestamp), database.PresencePoints →
      ∀ (moves : List (Move Request)) (final : Pool network Request (Except AppError Reply)),
        run (Pool.move (handle state)) (.initial (.boot database clock)) moves = some final →
          final.shared.database.PresencePoints := by
  intro points
  have stale : ((run (Pool.move (handle plainState)) (.initial (.boot hostedDatabase 0))
      closedBeforeStatus).map fun final => decide (
        ∃ presence ∈ final.shared.database.presence.rows,
          presence.currentWorldSessionId = some 3 ∧
          Sql.ownsOpenWorld 3 presence.userId final.shared.database = false)) = some true := by
    decide +kernel
  rcases Option.map_eq_some_iff.mp stale with ⟨final, reached, holds⟩
  rcases of_decide_eq_true holds with ⟨presence, member, named, closed⟩
  have owns := points plainState hostedDatabase 0 hostedDatabase_presencePoints
    closedBeforeStatus final reached presence member 3 named
  rw [closed] at owns
  cases owns

/-- A host without a presence row: the first one is inserted after the cleanup has
looked for it, while the world is still open for everyone else. -/
def insertedBeforeCommit : List (Move Request) :=
  [.start (.setStatus 5 ⟨"joinable", some 3⟩), .advance 0,
   .start (.closeWorld 5 3), .advance 1, .advance 1, .advance 1, .advance 1, .advance 1,
   .advance 0, .advance 1]

example : ((run (Pool.move (handle plainState)) (.initial (.boot hostedDatabase 0))
    insertedBeforeCommit).map fun final => decide (
      (final.shared.database.presence.find 5).bind (·.currentWorldSessionId) = some 3 ∧
      Sql.ownsOpenWorld 3 5 final.shared.database = false)) = some true := by
  decide +kernel

end Loontail
