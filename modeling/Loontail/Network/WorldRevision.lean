import Loontail.Network.Evolution

/-! # What a statement makes of a world

For a given row, each statement that writes hosted worlds is one function. -/

namespace Loontail

open Concurrency Relational

namespace Statement

def reviseWorld (now : Timestamp) (world : WorldSession) : Statement → WorldSession
  | .world (.upsert hostUserId maxPlayers _) =>
      if world.status = .open ∧ world.hostUserId = hostUserId then
        { world with maxPlayers, currentPlayers := 0 }
      else world
  | .world (.update id maxPlayers status invitePolicy) =>
      if world.id = id then
        { world with
          maxPlayers, status, invitePolicy
          closedAt := if status = .closed then some now else none }
      else world
  | .world (.commitUpdate closing id maxPlayers invitePolicy _) =>
      if world.id = id then
        { world with
          maxPlayers, status := .closed, invitePolicy
          currentPlayers := 0
          closedAt := some closing.transaction.startedAt }
      else world
  | .world (.commitClose closing id _ shut) =>
      if world.id = id then
        { world with
          status := if shut then .closed else world.status
          currentPlayers := 0
          closedAt := if shut then some closing.transaction.startedAt else world.closedAt }
      else world
  | .relay (.admitPlayer worldId) =>
      if world.id = worldId ∧ world.status = .open ∧ world.currentPlayers < world.maxPlayers
      then { world with currentPlayers := world.currentPlayers + 1 }
      else world
  | .relay (.releasePlayer worldId) =>
      if world.id = worldId then
        { world with currentPlayers := max (world.currentPlayers - 1) 0 }
      else world
  | .maintenance .resetPlayers =>
      if world.status = .open then { world with currentPlayers := 0 } else world
  | _ => world

@[simp] theorem reviseWorld_id (now : Timestamp) (world : WorldSession)
    (statement : Statement) : (statement.reviseWorld now world).id = world.id := by
  unfold reviseWorld
  split <;> try split
  all_goals rfl

@[simp] theorem reviseWorld_hostUserId (now : Timestamp) (world : WorldSession)
    (statement : Statement) :
    (statement.reviseWorld now world).hostUserId = world.hostUserId := by
  unfold reviseWorld
  split <;> try split
  all_goals rfl

end Statement

structure WorldSession.Created (world : WorldSession) : Prop where
  status : world.status = .open
  currentPlayers : world.currentPlayers = 0

namespace Sql

variable {now : Timestamp} {database after : Database}

theorem upsertWorld_revised {hostUserId newId : Uuid} {maxPlayers : Int}
    {world : WorldSession}
    (executed : upsertWorld now hostUserId maxPlayers newId database = .ok (world, after)) :
    Table.Revised (fun world =>
        Statement.reviseWorld now world (.world (.upsert hostUserId maxPlayers newId)))
      WorldSession.Created database.worldSessions after.worldSessions := by
  unfold upsertWorld at executed
  split at executed
  · rename_i existing found
    cases executed
    have chosen := List.find?_some found
    simp only [Bool.and_eq_true, decide_eq_true_eq] at chosen
    have present := List.mem_of_find?_eq_some found
    refine .of_revised rfl fun world member => ?_
    simp only [Table.revise, Statement.reviseWorld, decide_eq_true_eq]
    -- the one open world of the host is the row that was found
    have only : world.id = existing.id ↔
        world.status = .open ∧ world.hostUserId = hostUserId := by
      constructor
      · intro same
        rw [Table.eq_of_key_eq member present same]
        exact chosen
      · rintro ⟨isOpen, rfl⟩
        have slot : worldSessionLayout.slot existing = some world.hostUserId := by
          simp [chosen.1, chosen.2]
        rw [Table.eq_of_slot_eq member present (if_pos isOpen) slot]
    simp only [only]
  · rename_i absent
    dsimp only at executed
    split at executed
    · rename_i inserted
      cases executed
      refine .insert (fun world member => ?_) ⟨rfl, rfl⟩ inserted
      have other := List.find?_eq_none.mp absent world member
      simp only [Bool.and_eq_true, decide_eq_true_eq] at other
      exact if_neg other
    · cases executed

theorem closeWorldCleanup_worlds {closing : Closing} {worldId hostId : Uuid}
    {world : WorldSession}
    (executed : closeWorldCleanup closing worldId hostId database = .ok (world, after)) :
    after.worldSessions.rows = database.worldSessions.rows.map
      (Table.revise (fun world => world.id = worldId)
        (fun world => { world with currentPlayers := 0 })) := by
  unfold closeWorldCleanup at executed
  dsimp only at executed
  split at executed
  · cases executed
    rfl
  · cases executed

theorem updateWorld_revised {id : Uuid} {maxPlayers : Int} {status : WorldStatus}
    {invitePolicy : InvitePolicy} {world : WorldSession}
    (executed : updateWorld now id maxPlayers status invitePolicy database =
      .ok (world, after)) :
    Table.Revised (fun world => Statement.reviseWorld now world
        (.world (.update id maxPlayers status invitePolicy)))
      WorldSession.Created database.worldSessions after.worldSessions := by
  unfold updateWorld at executed
  split at executed
  · cases executed
  · rename_i worldSessions claimed
    have claimedRows := (Table.claim_rows claimed).1
    split at executed
    · cases executed
    · cases executed
      apply Table.Revised.of_revised claimedRows
      intro world _
      simp only [Table.revise, Statement.reviseWorld, decide_eq_true_eq]

theorem updateWorld_found {id : Uuid} {maxPlayers : Int} {status : WorldStatus}
    {invitePolicy : InvitePolicy} {world : WorldSession}
    (executed : updateWorld now id maxPlayers status invitePolicy database =
      .ok (world, after)) : ∃ row, database.worldSessions.find id = some row := by
  unfold updateWorld at executed
  split at executed
  · cases executed
  · rename_i worldSessions claimed
    split at executed
    · cases executed
    · rename_i updated found
      rw [Table.find_claim claimed] at found
      obtain ⟨row, present, -⟩ := Option.map_eq_some_iff.mp found
      exact ⟨row, present⟩

theorem commitUpdate_found {closing : Closing} {id hostId : Uuid} {maxPlayers : Int}
    {invitePolicy : InvitePolicy} {world : WorldSession}
    (executed : commitUpdate closing id maxPlayers invitePolicy hostId database =
      .ok (world, after)) : ∃ row, database.worldSessions.find id = some row := by
  unfold commitUpdate closeWorldCleanup at executed
  dsimp only at executed
  split at executed
  · rename_i updated found
    rw [Table.find_update, Table.find_update, Option.map_map] at found
    obtain ⟨row, present, -⟩ := Option.map_eq_some_iff.mp found
    exact ⟨row, present⟩
  · cases executed

/-- A closing transaction writes its world twice, before the cleanup and at its end. -/
theorem closed_revised {closing : Closing} {id hostId : Uuid} {statement : Statement}
    {selected : WorldSession → Bool} {set : WorldSession → WorldSession}
    {worldSessions : Table worldSessionLayout} {world : WorldSession}
    (written : worldSessions.rows =
      database.worldSessions.rows.map (Table.revise selected set))
    (executed : closeWorldCleanup closing id hostId { database with worldSessions } =
      .ok (world, after))
    (revises : ∀ world, Table.revise (fun world => world.id = id)
        (fun world => { world with currentPlayers := 0 }) (Table.revise selected set world) =
      statement.reviseWorld now world) :
    Table.Revised (fun world => statement.reviseWorld now world) WorldSession.Created
      database.worldSessions after.worldSessions := by
  intro world member
  rw [closeWorldCleanup_worlds executed, written, List.map_map] at member
  rcases List.mem_map.mp member with ⟨earlier, present, rfl⟩
  exact .inl ⟨earlier, present, revises earlier⟩

theorem commitUpdate_revised {closing : Closing} {id hostId : Uuid} {maxPlayers : Int}
    {invitePolicy : InvitePolicy} {world : WorldSession}
    (executed : commitUpdate closing id maxPlayers invitePolicy hostId database =
      .ok (world, after)) :
    Table.Revised (fun world => Statement.reviseWorld now world
        (.world (.commitUpdate closing id maxPlayers invitePolicy hostId)))
      WorldSession.Created database.worldSessions after.worldSessions := by
  apply closed_revised rfl executed
  intro world
  by_cases here : world.id = id <;> simp [Table.revise, Statement.reviseWorld, here]

theorem commitClose_revised {closing : Closing} {id hostId : Uuid} {shut : Bool}
    {world : WorldSession}
    (executed : commitClose closing id hostId shut database = .ok (world, after)) :
    Table.Revised (fun world => Statement.reviseWorld now world
        (.world (.commitClose closing id hostId shut)))
      WorldSession.Created database.worldSessions after.worldSessions := by
  apply closed_revised rfl executed
  intro world
  by_cases here : world.id = id <;> cases shut <;>
    simp [Table.revise, Statement.reviseWorld, here]

end Sql

section Statements

variable {now : Timestamp} {database after : Database}

/-- A statement that succeeds revises every world as `reviseWorld` says. -/
theorem Statement.execute_worlds {statement : Statement} {reply : statement.Reply}
    (executed : statement.execute now database = .ok (reply, after)) :
    Table.Revised (fun world => statement.reviseWorld now world) WorldSession.Created
      database.worldSessions after.worldSessions := by
  cases statement with
  | world statement =>
      cases statement with
      | upsert => exact Sql.upsertWorld_revised executed
      | update => exact Sql.updateWorld_revised executed
      | commitUpdate => exact Sql.commitUpdate_revised executed
      | commitClose => exact Sql.commitClose_revised executed
      | _ =>
          cases executed
          exact .of_same (fun _ => rfl) rfl
  | relay statement =>
      cases statement with
      | admitPlayer worldId =>
          cases executed
          refine .of_revised rfl fun world _ => ?_
          simp only [Table.revise, Statement.reviseWorld, Bool.and_eq_true,
            decide_eq_true_eq, and_assoc]
      | releasePlayer worldId =>
          cases executed
          refine .of_revised rfl fun world _ => ?_
          simp only [Table.revise, Statement.reviseWorld, decide_eq_true_eq]
      | _ =>
          cases executed
          exact .of_same (fun _ => rfl) rfl
  | friend =>
      rcases FriendStatement.execute_frame executed with ⟨_, _, rfl⟩
      exact .of_same (fun _ => rfl) rfl
  | presence =>
      rcases PresenceStatement.execute_frame executed with ⟨_, _, rfl⟩
      exact .of_same (fun _ => rfl) rfl
  | join =>
      rcases JoinStatement.execute_frame executed with ⟨_, _, _, rfl⟩
      exact .of_same (fun _ => rfl) rfl
  | invite =>
      rcases InviteStatement.execute_frame executed with ⟨_, _, _, rfl⟩
      exact .of_same (fun _ => rfl) rfl
  | maintenance statement =>
      cases statement with
      | resetPlayers =>
          cases executed
          refine .of_revised rfl fun world _ => ?_
          simp only [Table.revise, Statement.reviseWorld, decide_eq_true_eq]
      | _ =>
          cases executed
          exact .of_same (fun _ => rfl) rfl

theorem revised_keeps {world : WorldSession} {selected : WorldSession → Bool}
    {set : WorldSession → WorldSession} {rows : List WorldSession}
    (keeps : ∀ row, (set row).id = row.id) (present : world ∈ rows) :
    ∃ later ∈ rows.map (Table.revise selected set), later.id = world.id := by
  refine ⟨_, List.mem_map_of_mem present, ?_⟩
  unfold Table.revise
  split
  · exact keeps world
  · rfl

theorem closeWorldCleanup_keeps {closing : Closing} {id hostId : Uuid} {row world : WorldSession}
    {worldSessions : Table worldSessionLayout}
    (executed : Sql.closeWorldCleanup closing id hostId { database with worldSessions } =
      .ok (row, after))
    (kept : ∃ middle ∈ worldSessions.rows, middle.id = world.id) :
    ∃ later ∈ after.worldSessions.rows, later.id = world.id := by
  obtain ⟨middle, present, same⟩ := kept
  rw [Sql.closeWorldCleanup_worlds executed, ← same]
  exact revised_keeps (fun _ => rfl) present

theorem WorldStatement.execute_keeps_worlds {statement : WorldStatement}
    {reply : statement.Reply} (executed : statement.execute now database = .ok (reply, after))
    {world : WorldSession} (member : world ∈ database.worldSessions.rows) :
    ∃ later ∈ after.worldSessions.rows, later.id = world.id := by
  cases statement with
  | upsert hostUserId maxPlayers newId =>
      simp only [WorldStatement.execute, Sql.upsertWorld] at executed
      split at executed
      · cases executed
        exact revised_keeps (fun _ => rfl) member
      · split at executed
        · rename_i inserted
          cases executed
          exact ⟨world, (Table.mem_insert inserted).mpr (.inr member), rfl⟩
        · cases executed
  | update id maxPlayers status invitePolicy =>
      simp only [WorldStatement.execute, Sql.updateWorld] at executed
      split at executed
      · cases executed
      · rename_i worldSessions claimed
        split at executed
        · cases executed
        · cases executed
          rw [(Table.claim_rows claimed).1]
          exact revised_keeps (fun _ => rfl) member
  -- a closing transaction revises the rows twice
  | commitUpdate closing id maxPlayers invitePolicy hostId =>
      apply closeWorldCleanup_keeps executed
      exact revised_keeps (fun _ => rfl) member
  | commitClose closing id hostId shut =>
      apply closeWorldCleanup_keeps executed
      exact revised_keeps (fun _ => rfl) member
  | _ =>
      cases executed
      exact ⟨world, member, rfl⟩

theorem Statement.execute_keeps_worlds {statement : Statement} {reply : statement.Reply}
    (executed : statement.execute now database = .ok (reply, after)) {world : WorldSession}
    (member : world ∈ database.worldSessions.rows) :
    ∃ later ∈ after.worldSessions.rows, later.id = world.id := by
  cases statement with
  | world statement => exact WorldStatement.execute_keeps_worlds executed member
  | relay statement =>
      cases statement with
      | admitPlayer worldId =>
          cases executed
          exact revised_keeps (fun _ => rfl) member
      | releasePlayer worldId =>
          cases executed
          exact revised_keeps (fun _ => rfl) member
      | _ =>
          cases executed
          exact ⟨world, member, rfl⟩
  | friend =>
      rcases FriendStatement.execute_frame executed with ⟨_, _, rfl⟩
      exact ⟨world, member, rfl⟩
  | presence =>
      rcases PresenceStatement.execute_frame executed with ⟨_, _, rfl⟩
      exact ⟨world, member, rfl⟩
  | join =>
      rcases JoinStatement.execute_frame executed with ⟨_, _, _, rfl⟩
      exact ⟨world, member, rfl⟩
  | invite =>
      rcases InviteStatement.execute_frame executed with ⟨_, _, _, rfl⟩
      exact ⟨world, member, rfl⟩
  | maintenance statement =>
      cases statement with
      | resetPlayers =>
          cases executed
          exact revised_keeps (fun _ => rfl) member
      | _ =>
          cases executed
          exact ⟨world, member, rfl⟩

end Statements

def Operation.reviseWorld (now : Timestamp) (world : WorldSession) :
    (operation : Operation) → operation.Result → WorldSession
  | .statement query, .ok _ => query.reviseWorld now world
  | _, _ => world

@[simp] theorem Operation.reviseWorld_id (now : Timestamp) (world : WorldSession)
    (operation : Operation) (result : operation.Result) :
    (operation.reviseWorld now world result).id = world.id := by
  unfold Operation.reviseWorld
  split
  · exact Statement.reviseWorld_id now world _
  · rfl

@[simp] theorem Operation.reviseWorld_hostUserId (now : Timestamp) (world : WorldSession)
    (operation : Operation) (result : operation.Result) :
    (operation.reviseWorld now world result).hostUserId = world.hostUserId := by
  unfold Operation.reviseWorld
  split
  · exact Statement.reviseWorld_hostUserId now world _
  · rfl

theorem occurs_worlds {before after : Service} {operation : Operation}
    {result : operation.Result}
    (occurs : network.Occurs before operation result after) :
    Table.Revised (fun world => operation.reviseWorld before.clock world result)
      WorldSession.Created before.database.worldSessions after.database.worldSessions := by
  cases operation with
  | statement statement =>
      rcases occurs_statement occurs with
        ⟨error, rfl, rfl⟩ | ⟨reply, database, rfl, executed, rfl⟩
      · exact .of_same (fun _ => rfl) rfl
      · exact Statement.execute_worlds executed
  | _ =>
      exact .of_same (fun _ => rfl)
        (congrArg Database.worldSessions (occurs_database (by simp) occurs))

theorem occurs_world_found {before after : Service} {operation : Operation}
    {result : operation.Result}
    (occurs : network.Occurs before operation result after) {id : Uuid} {world : WorldSession}
    (found : before.database.worldSessions.find id = some world) :
    after.database.worldSessions.find id =
      some (operation.reviseWorld before.clock world result) := by
  obtain ⟨member, rfl⟩ := Table.find_eq_some.mp found
  have kept : ∃ later ∈ after.database.worldSessions.rows, later.id = world.id := by
    cases operation with
    | statement statement =>
        rcases occurs_statement occurs with ⟨-, -, rfl⟩ | ⟨reply, database, -, executed, rfl⟩
        · exact ⟨world, member, rfl⟩
        · exact Statement.execute_keeps_worlds executed member
    | _ =>
        rw [show after.database = before.database from occurs_database (by simp) occurs]
        exact ⟨world, member, rfl⟩
  obtain ⟨later, present, same⟩ := kept
  refine Table.find_eq_some.mpr ?_
  rcases occurs_worlds occurs later present with ⟨earlier, was, rfl⟩ | ⟨fresh, -⟩
  · have one : earlier = world := Table.eq_of_key_eq was member (by simpa using same)
    subst one
    exact ⟨present, Operation.reviseWorld_id _ _ _ _⟩
  · have issued : world.id ∈ before.database.worldSessions.issued :=
      before.database.worldSessions.keysIssued world member
    rw [← same] at issued
    exact (fresh issued).elim

end Loontail
