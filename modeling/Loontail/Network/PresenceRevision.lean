import Loontail.Network.Frames
import Loontail.Relational.Evolution

/-! # What a statement makes of a presence row

Six statements write presence: four of them insert the row when it is missing,
two only revise it. -/

namespace Loontail

open Concurrency Relational

namespace Statement

def revisePresence (now : Timestamp) (presence : Presence) : Statement → Presence
  | .presence (.heartbeat userId) => refreshed presence userId
  | .presence (.markOnline userId) => refreshed presence userId
  | .presence (.markOffline userId) =>
      if presence.userId = userId then
        { presence with status := .offline, currentWorldSessionId := none, updatedAt := now }
      else presence
  | .presence (.setStatus userId status worldId) =>
      if presence.userId = userId then
        { presence with
          status, lastHeartbeatAt := now, currentWorldSessionId := worldId, updatedAt := now }
      else presence
  | .presence (.bootstrap userId minecraftVersion modVersion loader) =>
      if presence.userId = userId then
        { presence with
          status := .online
          lastHeartbeatAt := now
          minecraftVersion := minecraftVersion.or presence.minecraftVersion
          modVersion := modVersion.or presence.modVersion
          loader := loader.or presence.loader
          updatedAt := now }
      else presence
  | .world (.commitUpdate closing _ _ _ hostId) => left closing presence hostId
  | .world (.commitClose closing _ hostId _) => left closing presence hostId
  | _ => presence
where
  refreshed (presence : Presence) (userId : Uuid) : Presence :=
    if presence.userId = userId then
      { presence with
        lastHeartbeatAt := now
        status := if presence.status = .offline then .online else presence.status
        updatedAt := now }
    else presence
  left (closing : Closing) (presence : Presence) (hostId : Uuid) : Presence :=
    if presence.userId = hostId ∧ closing.present = true then
      { presence with
        status := .online
        currentWorldSessionId := none
        updatedAt := closing.transaction.startedAt }
    else presence

def insertsPresence (presence : Presence) : Statement → Prop
  | .presence (.heartbeat userId) => arrives presence userId
  | .presence (.markOnline userId) => arrives presence userId
  | .presence (.bootstrap userId _ _ _) => arrives presence userId
  | .presence (.setStatus userId status worldId) => presence.userId = userId ∧
      presence.status = status ∧ presence.currentWorldSessionId = worldId
  | _ => False
where
  arrives (presence : Presence) (userId : Uuid) : Prop := presence.userId = userId ∧
    presence.status = .online ∧ presence.currentWorldSessionId = none

@[simp] theorem revisePresence_userId (now : Timestamp) (presence : Presence)
    (statement : Statement) :
    (statement.revisePresence now presence).userId = presence.userId := by
  unfold revisePresence revisePresence.refreshed revisePresence.left
  split <;> (try split) <;> (try split) <;> rfl

end Statement

namespace Sql

variable {now : Timestamp} {database after : Database}

theorem upsertPresence_revised {row : Presence} {set : Presence → Presence}
    {keepsKey : ∀ presence, (set presence).userId = presence.userId} {reply : Unit}
    {inserted : Presence → Prop} (isInserted : inserted row)
    (executed : upsertPresence row set keepsKey database = .ok (reply, after)) :
    Table.Revised (fun presence => if presence.userId = row.userId then set presence else presence)
      inserted database.presence after.presence := by
  unfold upsertPresence at executed
  split at executed
  · cases executed
    refine .of_revised rfl fun presence _ => ?_
    simp only [Table.revise, decide_eq_true_eq]
  · rename_i absent
    split at executed
    · rename_i grown
      cases executed
      refine .insert (fun presence member => ?_) isInserted grown
      exact if_neg (Table.find_eq_none.mp absent presence member)
    · cases executed

theorem closeWorldCleanup_presence {closing : Closing} {worldId hostId : Uuid}
    {world : WorldSession}
    (executed : closeWorldCleanup closing worldId hostId database = .ok (world, after)) :
    after.presence.rows = database.presence.rows.map
      (Table.revise (fun presence => presence.userId = hostId && closing.present)
        (fun presence => { presence with
          status := .online, currentWorldSessionId := none
          updatedAt := closing.transaction.startedAt })) := by
  unfold closeWorldCleanup at executed
  dsimp only at executed
  split at executed
  · cases executed
    rfl
  · cases executed

end Sql

section Statements

variable {now : Timestamp} {database after : Database}

private theorem closed_revised {closing : Closing} {worldId hostId : Uuid}
    {world : WorldSession} {middle : Database}
    (same : middle.presence = database.presence) {inserted : Presence → Prop}
    (executed : Sql.closeWorldCleanup closing worldId hostId middle = .ok (world, after)) :
    Table.Revised (fun presence => Statement.revisePresence.left closing presence hostId)
      inserted database.presence after.presence := by
  apply Table.Revised.of_revised (same ▸ Sql.closeWorldCleanup_presence executed)
  intro presence _
  simp only [Table.revise, Statement.revisePresence.left, Bool.and_eq_true,
    decide_eq_true_eq]

theorem WorldStatement.execute_presence {statement : WorldStatement} {reply : statement.Reply}
    (executed : statement.execute now database = .ok (reply, after)) :
    Table.Revised (fun presence => (Statement.world statement).revisePresence now presence)
      (fun presence => (Statement.world statement).insertsPresence presence)
      database.presence after.presence := by
  cases statement with
  | commitUpdate closing id maxPlayers invitePolicy hostId =>
      exact closed_revised (by rfl) executed
  | commitClose closing id hostId shut => exact closed_revised (by rfl) executed
  | update id maxPlayers status invitePolicy =>
      simp only [WorldStatement.execute, Sql.updateWorld] at executed
      split at executed
      · cases executed
      · split at executed
        · cases executed
        · cases executed
          exact .of_same (fun _ => rfl) rfl
  | upsert hostUserId maxPlayers newId =>
      simp only [WorldStatement.execute, Sql.upsertWorld] at executed
      split at executed
      · cases executed
        exact .of_same (fun _ => rfl) rfl
      · split at executed
        · cases executed
          exact .of_same (fun _ => rfl) rfl
        · cases executed
  | _ =>
      cases executed
      exact .of_same (fun _ => rfl) rfl

theorem PresenceStatement.execute_presence {statement : PresenceStatement}
    {reply : statement.Reply}
    (executed : statement.execute now database = .ok (reply, after)) :
    Table.Revised (fun presence => (Statement.presence statement).revisePresence now presence)
      (fun presence => (Statement.presence statement).insertsPresence presence)
      database.presence after.presence := by
  cases statement with
  | heartbeat userId => exact Sql.upsertPresence_revised ⟨rfl, rfl, rfl⟩ executed
  | markOnline userId => exact Sql.upsertPresence_revised ⟨rfl, rfl, rfl⟩ executed
  | setStatus userId status worldId => exact Sql.upsertPresence_revised ⟨rfl, rfl, rfl⟩ executed
  | bootstrap userId minecraftVersion modVersion loader =>
      exact Sql.upsertPresence_revised ⟨rfl, rfl, rfl⟩ executed
  | markOffline userId =>
      cases executed
      refine .of_revised rfl fun presence _ => ?_
      simp only [Table.revise, Statement.revisePresence, decide_eq_true_eq]
  | bootstrapUser userId minecraftUuid accountType xuid clientId =>
      simp only [PresenceStatement.execute, Sql.bootstrapUser] at executed
      split at executed
      · cases executed
      · split at executed
        · cases executed
          exact .of_same (fun _ => rfl) rfl
        · cases executed
  | _ =>
      cases executed
      exact .of_same (fun _ => rfl) rfl

theorem Statement.execute_presence {statement : Statement} {reply : statement.Reply}
    (executed : statement.execute now database = .ok (reply, after)) :
    Table.Revised (fun presence => statement.revisePresence now presence)
      (fun presence => statement.insertsPresence presence)
      database.presence after.presence := by
  cases statement with
  | world => exact WorldStatement.execute_presence executed
  | presence => exact PresenceStatement.execute_presence executed
  | relay =>
      rcases RelayStatement.execute_frame executed with ⟨_, _, _, rfl⟩
      exact .of_same (fun _ => rfl) rfl
  | friend =>
      rcases FriendStatement.execute_frame executed with ⟨_, _, rfl⟩
      exact .of_same (fun _ => rfl) rfl
  | join =>
      rcases JoinStatement.execute_frame executed with ⟨_, _, _, rfl⟩
      exact .of_same (fun _ => rfl) rfl
  | invite =>
      rcases InviteStatement.execute_frame executed with ⟨_, _, _, rfl⟩
      exact .of_same (fun _ => rfl) rfl
  | maintenance =>
      rcases MaintenanceStatement.execute_frame executed with ⟨_, _, _, _, _, rfl⟩
      exact .of_same (fun _ => rfl) rfl

end Statements

def Operation.revisePresence (now : Timestamp) (presence : Presence) :
    (operation : Operation) → operation.Result → Presence
  | .statement query, .ok _ => query.revisePresence now presence
  | _, _ => presence

def Operation.insertsPresence (presence : Presence) :
    (operation : Operation) → operation.Result → Prop
  | .statement query, .ok _ => query.insertsPresence presence
  | _, _ => False

theorem occurs_presence {before after : Service} {operation : Operation}
    {result : operation.Result}
    (occurs : network.Occurs before operation result after) :
    Table.Revised (fun presence => operation.revisePresence before.clock presence result)
      (fun presence => operation.insertsPresence presence result)
      before.database.presence after.database.presence := by
  cases operation with
  | statement statement =>
      rcases occurs_statement occurs with
        ⟨error, rfl, rfl⟩ | ⟨reply, database, rfl, executed, rfl⟩
      · exact .of_same (fun _ => rfl) rfl
      · exact Statement.execute_presence executed
  | _ =>
      exact .of_same (fun _ => rfl)
        (congrArg Database.presence (occurs_database (by simp) occurs))

/-! ## Offline rows -/

theorem Statement.revisePresence.refreshed_offline {now : Timestamp} {presence : Presence}
    {userId : Uuid} (offline : (refreshed now presence userId).status = .offline) :
    presence.status = .offline ∧ presence.userId ≠ userId := by
  unfold refreshed at offline
  split at offline
  · simp only at offline
    split at offline
    · cases offline
    · rename_i awake
      exact (awake offline).elim
  · rename_i other
    exact ⟨offline, other⟩

theorem Statement.revisePresence.left_offline {closing : Closing} {presence : Presence}
    {hostId : Uuid} (offline : (left closing presence hostId).status = .offline) :
    presence.status = .offline := by
  unfold left at offline
  split at offline
  · cases offline
  · exact offline

/-- A row that a statement leaves offline was marked so, or was offline and not
announced. -/
theorem Statement.offline_of_revised {now : Timestamp} {row : Presence}
    {statement : Statement}
    (sets : ∀ userId worldId, statement ≠ .presence (.setStatus userId .offline worldId))
    (offline : (statement.revisePresence now row).status = .offline) :
    statement = .presence (.markOffline row.userId) ∨
      row.status = .offline ∧ statement ≠ .presence (.markOnline row.userId) := by
  cases statement with
  | presence statement =>
      cases statement with
      | heartbeat userId =>
          exact .inr ⟨(revisePresence.refreshed_offline offline).1, by simp⟩
      | markOnline userId =>
          have kept := revisePresence.refreshed_offline offline
          exact .inr ⟨kept.1, by simpa using Ne.symm kept.2⟩
      | markOffline userId =>
          by_cases own : row.userId = userId
          · exact .inl (by rw [own])
          · rw [revisePresence, if_neg own] at offline
            exact .inr ⟨offline, by simp⟩
      | setStatus userId status worldId =>
          by_cases own : row.userId = userId
          · rw [revisePresence, if_pos own] at offline
            simp only at offline
            subst offline
            exact (sets userId worldId rfl).elim
          · rw [revisePresence, if_neg own] at offline
            exact .inr ⟨offline, by simp⟩
      | bootstrap userId minecraftVersion modVersion loader =>
          by_cases own : row.userId = userId
          · rw [revisePresence, if_pos own] at offline
            cases offline
          · rw [revisePresence, if_neg own] at offline
            exact .inr ⟨offline, by simp⟩
      | _ => exact .inr ⟨offline, by simp⟩
  | world statement =>
      cases statement with
      | commitUpdate closing id maxPlayers invitePolicy hostId =>
          exact .inr ⟨revisePresence.left_offline offline, by simp⟩
      | commitClose closing id hostId shut =>
          exact .inr ⟨revisePresence.left_offline offline, by simp⟩
      | _ => exact .inr ⟨offline, by simp⟩
  | _ => exact .inr ⟨offline, by simp⟩

theorem Statement.insertsPresence_online {row : Presence} {statement : Statement}
    (sets : ∀ userId worldId, statement ≠ .presence (.setStatus userId .offline worldId))
    (inserted : statement.insertsPresence row) : row.status ≠ .offline := by
  intro offline
  unfold insertsPresence at inserted
  split at inserted
  · exact nomatch offline.symm.trans inserted.2.1
  · exact nomatch offline.symm.trans inserted.2.1
  · exact nomatch offline.symm.trans inserted.2.1
  · rename_i userId status worldId
    have same : status = .offline := inserted.2.1.symm.trans offline
    exact sets userId worldId (same ▸ rfl)
  · exact inserted

end Loontail
