import Loontail.Network.Evolution

/-! # What a statement makes of a join request and of an invite

Requests are settled by single conditional updates, by the accepting
transactions and by the cleanup. For a given row each of them is one function. -/

namespace Loontail

open Concurrency Relational

namespace Statement

def settleJoinRequest (now : Timestamp) (status : RequestStatus) (request : JoinRequest) :
    JoinRequest :=
  { request with status, updatedAt := now }

def settleInvite (now : Timestamp) (status : RequestStatus) (invite : WorldInvite) :
    WorldInvite :=
  { invite with status, updatedAt := now }

def reviseJoinRequest (now : Timestamp) (request : JoinRequest) : Statement → JoinRequest
  | .join (.reclaim worldId requester) =>
      if request.worldSessionId = worldId ∧ request.requesterUserId = requester ∧
          Sql.joinRequestLapsed now request then settleJoinRequest now .expired request
      else request
  | .join (.commitAccept transaction id ..) =>
      if request.id = id ∧ request.status = .pending then
        settleJoinRequest transaction.startedAt .accepted request
      else request
  | .join (.decline id) =>
      if request.id = id ∧ request.status = .pending then
        settleJoinRequest now .declined request
      else request
  | .maintenance .expireJoinRequests =>
      if Sql.joinRequestLapsed now request then settleJoinRequest now .expired request
      else request
  | _ => request

def insertsJoinRequest (now : Timestamp) : Statement → JoinRequest → Prop
  | .join (.insert requester hostId worldId expiresAt newId), row =>
      row = { id := newId, requesterUserId := requester, hostUserId := hostId
              worldSessionId := worldId, status := .pending, expiresAt
              createdAt := now, updatedAt := now }
  | _, _ => False

def reviseInvite (now : Timestamp) (invite : WorldInvite) : Statement → WorldInvite
  | .invite (.reclaim worldId invitee) =>
      if invite.worldSessionId = worldId ∧ invite.inviteeUserId = invitee ∧
          Sql.inviteLapsed now invite then settleInvite now .expired invite
      else invite
  | .invite (.commitAccept transaction id ..) =>
      if invite.id = id ∧ invite.status = .pending then
        settleInvite transaction.startedAt .accepted invite
      else invite
  | .invite (.decline id) =>
      if invite.id = id ∧ invite.status = .pending then settleInvite now .declined invite
      else invite
  | .invite (.approve id) =>
      if invite.id = id ∧ invite.status = .pendingApproval then
        settleInvite now .pending invite
      else invite
  | .invite (.revoke id) =>
      if invite.id = id ∧ invite.status.isActive then settleInvite now .revoked invite
      else invite
  | .maintenance .expireInvites =>
      if Sql.inviteLapsed now invite then settleInvite now .expired invite else invite
  | _ => invite

def insertsInvite (now : Timestamp) : Statement → WorldInvite → Prop
  | .invite (.insert worldId hostId inviter invitee status expiresAt newId), row =>
      ∃ notSelf, row = { id := newId, worldSessionId := worldId, hostUserId := hostId
                         inviterUserId := inviter, inviteeUserId := invitee, status
                         expiresAt, createdAt := now, updatedAt := now, notSelf }
  | _, _ => False

theorem reviseJoinRequest_columns (now : Timestamp) (request : JoinRequest)
    (statement : Statement) : ∃ status updatedAt,
      statement.reviseJoinRequest now request = { request with status, updatedAt } := by
  unfold reviseJoinRequest
  split <;> try split
  all_goals exact ⟨_, _, rfl⟩

theorem reviseInvite_columns (now : Timestamp) (invite : WorldInvite)
    (statement : Statement) : ∃ status updatedAt,
      statement.reviseInvite now invite = { invite with status, updatedAt } := by
  unfold reviseInvite
  split <;> try split
  all_goals exact ⟨_, _, rfl⟩

@[simp] theorem reviseJoinRequest_id (now : Timestamp) (request : JoinRequest)
    (statement : Statement) : (statement.reviseJoinRequest now request).id = request.id := by
  rcases reviseJoinRequest_columns now request statement with ⟨status, updatedAt, revised⟩
  rw [revised]

@[simp] theorem reviseInvite_id (now : Timestamp) (invite : WorldInvite)
    (statement : Statement) : (statement.reviseInvite now invite).id = invite.id := by
  rcases reviseInvite_columns now invite statement with ⟨status, updatedAt, revised⟩
  rw [revised]

end Statement

theorem Sql.settleJoinRequests_find {now : Timestamp} {status : RequestStatus}
    {settled : status ≠ .pending} {selected : JoinRequest → Bool} {database : Database}
    (id : Uuid) :
    (settleJoinRequests now status settled selected database).2.joinRequests.find id =
      (database.joinRequests.find id).map
        (Table.revise selected (Statement.settleJoinRequest now status)) := by
  apply Table.find_revised
  · rfl
  · exact fun _ _ => rfl

theorem Sql.settleInvites_find {now : Timestamp} {status : RequestStatus}
    {settled : status.isActive = false} {selected : WorldInvite → Bool}
    {database : Database} (id : Uuid) :
    (settleInvites now status settled selected database).2.worldInvites.find id =
      (database.worldInvites.find id).map
        (Table.revise selected (Statement.settleInvite now status)) := by
  apply Table.find_revised
  · rfl
  · exact fun _ _ => rfl

/-! ## Every statement -/

section Statements

variable {now : Timestamp} {database after : Database}

theorem JoinStatement.execute_revised {statement : JoinStatement} {reply : statement.Reply}
    (executed : statement.execute now database = .ok (reply, after)) :
    database.joinRequests.Revised
      (fun request => Statement.reviseJoinRequest now request (.join statement))
      (Statement.insertsJoinRequest now (.join statement)) after.joinRequests := by
  cases statement with
  | issueTicket =>
      rcases Sql.issueTicketAndRelay_ok executed with ⟨_, _, _, -, -, -, rfl⟩
      exact .of_same (fun _ => rfl) rfl
  | reclaim worldId requester =>
      cases executed
      refine .of_revised rfl fun request _ => ?_
      simp only [Table.revise, Statement.reviseJoinRequest, Bool.and_eq_true,
        decide_eq_true_eq, and_assoc]
      rfl
  | insert requester hostId worldId expiresAt newId =>
      simp only [JoinStatement.execute, Sql.insertJoinRequest] at executed
      split at executed
      · rename_i inserted
        cases executed
        exact .insert (fun _ _ => rfl) rfl inserted
      · cases executed
  | commitAccept transaction id =>
      rcases Sql.mintWhenSettled_frame executed with ⟨_, _, rfl⟩
      refine .of_revised rfl fun request _ => ?_
      simp only [Table.revise, Statement.reviseJoinRequest, Bool.and_eq_true,
        decide_eq_true_eq]
      rfl
  | decline id =>
      cases executed
      refine .of_revised rfl fun request _ => ?_
      simp only [Table.revise, Statement.reviseJoinRequest, Bool.and_eq_true,
        decide_eq_true_eq]
      rfl
  | _ =>
      cases executed
      exact .of_same (fun _ => rfl) rfl

theorem InviteStatement.execute_revised {statement : InviteStatement}
    {reply : statement.Reply}
    (executed : statement.execute now database = .ok (reply, after)) :
    database.worldInvites.Revised
      (fun invite => Statement.reviseInvite now invite (.invite statement))
      (Statement.insertsInvite now (.invite statement)) after.worldInvites := by
  cases statement with
  | reclaim worldId invitee =>
      cases executed
      refine .of_revised rfl fun invite _ => ?_
      simp only [Table.revise, Statement.reviseInvite, Bool.and_eq_true,
        decide_eq_true_eq, and_assoc]
      rfl
  | insert worldId hostId inviter invitee status expiresAt newId =>
      simp only [InviteStatement.execute, Sql.insertInvite] at executed
      split at executed
      · rename_i notSelf
        split at executed
        · rename_i inserted
          cases executed
          exact .insert (fun _ _ => rfl) ⟨notSelf, rfl⟩ inserted
        · cases executed
      · cases executed
  | commitAccept transaction id =>
      rcases Sql.mintWhenSettled_frame executed with ⟨_, _, rfl⟩
      refine .of_revised rfl fun invite _ => ?_
      simp only [Table.revise, Statement.reviseInvite, Bool.and_eq_true, decide_eq_true_eq]
      rfl
  | load id =>
      cases executed
      exact .of_same (fun _ => rfl) rfl
  | lock transaction id =>
      cases executed
      exact .of_same (fun _ => rfl) rfl
  | _ =>
      cases executed
      refine .of_revised rfl fun invite _ => ?_
      simp only [Table.revise, Statement.reviseInvite, Bool.and_eq_true, decide_eq_true_eq]
      rfl

/-- A statement that succeeds revises every join request as `reviseJoinRequest`
says, and inserts at most the one it names. -/
theorem Statement.execute_joinRequests {statement : Statement} {reply : statement.Reply}
    (executed : statement.execute now database = .ok (reply, after)) :
    database.joinRequests.Revised (fun request => statement.reviseJoinRequest now request)
      (statement.insertsJoinRequest now) after.joinRequests := by
  cases statement with
  | world =>
      rcases WorldStatement.execute_frame executed with ⟨_, _, _, rfl⟩
      exact .of_same (fun _ => rfl) rfl
  | relay =>
      rcases RelayStatement.execute_frame executed with ⟨_, _, _, rfl⟩
      exact .of_same (fun _ => rfl) rfl
  | friend =>
      rcases FriendStatement.execute_frame executed with ⟨_, _, rfl⟩
      exact .of_same (fun _ => rfl) rfl
  | presence =>
      rcases PresenceStatement.execute_frame executed with ⟨_, _, rfl⟩
      exact .of_same (fun _ => rfl) rfl
  | join => exact JoinStatement.execute_revised executed
  | invite =>
      rcases InviteStatement.execute_frame executed with ⟨_, _, _, rfl⟩
      exact .of_same (fun _ => rfl) rfl
  | maintenance statement =>
      cases statement with
      | expireJoinRequests =>
          cases executed
          exact .of_revised rfl fun request _ => rfl
      | deleteJoinRequests retentionDays =>
          cases executed
          exact .delete (fun _ => rfl) _ _
      | _ =>
          cases executed
          exact .of_same (fun _ => rfl) rfl

theorem Statement.execute_invites {statement : Statement} {reply : statement.Reply}
    (executed : statement.execute now database = .ok (reply, after)) :
    database.worldInvites.Revised (fun invite => statement.reviseInvite now invite)
      (statement.insertsInvite now) after.worldInvites := by
  cases statement with
  | world =>
      rcases WorldStatement.execute_frame executed with ⟨_, _, _, rfl⟩
      exact .of_same (fun _ => rfl) rfl
  | relay =>
      rcases RelayStatement.execute_frame executed with ⟨_, _, _, rfl⟩
      exact .of_same (fun _ => rfl) rfl
  | friend =>
      rcases FriendStatement.execute_frame executed with ⟨_, _, rfl⟩
      exact .of_same (fun _ => rfl) rfl
  | presence =>
      rcases PresenceStatement.execute_frame executed with ⟨_, _, rfl⟩
      exact .of_same (fun _ => rfl) rfl
  | join =>
      rcases JoinStatement.execute_frame executed with ⟨_, _, _, rfl⟩
      exact .of_same (fun _ => rfl) rfl
  | invite => exact InviteStatement.execute_revised executed
  | maintenance statement =>
      cases statement with
      | expireInvites =>
          cases executed
          exact .of_revised rfl fun invite _ => rfl
      | deleteInvites retentionDays =>
          cases executed
          exact .delete (fun _ => rfl) _ _
      | _ =>
          cases executed
          exact .of_same (fun _ => rfl) rfl

end Statements

theorem occurs_joinRequests {before after : Service} {operation : Operation}
    {result : operation.Result}
    (occurs : network.Occurs before operation result after) :
    after.database.joinRequests = before.database.joinRequests ∨
    ∃ statement, operation = .statement statement ∧
      before.database.joinRequests.Revised
        (fun request => statement.reviseJoinRequest before.clock request)
        (statement.insertsJoinRequest before.clock) after.database.joinRequests := by
  cases operation with
  | statement statement =>
      rcases occurs_statement occurs with ⟨-, -, rfl⟩ | ⟨reply, database, -, executed, rfl⟩
      · exact .inl rfl
      · exact .inr ⟨statement, rfl, Statement.execute_joinRequests executed⟩
  | _ => exact .inl (congrArg Database.joinRequests (occurs_database (by simp) occurs))

theorem occurs_invites {before after : Service} {operation : Operation}
    {result : operation.Result}
    (occurs : network.Occurs before operation result after) :
    after.database.worldInvites = before.database.worldInvites ∨
    ∃ statement, operation = .statement statement ∧
      before.database.worldInvites.Revised
        (fun invite => statement.reviseInvite before.clock invite)
        (statement.insertsInvite before.clock) after.database.worldInvites := by
  cases operation with
  | statement statement =>
      rcases occurs_statement occurs with ⟨-, -, rfl⟩ | ⟨reply, database, -, executed, rfl⟩
      · exact .inl rfl
      · exact .inr ⟨statement, rfl, Statement.execute_invites executed⟩
  | _ => exact .inl (congrArg Database.worldInvites (occurs_database (by simp) occurs))

end Loontail
