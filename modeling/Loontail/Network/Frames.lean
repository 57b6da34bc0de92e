import Loontail.Network.Service

/-! # Which tables a statement writes

The statements on one subject write the tables of that subject, whichever of
them runs and however it goes; every other table is left as it was. -/

namespace Loontail

open Relational

namespace Sql

variable {now : Timestamp} {database after : Database}

theorem issueTicketAndRelay_ok {guestId hostId worldId : Uuid} {draw : TicketDraw}
    {tokenHash : String} {expiresAt : Timestamp} {context : TicketContext}
    (executed : issueTicketAndRelay now guestId hostId worldId draw tokenHash expiresAt
      database = .ok (context, after)) :
    ∃ world joinTickets relaySessions,
      database.worldSessions.find worldId = some world ∧
      database.joinTickets.insert {
        id := draw.ticketId, userId := guestId, worldSessionId := worldId
        tokenHash, expiresAt, consumedAt := none, createdAt := now } = some joinTickets ∧
      database.relaySessions.insert {
        id := draw.relaySessionId, worldSessionId := worldId
        hostUserId := hostId, guestUserId := some guestId
        joinTicketId := some draw.ticketId, status := .pending
        createdAt := now, closedAt := none } = some relaySessions ∧
      after = { database with joinTickets, relaySessions } := by
  unfold issueTicketAndRelay at executed
  split at executed
  · cases executed
  · rename_i world found
    dsimp only at executed
    split at executed
    · cases executed
    · rename_i joinTickets ticketInserted
      split at executed
      · cases executed
      · rename_i relaySessions relayInserted
        cases executed
        exact ⟨world, joinTickets, relaySessions, found, ticketInserted, relayInserted, rfl⟩

theorem mintWhenSettled_ok {guestId hostId worldId : Uuid} {draw : TicketDraw}
    {tokenHash : String} {expiresAt : Timestamp} {settled : Nat × Database}
    {reply : Option TicketContext}
    (executed : mintWhenSettled now guestId hostId worldId draw tokenHash expiresAt
      settled = .ok (reply, after)) :
    (settled.1 ≠ 1 ∧ reply = none ∧ after = settled.2) ∨
    settled.1 = 1 ∧ ∃ context, reply = some context ∧
      issueTicketAndRelay now guestId hostId worldId draw tokenHash expiresAt settled.2 =
        .ok (context, after) := by
  unfold mintWhenSettled at executed
  split at executed
  · rename_i changed
    refine .inr ⟨changed, ?_⟩
    cases issued : issueTicketAndRelay now guestId hostId worldId draw tokenHash expiresAt
      settled.2 with
    | error failure =>
        rw [issued] at executed
        cases executed
    | ok pair =>
        rw [issued] at executed
        cases executed
        exact ⟨pair.1, rfl, rfl⟩
  · rename_i unchanged
    cases executed
    exact .inl ⟨unchanged, rfl, rfl⟩

theorem closeWorldCleanup_frame {closing : Closing} {worldId hostId : Uuid}
    {world : WorldSession}
    (executed : closeWorldCleanup closing worldId hostId database = .ok (world, after)) :
    ∃ worldSessions relaySessions presence,
      after = { database with worldSessions, relaySessions, presence } := by
  unfold closeWorldCleanup at executed
  dsimp only at executed
  split at executed
  · cases executed
    exact ⟨_, _, _, rfl⟩
  · cases executed

theorem mintWhenSettled_frame {guestId hostId worldId : Uuid} {draw : TicketDraw}
    {tokenHash : String} {expiresAt : Timestamp} {settled : Nat × Database}
    {reply : Option TicketContext}
    (executed : mintWhenSettled now guestId hostId worldId draw tokenHash expiresAt
      settled = .ok (reply, after)) :
    ∃ joinTickets relaySessions,
      after = { settled.2 with joinTickets, relaySessions } := by
  rcases mintWhenSettled_ok executed with ⟨-, -, rfl⟩ | ⟨-, context, -, issued⟩
  · exact ⟨_, _, rfl⟩
  · rcases issueTicketAndRelay_ok issued with ⟨_, joinTickets, relaySessions, -, -, -, equal⟩
    exact ⟨joinTickets, relaySessions, equal⟩

theorem upsertPresence_frame {row : Presence} {set : Presence → Presence}
    {keepsKey : ∀ presence, (set presence).userId = presence.userId} {reply : Unit}
    (executed : upsertPresence row set keepsKey database = .ok (reply, after)) :
    ∃ presence, after = { database with presence } := by
  unfold upsertPresence at executed
  split at executed
  · cases executed
    exact ⟨_, rfl⟩
  · split at executed
    · cases executed
      exact ⟨_, rfl⟩
    · cases executed

end Sql

section Statements

variable {now : Timestamp} {database after : Database}

theorem WorldStatement.execute_frame {statement : WorldStatement} {reply : statement.Reply}
    (executed : statement.execute now database = .ok (reply, after)) :
    ∃ worldSessions relaySessions presence,
      after = { database with worldSessions, relaySessions, presence } := by
  cases statement with
  | upsert hostUserId maxPlayers newId =>
      simp only [WorldStatement.execute, Sql.upsertWorld] at executed
      split at executed
      · cases executed
        exact ⟨_, _, _, rfl⟩
      · split at executed
        · cases executed
          exact ⟨_, _, _, rfl⟩
        · cases executed
  | update id maxPlayers status invitePolicy =>
      simp only [WorldStatement.execute, Sql.updateWorld] at executed
      split at executed
      · cases executed
      · split at executed
        · cases executed
        · cases executed
          exact ⟨_, _, _, rfl⟩
  | commitUpdate closing id maxPlayers invitePolicy hostId =>
      rcases Sql.closeWorldCleanup_frame executed with ⟨_, _, _, rfl⟩
      exact ⟨_, _, _, rfl⟩
  | commitClose closing id hostId shut =>
      rcases Sql.closeWorldCleanup_frame executed with ⟨_, _, _, rfl⟩
      exact ⟨_, _, _, rfl⟩
  | _ =>
      cases executed
      exact ⟨_, _, _, rfl⟩

theorem RelayStatement.execute_frame {statement : RelayStatement} {reply : statement.Reply}
    (executed : statement.execute now database = .ok (reply, after)) :
    ∃ worldSessions joinTickets relaySessions,
      after = { database with worldSessions, joinTickets, relaySessions } := by
  cases statement <;> cases executed <;> exact ⟨_, _, _, rfl⟩

theorem FriendStatement.execute_frame {statement : FriendStatement}
    {reply : statement.Reply}
    (executed : statement.execute now database = .ok (reply, after)) :
    ∃ friendRequests friendships,
      after = { database with friendRequests, friendships } := by
  cases statement with
  | insertRequest fromUserId toUserId newId =>
      simp only [FriendStatement.execute, Sql.insertFriendRequest] at executed
      split at executed
      · split at executed
        · cases executed
          exact ⟨_, _, rfl⟩
        · cases executed
      · cases executed
  | commitAccept transaction id fromUserId toUserId newId =>
      simp only [FriendStatement.execute, Sql.acceptFriendRequest,
        Sql.insertFriendship] at executed
      split at executed
      · cases executed
        exact ⟨_, _, rfl⟩
      · split at executed
        · split at executed
          · cases executed
            exact ⟨_, _, rfl⟩
          · cases executed
        · cases executed
  | _ =>
      cases executed
      exact ⟨_, _, rfl⟩

theorem PresenceStatement.execute_frame {statement : PresenceStatement}
    {reply : statement.Reply}
    (executed : statement.execute now database = .ok (reply, after)) :
    ∃ users presence, after = { database with users, presence } := by
  have upserted : ∀ {row set keepsKey},
      Sql.upsertPresence row set keepsKey database = .ok ((), after) →
        ∃ users presence, after = { database with users, presence } := by
    intro row set keepsKey executed
    rcases Sql.upsertPresence_frame executed with ⟨presence, rfl⟩
    exact ⟨_, presence, rfl⟩
  cases statement with
  | heartbeat => exact upserted executed
  | markOnline => exact upserted executed
  | setStatus => exact upserted executed
  | bootstrap => exact upserted executed
  | bootstrapUser userId minecraftUuid accountType xuid clientId =>
      simp only [PresenceStatement.execute, Sql.bootstrapUser] at executed
      split at executed
      · cases executed
      · split at executed
        · cases executed
          exact ⟨_, _, rfl⟩
        · cases executed
  | _ =>
      cases executed
      exact ⟨_, _, rfl⟩

theorem JoinStatement.execute_frame {statement : JoinStatement} {reply : statement.Reply}
    (executed : statement.execute now database = .ok (reply, after)) :
    ∃ joinRequests joinTickets relaySessions,
      after = { database with joinRequests, joinTickets, relaySessions } := by
  cases statement with
  | issueTicket =>
      rcases Sql.issueTicketAndRelay_ok executed with ⟨_, _, _, -, -, -, rfl⟩
      exact ⟨_, _, _, rfl⟩
  | commitAccept =>
      rcases Sql.mintWhenSettled_frame executed with ⟨_, _, rfl⟩
      exact ⟨_, _, _, rfl⟩
  | insert =>
      simp only [JoinStatement.execute, Sql.insertJoinRequest] at executed
      split at executed
      · cases executed
        exact ⟨_, _, _, rfl⟩
      · cases executed
  | _ =>
      cases executed
      exact ⟨_, _, _, rfl⟩

theorem InviteStatement.execute_frame {statement : InviteStatement}
    {reply : statement.Reply}
    (executed : statement.execute now database = .ok (reply, after)) :
    ∃ worldInvites joinTickets relaySessions,
      after = { database with worldInvites, joinTickets, relaySessions } := by
  cases statement with
  | commitAccept =>
      rcases Sql.mintWhenSettled_frame executed with ⟨_, _, rfl⟩
      exact ⟨_, _, _, rfl⟩
  | insert =>
      simp only [InviteStatement.execute, Sql.insertInvite] at executed
      split at executed
      · split at executed
        · cases executed
          exact ⟨_, _, _, rfl⟩
        · cases executed
      · cases executed
  | _ =>
      cases executed
      exact ⟨_, _, _, rfl⟩

theorem MaintenanceStatement.execute_frame {statement : MaintenanceStatement}
    {reply : statement.Reply}
    (executed : statement.execute now database = .ok (reply, after)) :
    ∃ worldSessions joinRequests joinTickets relaySessions worldInvites,
      after = { database with
        worldSessions, joinRequests, joinTickets, relaySessions, worldInvites } := by
  cases statement <;> cases executed <;> exact ⟨_, _, _, _, _, rfl⟩

end Statements

end Loontail
