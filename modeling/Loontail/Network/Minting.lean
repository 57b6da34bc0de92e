import Loontail.Network.Evolution

/-! # Where tickets and relay sessions come from

Three statements insert a join ticket, and each inserts the ticket's relay
session with it; no other statement inserts either. -/

namespace Loontail

open Concurrency Relational

/-- The statement lets `guestId` into the world as a guest of `hostId`. -/
def Statement.admits (guestId hostId worldId : Uuid) : Statement → Prop
  | .join (.issueTicket guest host hosted ..) =>
      guest = guestId ∧ host = hostId ∧ hosted = worldId
  | .join (.commitAccept _ _ guest host hosted ..) =>
      guest = guestId ∧ host = hostId ∧ hosted = worldId
  | .invite (.commitAccept _ _ guest host hosted ..) =>
      guest = guestId ∧ host = hostId ∧ hosted = worldId
  | _ => False

structure Database.Mints (guestId hostId worldId : Uuid) (old new : Database) : Prop where
  rows : ∃ ticket relay, new.joinTickets.rows = ticket :: old.joinTickets.rows ∧
    new.relaySessions.rows = relay :: old.relaySessions.rows ∧
    ticket.id ∉ old.joinTickets.issued ∧ relay.id ∉ old.relaySessions.issued ∧
    ticket.userId = guestId ∧ ticket.worldSessionId = worldId ∧
    relay.worldSessionId = worldId ∧ relay.hostUserId = hostId ∧
    relay.guestUserId = some guestId ∧ relay.joinTicketId = some ticket.id

structure Database.MintsNothing (old new : Database) : Prop where
  tickets : ∀ ticket ∈ new.joinTickets.rows, ticket.id ∈ old.joinTickets.issued
  relays : ∀ relay ∈ new.relaySessions.rows, relay.id ∈ old.relaySessions.issued

namespace Database.MintsNothing

variable {old new : Database}

theorem of_same (tickets : new.joinTickets = old.joinTickets)
    (relays : new.relaySessions = old.relaySessions) : old.MintsNothing new where
  tickets := fun ticket member => old.joinTickets.keysIssued ticket (tickets ▸ member)
  relays := fun relay member => old.relaySessions.keysIssued relay (relays ▸ member)

theorem refl (database : Database) : database.MintsNothing database := .of_same rfl rfl

end Database.MintsNothing

section Statements

variable {now : Timestamp} {database after : Database}

theorem Sql.issueTicketAndRelay_mints {guestId hostId worldId : Uuid} {draw : TicketDraw}
    {tokenHash : String} {expiresAt : Timestamp} {context : TicketContext}
    (executed : issueTicketAndRelay now guestId hostId worldId draw tokenHash expiresAt
      database = .ok (context, after)) : database.Mints guestId hostId worldId after := by
  rcases issueTicketAndRelay_ok executed with
    ⟨world, joinTickets, relaySessions, -, ticketInserted, relayInserted, rfl⟩
  have ticket := Table.insert_rows ticketInserted
  have relay := Table.insert_rows relayInserted
  exact ⟨_, _, ticket.1, relay.1, ticket.2.2, relay.2.2, rfl, rfl, rfl, rfl, rfl, rfl⟩

theorem Sql.mintWhenSettled_mints {guestId hostId worldId : Uuid} {draw : TicketDraw}
    {tokenHash : String} {expiresAt : Timestamp} {settled : Nat × Database}
    {reply : Option TicketContext}
    (tickets : settled.2.joinTickets = database.joinTickets)
    (relays : settled.2.relaySessions = database.relaySessions)
    (executed : mintWhenSettled now guestId hostId worldId draw tokenHash expiresAt
      settled = .ok (reply, after)) :
    database.MintsNothing after ∨ database.Mints guestId hostId worldId after := by
  rcases mintWhenSettled_ok executed with ⟨-, -, rfl⟩ | ⟨-, context, -, issued⟩
  · exact .inl (.of_same tickets relays)
  · rcases (issueTicketAndRelay_mints issued).rows with ⟨ticket, relay, minted⟩
    rw [tickets, relays] at minted
    exact .inr ⟨ticket, relay, minted⟩

theorem Sql.closeWorldCleanup_mints {closing : Closing} {worldId hostId : Uuid}
    {world : WorldSession}
    (executed : closeWorldCleanup closing worldId hostId database = .ok (world, after)) :
    database.MintsNothing after := by
  unfold closeWorldCleanup at executed
  dsimp only at executed
  split at executed
  · cases executed
    exact { tickets := (Database.MintsNothing.refl database).tickets
            relays := Table.keys_revised rfl fun _ _ => rfl }
  · cases executed

theorem WorldStatement.execute_mints {statement : WorldStatement} {reply : statement.Reply}
    (executed : statement.execute now database = .ok (reply, after)) :
    database.MintsNothing after := by
  cases statement with
  | upsert hostUserId maxPlayers newId =>
      simp only [WorldStatement.execute, Sql.upsertWorld] at executed
      split at executed
      · cases executed
        exact .of_same rfl rfl
      · split at executed
        · cases executed
          exact .of_same rfl rfl
        · cases executed
  | update id maxPlayers status invitePolicy =>
      simp only [WorldStatement.execute, Sql.updateWorld] at executed
      split at executed
      · cases executed
      · split at executed
        · cases executed
        · cases executed
          exact .of_same rfl rfl
  | commitUpdate closing id maxPlayers invitePolicy hostId =>
      have cleaned := Sql.closeWorldCleanup_mints executed
      exact ⟨cleaned.tickets, cleaned.relays⟩
  | commitClose closing id hostId shut =>
      have cleaned := Sql.closeWorldCleanup_mints executed
      exact ⟨cleaned.tickets, cleaned.relays⟩
  | _ =>
      cases executed
      exact .refl database

theorem Statement.execute_mints {statement : Statement} {reply : statement.Reply}
    (executed : statement.execute now database = .ok (reply, after)) :
    database.MintsNothing after ∨ ∃ guestId hostId worldId,
      statement.admits guestId hostId worldId ∧ database.Mints guestId hostId worldId after := by
  cases statement with
  | world => exact .inl (WorldStatement.execute_mints executed)
  | relay statement =>
      left
      cases statement with
      | consumeTicket ticketId =>
          cases executed
          exact { tickets := Table.keys_revised rfl fun _ _ => rfl
                  relays := (Database.MintsNothing.refl database).relays }
      | markActive id =>
          cases executed
          exact { tickets := (Database.MintsNothing.refl database).tickets
                  relays := Table.keys_revised rfl fun _ _ => rfl }
      | markClosed id =>
          cases executed
          exact { tickets := (Database.MintsNothing.refl database).tickets
                  relays := Table.keys_revised rfl fun _ _ => rfl }
      | _ =>
          cases executed
          exact .of_same rfl rfl
  | friend =>
      rcases FriendStatement.execute_frame executed with ⟨_, _, rfl⟩
      exact .inl (.of_same rfl rfl)
  | presence =>
      rcases PresenceStatement.execute_frame executed with ⟨_, _, rfl⟩
      exact .inl (.of_same rfl rfl)
  | join statement =>
      cases statement with
      | issueTicket guestId hostId worldId =>
          exact .inr ⟨guestId, hostId, worldId, ⟨rfl, rfl, rfl⟩,
            Sql.issueTicketAndRelay_mints executed⟩
      | commitAccept transaction id guestId hostId worldId =>
          refine (Sql.mintWhenSettled_mints ?_ ?_ executed).imp_right fun mints =>
            ⟨guestId, hostId, worldId, ⟨rfl, rfl, rfl⟩, mints⟩
          · rfl
          · rfl
      | insert =>
          left
          simp only [Statement.execute, JoinStatement.execute, Sql.insertJoinRequest]
            at executed
          split at executed
          · cases executed
            exact .of_same rfl rfl
          · cases executed
      | _ =>
          cases executed
          exact .inl (.of_same rfl rfl)
  | invite statement =>
      cases statement with
      | commitAccept transaction id guestId hostId worldId =>
          refine (Sql.mintWhenSettled_mints ?_ ?_ executed).imp_right fun mints =>
            ⟨guestId, hostId, worldId, ⟨rfl, rfl, rfl⟩, mints⟩
          · rfl
          · rfl
      | insert =>
          left
          simp only [Statement.execute, InviteStatement.execute, Sql.insertInvite] at executed
          split at executed
          · split at executed
            · cases executed
              exact .of_same rfl rfl
            · cases executed
          · cases executed
      | _ =>
          cases executed
          exact .inl (.of_same rfl rfl)
  | maintenance statement =>
      left
      cases statement with
      | deleteJoinTickets retentionDays =>
          cases executed
          constructor
          · intro ticket member
            exact database.joinTickets.keysIssued ticket (Table.mem_delete.mp member).1
          · exact Table.keys_revised rfl fun _ _ => rfl
      | closeRelaySessions =>
          cases executed
          exact { tickets := (Database.MintsNothing.refl database).tickets
                  relays := Table.keys_revised rfl fun _ _ => rfl }
      | _ =>
          cases executed
          exact .of_same rfl rfl

end Statements

theorem occurs_mints {before after : Service} {operation : Operation}
    {result : operation.Result}
    (occurs : network.Occurs before operation result after) :
    before.database.MintsNothing after.database ∨ ∃ statement guestId hostId worldId,
      operation = .statement statement ∧ statement.admits guestId hostId worldId ∧
      before.database.Mints guestId hostId worldId after.database := by
  cases operation with
  | statement statement =>
      rcases occurs_statement occurs with ⟨-, -, rfl⟩ | ⟨reply, database, -, executed, rfl⟩
      · exact .inl (.refl _)
      · rcases Statement.execute_mints executed with
          nothing | ⟨guestId, hostId, worldId, admits, mints⟩
        · exact .inl nothing
        · exact .inr ⟨statement, guestId, hostId, worldId, rfl, admits, mints⟩
  | _ =>
      rw [occurs_database (by simp) occurs]
      exact .inl (.refl _)

end Loontail
