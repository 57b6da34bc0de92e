import Loontail.Network.Frames
import Loontail.Relational.Evolution

/-! # What statements can do to the database

Each table's rows are revised in a few ways only, whichever statement runs and
whoever runs it. -/

namespace Loontail

open Relational Concurrency

/-! ## Revisions of a row -/

structure JoinTicket.Revises (earlier later : JoinTicket) : Prop where
  id : later.id = earlier.id
  userId : later.userId = earlier.userId
  tokenHash : later.tokenHash = earlier.tokenHash
  consumed : earlier.consumedAt.isSome = true → later.consumedAt.isSome = true

structure RelaySession.Revises (earlier later : RelaySession) : Prop where
  id : later.id = earlier.id
  worldSessionId : later.worldSessionId = earlier.worldSessionId
  hostUserId : later.hostUserId = earlier.hostUserId
  guestUserId : later.guestUserId = earlier.guestUserId
  closed : earlier.status = .closed → later.status = .closed

structure WorldSession.Revises (earlier later : WorldSession) : Prop where
  id : later.id = earlier.id
  hostUserId : later.hostUserId = earlier.hostUserId

/-- A join request leaves `pending` once, for a terminal status. -/
structure JoinRequest.Revises (earlier later : JoinRequest) : Prop where
  id : later.id = earlier.id
  requesterUserId : later.requesterUserId = earlier.requesterUserId
  hostUserId : later.hostUserId = earlier.hostUserId
  worldSessionId : later.worldSessionId = earlier.worldSessionId
  status : later.status = earlier.status ∨
    earlier.status = .pending ∧ terminalJoinRequest later.status = true

/-- An invite leaves the active statuses once, for a terminal status; while it
is active it can only be approved. -/
structure WorldInvite.Revises (earlier later : WorldInvite) : Prop where
  id : later.id = earlier.id
  worldSessionId : later.worldSessionId = earlier.worldSessionId
  hostUserId : later.hostUserId = earlier.hostUserId
  inviterUserId : later.inviterUserId = earlier.inviterUserId
  inviteeUserId : later.inviteeUserId = earlier.inviteeUserId
  status : later.status = earlier.status ∨
    earlier.status = .pendingApproval ∧ later.status = .pending ∨
    earlier.status.isActive = true ∧ terminalInvite later.status = true

theorem JoinTicket.Revises.refl (row : JoinTicket) : row.Revises row :=
  ⟨rfl, rfl, rfl, fun consumed => consumed⟩

theorem RelaySession.Revises.refl (row : RelaySession) : row.Revises row :=
  ⟨rfl, rfl, rfl, rfl, fun closed => closed⟩

theorem WorldSession.Revises.refl (row : WorldSession) : row.Revises row := ⟨rfl, rfl⟩

theorem JoinRequest.Revises.refl (row : JoinRequest) : row.Revises row :=
  ⟨rfl, rfl, rfl, rfl, .inl rfl⟩

theorem WorldInvite.Revises.refl (row : WorldInvite) : row.Revises row :=
  ⟨rfl, rfl, rfl, rfl, rfl, .inl rfl⟩

/-! ## Evolution of the database -/

structure Database.Evolves (old new : Database) : Prop where
  joinTickets : old.joinTickets.Evolves (fun ticket => ticket.consumedAt = none)
    JoinTicket.Revises new.joinTickets
  relaySessions : old.relaySessions.Evolves (fun relay => relay.status = .pending)
    RelaySession.Revises new.relaySessions
  worldSessions : old.worldSessions.Evolves (fun _ => True)
    WorldSession.Revises new.worldSessions
  joinRequests : old.joinRequests.Evolves (fun request => request.status = .pending)
    JoinRequest.Revises new.joinRequests
  worldInvites : old.worldInvites.Evolves (fun _ => True)
    WorldInvite.Revises new.worldInvites

namespace Database.Evolves

theorem refl (database : Database) : database.Evolves database where
  joinTickets := .refl .refl _
  relaySessions := .refl .refl _
  worldSessions := .refl .refl _
  joinRequests := .refl .refl _
  worldInvites := .refl .refl _

end Database.Evolves

namespace Sql

variable {now : Timestamp} {database after : Database}

theorem upsertWorld_evolves {hostUserId newId : Uuid} {maxPlayers : Int}
    {world : WorldSession}
    (executed : upsertWorld now hostUserId maxPlayers newId database = .ok (world, after)) :
    database.Evolves after := by
  unfold upsertWorld at executed
  split at executed
  · cases executed
    exact { Database.Evolves.refl database with
      worldSessions := .of_revised rfl rfl .refl fun _ _ => ⟨rfl, rfl⟩ }
  · dsimp only at executed
    split at executed
    · rename_i inserted
      cases executed
      exact { Database.Evolves.refl database with
        worldSessions := .insert .refl trivial inserted }
    · cases executed

theorem closeWorldCleanup_evolves {closing : Closing} {worldId hostId : Uuid}
    {world : WorldSession}
    (executed : closeWorldCleanup closing worldId hostId database = .ok (world, after)) :
    database.Evolves after := by
  unfold closeWorldCleanup at executed
  dsimp only at executed
  split at executed
  · cases executed
    exact { Database.Evolves.refl database with
      relaySessions := .of_revised rfl rfl .refl fun _ _ => ⟨rfl, rfl, rfl, rfl, fun _ => rfl⟩
      worldSessions := .of_revised rfl rfl .refl fun _ _ => ⟨rfl, rfl⟩ }
  · cases executed

private theorem trans_worlds {first second third : Table worldSessionLayout}
    (left : first.Evolves (fun _ => True) WorldSession.Revises second)
    (right : second.Evolves (fun _ => True) WorldSession.Revises third) :
    first.Evolves (fun _ => True) WorldSession.Revises third :=
  left.trans
    (fun _ _ _ one two => ⟨two.id.trans one.id, two.hostUserId.trans one.hostUserId⟩)
    (fun _ _ _ _ => trivial) (fun _ _ revised => revised.id) right

theorem updateWorld_evolves {id : Uuid} {maxPlayers : Int} {status : WorldStatus}
    {invitePolicy : InvitePolicy} {world : WorldSession}
    (executed : updateWorld now id maxPlayers status invitePolicy database =
      .ok (world, after)) : database.Evolves after := by
  unfold updateWorld at executed
  split at executed
  · cases executed
  · rename_i worldSessions claimed
    have claimedRows := Table.claim_rows claimed
    split at executed
    · cases executed
    · cases executed
      exact { Database.Evolves.refl database with
        worldSessions := .of_revised claimedRows.1 claimedRows.2 .refl
          fun _ _ => ⟨rfl, rfl⟩ }

theorem commitUpdate_evolves {closing : Closing} {id hostId : Uuid} {maxPlayers : Int}
    {invitePolicy : InvitePolicy} {world : WorldSession}
    (executed : commitUpdate closing id maxPlayers invitePolicy hostId database =
      .ok (world, after)) : database.Evolves after := by
  have cleaned := closeWorldCleanup_evolves executed
  refine { cleaned with worldSessions := trans_worlds ?_ cleaned.worldSessions }
  exact .of_revised rfl rfl .refl fun _ _ => ⟨rfl, rfl⟩

theorem commitClose_evolves {closing : Closing} {id hostId : Uuid} {shut : Bool}
    {world : WorldSession}
    (executed : commitClose closing id hostId shut database = .ok (world, after)) :
    database.Evolves after := by
  have cleaned := closeWorldCleanup_evolves executed
  refine { cleaned with worldSessions := trans_worlds ?_ cleaned.worldSessions }
  exact .of_revised rfl rfl .refl fun _ _ => ⟨rfl, rfl⟩

theorem consumeTicket_evolves (ticketId : Uuid) :
    database.Evolves (consumeTicket now ticketId database).2 :=
  { Database.Evolves.refl database with
    joinTickets := .of_revised rfl rfl .refl fun _ _ => ⟨rfl, rfl, rfl, fun _ => rfl⟩ }

theorem admitPlayer_evolves (worldId : Uuid) :
    database.Evolves (admitPlayer worldId database).2 :=
  { Database.Evolves.refl database with
    worldSessions := .of_revised rfl rfl .refl fun _ _ => ⟨rfl, rfl⟩ }

theorem releasePlayer_evolves (worldId : Uuid) :
    database.Evolves (releasePlayer worldId database).2 :=
  { Database.Evolves.refl database with
    worldSessions := .of_revised rfl rfl .refl fun _ _ => ⟨rfl, rfl⟩ }

theorem markRelayActive_evolves (id : Uuid) :
    database.Evolves (markRelayActive id database).2 :=
  { Database.Evolves.refl database with
    relaySessions := .of_revised rfl rfl .refl fun relay selected =>
      ⟨rfl, rfl, rfl, rfl, fun closed => by simp [closed] at selected⟩ }

theorem markRelayClosed_evolves (id : Uuid) :
    database.Evolves (markRelayClosed now id database).2 :=
  { Database.Evolves.refl database with
    relaySessions := .of_revised rfl rfl .refl fun _ _ =>
      ⟨rfl, rfl, rfl, rfl, fun _ => rfl⟩ }

/-! ### Join requests, invites and tickets -/

theorem issueTicketAndRelay_evolves {guestId hostId worldId : Uuid} {draw : TicketDraw}
    {tokenHash : String} {expiresAt : Timestamp} {context : TicketContext}
    (executed : issueTicketAndRelay now guestId hostId worldId draw tokenHash expiresAt
      database = .ok (context, after)) : database.Evolves after := by
  rcases issueTicketAndRelay_ok executed with
    ⟨world, joinTickets, relaySessions, -, ticketInserted, relayInserted, rfl⟩
  exact { Database.Evolves.refl database with
    joinTickets := .insert .refl rfl ticketInserted
    relaySessions := .insert .refl rfl relayInserted }

theorem settleJoinRequests_evolves {status : RequestStatus} (settled : status ≠ .pending)
    {selected : JoinRequest → Bool} (terminal : terminalJoinRequest status = true)
    (pending : ∀ request, selected request = true → request.status = .pending) :
    database.Evolves (settleJoinRequests now status settled selected database).2 :=
  { Database.Evolves.refl database with
    joinRequests := .of_revised rfl rfl .refl fun request chosen =>
      ⟨rfl, rfl, rfl, rfl, .inr ⟨pending request chosen, terminal⟩⟩ }

theorem settleInvites_evolves {status : RequestStatus}
    (settled : status.isActive = false) {selected : WorldInvite → Bool}
    (terminal : terminalInvite status = true)
    (active : ∀ invite, selected invite = true → invite.status.isActive = true) :
    database.Evolves (settleInvites now status settled selected database).2 :=
  { Database.Evolves.refl database with
    worldInvites := .of_revised rfl rfl .refl fun invite chosen =>
      ⟨rfl, rfl, rfl, rfl, rfl, .inr (.inr ⟨active invite chosen, terminal⟩)⟩ }

theorem insertJoinRequest_evolves {requester hostId worldId newId id : Uuid}
    {expiresAt : Timestamp}
    (executed : insertJoinRequest now requester hostId worldId expiresAt newId database =
      .ok (id, after)) : database.Evolves after := by
  unfold insertJoinRequest at executed
  split at executed
  · rename_i inserted
    cases executed
    exact { Database.Evolves.refl database with
      joinRequests := .insert .refl rfl inserted }
  · cases executed

theorem insertInvite_evolves {worldId hostId inviter invitee newId id : Uuid}
    {status : RequestStatus} {expiresAt : Timestamp}
    (executed : insertInvite now worldId hostId inviter invitee status expiresAt newId
      database = .ok (id, after)) : database.Evolves after := by
  unfold insertInvite at executed
  split at executed
  · split at executed
    · rename_i inserted
      cases executed
      exact { Database.Evolves.refl database with
        worldInvites := .insert .refl trivial inserted }
    · cases executed
  · cases executed

theorem approveInvite_evolves (id : Uuid) :
    database.Evolves (approveInvite now id database).2 :=
  { Database.Evolves.refl database with
    worldInvites := .of_revised rfl rfl .refl fun invite chosen =>
      ⟨rfl, rfl, rfl, rfl, rfl, .inr (.inl ⟨by simpa using (Bool.and_eq_true_iff.mp chosen).2,
        rfl⟩)⟩ }

theorem acceptJoinRequest_evolves {id guestId hostId worldId : Uuid} {draw : TicketDraw}
    {tokenHash : String} {expiresAt : Timestamp} {reply : Option TicketContext}
    (executed : acceptJoinRequest now id guestId hostId worldId draw tokenHash expiresAt
      database = .ok (reply, after)) : database.Evolves after := by
  have settled : database.Evolves (settleJoinRequests now .accepted (by decide)
      (fun request => request.id = id && request.status = .pending) database).2 :=
    settleJoinRequests_evolves (by decide) rfl fun request chosen => by
      simpa using (Bool.and_eq_true_iff.mp chosen).2
  rcases mintWhenSettled_ok executed with ⟨-, -, rfl⟩ | ⟨-, context, -, issued⟩
  · exact settled
  · have minted := issueTicketAndRelay_evolves issued
    rcases issueTicketAndRelay_ok issued with ⟨_, _, _, -, -, -, equal⟩
    subst equal
    exact { minted with joinRequests := settled.joinRequests }

theorem acceptInvite_evolves {id guestId hostId worldId : Uuid} {draw : TicketDraw}
    {tokenHash : String} {expiresAt : Timestamp} {reply : Option TicketContext}
    (executed : acceptInvite now id guestId hostId worldId draw tokenHash expiresAt
      database = .ok (reply, after)) : database.Evolves after := by
  have settled : database.Evolves (settleInvites now .accepted rfl
      (fun invite => invite.id = id && invite.status = .pending) database).2 :=
    settleInvites_evolves rfl rfl fun invite chosen => by
      have pending : invite.status = .pending := by
        simpa using (Bool.and_eq_true_iff.mp chosen).2
      rw [pending]
      rfl
  rcases mintWhenSettled_ok executed with ⟨-, -, rfl⟩ | ⟨-, context, -, issued⟩
  · exact settled
  · have minted := issueTicketAndRelay_evolves issued
    rcases issueTicketAndRelay_ok issued with ⟨_, _, _, -, -, -, equal⟩
    subst equal
    exact { minted with worldInvites := settled.worldInvites }

theorem deleteJoinTickets_evolves (retentionDays : Int) :
    database.Evolves (deleteJoinTickets now retentionDays database).2 :=
  { Database.Evolves.refl database with
    joinTickets := .delete .refl _ _
    relaySessions := .of_revised rfl rfl .refl fun _ _ =>
      ⟨rfl, rfl, rfl, rfl, fun closed => closed⟩ }

end Sql

/-! ### Every statement -/

section Statements

variable {now : Timestamp} {database after : Database}

theorem WorldStatement.execute_evolves {statement : WorldStatement}
    {reply : statement.Reply}
    (executed : statement.execute now database = .ok (reply, after)) :
    database.Evolves after := by
  cases statement with
  | upsert => exact Sql.upsertWorld_evolves executed
  | update => exact Sql.updateWorld_evolves executed
  | commitUpdate => exact Sql.commitUpdate_evolves executed
  | commitClose => exact Sql.commitClose_evolves executed
  | _ =>
      cases executed
      exact .refl database

theorem RelayStatement.execute_evolves {statement : RelayStatement}
    {reply : statement.Reply}
    (executed : statement.execute now database = .ok (reply, after)) :
    database.Evolves after := by
  cases statement with
  | consumeTicket ticketId =>
      cases executed
      exact Sql.consumeTicket_evolves ticketId
  | admitPlayer worldId =>
      cases executed
      exact Sql.admitPlayer_evolves worldId
  | releasePlayer worldId =>
      cases executed
      exact Sql.releasePlayer_evolves worldId
  | markActive id =>
      cases executed
      exact Sql.markRelayActive_evolves id
  | markClosed id =>
      cases executed
      exact Sql.markRelayClosed_evolves id
  | _ =>
      cases executed
      exact .refl database

theorem JoinStatement.execute_evolves {statement : JoinStatement}
    {reply : statement.Reply}
    (executed : statement.execute now database = .ok (reply, after)) :
    database.Evolves after := by
  cases statement with
  | issueTicket => exact Sql.issueTicketAndRelay_evolves executed
  | insert => exact Sql.insertJoinRequest_evolves executed
  | commitAccept => exact Sql.acceptJoinRequest_evolves executed
  | reclaim worldId requester =>
      cases executed
      refine Sql.settleJoinRequests_evolves (by decide) rfl fun request chosen => ?_
      simp only [Sql.joinRequestLapsed, Bool.and_eq_true, decide_eq_true_eq] at chosen
      exact chosen.2.1
  | decline id =>
      cases executed
      refine Sql.settleJoinRequests_evolves (by decide) rfl fun request chosen => ?_
      simpa using (Bool.and_eq_true_iff.mp chosen).2
  | _ =>
      cases executed
      exact .refl database

theorem InviteStatement.execute_evolves {statement : InviteStatement}
    {reply : statement.Reply}
    (executed : statement.execute now database = .ok (reply, after)) :
    database.Evolves after := by
  cases statement with
  | insert => exact Sql.insertInvite_evolves executed
  | commitAccept => exact Sql.acceptInvite_evolves executed
  | approve id =>
      cases executed
      exact Sql.approveInvite_evolves id
  | reclaim worldId invitee =>
      cases executed
      refine Sql.settleInvites_evolves rfl rfl fun invite chosen => ?_
      simp only [Sql.inviteLapsed, Bool.and_eq_true] at chosen
      exact chosen.2.1
  | decline id =>
      cases executed
      refine Sql.settleInvites_evolves rfl rfl fun invite chosen => ?_
      have pending : invite.status = .pending := by
        simpa using (Bool.and_eq_true_iff.mp chosen).2
      rw [pending]
      rfl
  | revoke id =>
      cases executed
      exact Sql.settleInvites_evolves rfl rfl fun invite chosen =>
        (Bool.and_eq_true_iff.mp chosen).2
  | _ =>
      cases executed
      exact .refl database

theorem MaintenanceStatement.execute_evolves {statement : MaintenanceStatement}
    {reply : statement.Reply}
    (executed : statement.execute now database = .ok (reply, after)) :
    database.Evolves after := by
  cases statement with
  | expireJoinRequests =>
      cases executed
      refine Sql.settleJoinRequests_evolves (by decide) rfl fun request chosen => ?_
      simp only [Sql.joinRequestLapsed, Bool.and_eq_true, decide_eq_true_eq] at chosen
      exact chosen.1
  | expireInvites =>
      cases executed
      exact Sql.settleInvites_evolves rfl rfl fun invite chosen =>
        (Bool.and_eq_true_iff.mp chosen).1
  | deleteJoinTickets retentionDays =>
      cases executed
      exact Sql.deleteJoinTickets_evolves retentionDays
  | deleteJoinRequests retentionDays =>
      cases executed
      exact { Database.Evolves.refl database with joinRequests := .delete .refl _ _ }
  | deleteInvites retentionDays =>
      cases executed
      exact { Database.Evolves.refl database with worldInvites := .delete .refl _ _ }
  | closeRelaySessions =>
      cases executed
      exact { Database.Evolves.refl database with
        relaySessions := .of_revised rfl rfl .refl fun _ _ =>
          ⟨rfl, rfl, rfl, rfl, fun _ => rfl⟩ }
  | resetPlayers =>
      cases executed
      exact { Database.Evolves.refl database with
        worldSessions := .of_revised rfl rfl .refl fun _ _ => ⟨rfl, rfl⟩ }

theorem Statement.execute_evolves {statement : Statement} {reply : statement.Reply}
    (executed : statement.execute now database = .ok (reply, after)) :
    database.Evolves after := by
  cases statement with
  | world => exact WorldStatement.execute_evolves executed
  | relay => exact RelayStatement.execute_evolves executed
  | friend =>
      rcases FriendStatement.execute_frame executed with ⟨_, _, rfl⟩
      exact { Database.Evolves.refl database with }
  | presence =>
      rcases PresenceStatement.execute_frame executed with ⟨_, _, rfl⟩
      exact { Database.Evolves.refl database with }
  | join => exact JoinStatement.execute_evolves executed
  | invite => exact InviteStatement.execute_evolves executed
  | maintenance => exact MaintenanceStatement.execute_evolves executed

end Statements

theorem occurs_evolves {before after : Service} {operation : Operation}
    {result : operation.Result}
    (occurs : network.Occurs before operation result after) :
    before.database.Evolves after.database := by
  cases operation with
  | statement statement =>
      rcases occurs_statement occurs with ⟨-, -, rfl⟩ | ⟨reply, database, -, executed, rfl⟩
      · exact .refl _
      · exact Statement.execute_evolves executed
  | _ =>
      rw [occurs_database (by simp) occurs]
      exact .refl _

end Loontail
