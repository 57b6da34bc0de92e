import Loontail.Guarantees.RequestLifecycle
import Loontail.Network.Findings
import Loontail.Network.Minting

/-! # Who is let into a world

Three requests mint a ticket. Two of them act on a row written earlier, so what
they rely on is an invariant of the rows: they name the host of their world. -/

namespace Loontail

open Concurrency Relational

/-! ## The rows name their host -/

/-- The world exists and, whatever becomes of it, `hostId` is its host. -/
structure Database.HostedBy (database : Database) (worldId hostId : Uuid) : Prop where
  issued : worldId ∈ database.worldSessions.issued
  host : ∀ world, database.worldSessions.find worldId = some world →
    world.hostUserId = hostId

/-- Join requests and invites are about another player than the host of their world. -/
structure Database.NamesHosts (database : Database) : Prop where
  joinRequests : ∀ request ∈ database.joinRequests.rows,
    request.requesterUserId ≠ request.hostUserId ∧
      database.HostedBy request.worldSessionId request.hostUserId
  worldInvites : ∀ invite ∈ database.worldInvites.rows,
    invite.inviteeUserId ≠ invite.hostUserId ∧
      database.HostedBy invite.worldSessionId invite.hostUserId

namespace Database.HostedBy

variable {old new : Database} {worldId hostId : Uuid}

theorem evolves (hosted : old.HostedBy worldId hostId) (evolves : old.Evolves new) :
    new.HostedBy worldId hostId where
  issued := evolves.worldSessions.issued worldId hosted.issued
  host := by
    intro world found
    rcases evolves.worldSessions.find (fun _ _ revised => revised.id) hosted.issued found with
      ⟨earlier, present, revised⟩
    rw [revised.hostUserId]
    exact hosted.host earlier present

theorem of_found {world : WorldSession}
    (found : old.worldSessions.find worldId = some world) (host : world.hostUserId = hostId) :
    old.HostedBy worldId hostId where
  issued := Table.issued_of_find found
  host := by
    intro other present
    rw [Option.some.inj (present.symm.trans found)]
    exact host

end Database.HostedBy

theorem Database.NamesHosts.event {state : AppState} {request : Request}
    {before after : Service} {operation : Operation} {result : operation.Result}
    (names : before.database.NamesHosts)
    (finds : request.finds state before.moment operation)
    (occurs : network.Occurs before operation result after) : after.database.NamesHosts := by
  have evolves := occurs_evolves occurs
  constructor
  · intro row member
    rcases occurs_joinRequests occurs with same | ⟨statement, rfl, revised⟩
    · rcases names.joinRequests row (same ▸ member) with ⟨other, hosted⟩
      exact ⟨other, hosted.evolves evolves⟩
    · rcases revised row member with ⟨earlier, present, rfl⟩ | ⟨-, inserted⟩
      · rcases names.joinRequests earlier present with ⟨other, hosted⟩
        rcases Statement.reviseJoinRequest_columns before.clock earlier statement with
          ⟨status, updatedAt, columns⟩
        simp only [columns]
        exact ⟨other, hosted.evolves evolves⟩
      · unfold Statement.insertsJoinRequest at inserted
        split at inserted
        · rcases finds with ⟨other, world, found, host⟩
          rw [inserted]
          exact ⟨other, (HostedBy.of_found found host).evolves evolves⟩
        · exact inserted.elim
  · intro row member
    rcases occurs_invites occurs with same | ⟨statement, rfl, revised⟩
    · rcases names.worldInvites row (same ▸ member) with ⟨other, hosted⟩
      exact ⟨other, hosted.evolves evolves⟩
    · rcases revised row member with ⟨earlier, present, rfl⟩ | ⟨-, inserted⟩
      · rcases names.worldInvites earlier present with ⟨other, hosted⟩
        rcases Statement.reviseInvite_columns before.clock earlier statement with
          ⟨status, updatedAt, columns⟩
        simp only [columns]
        exact ⟨other, hosted.evolves evolves⟩
      · unfold Statement.insertsInvite at inserted
        split at inserted
        · rcases inserted with ⟨notSelf, rfl⟩
          rcases finds with ⟨other, -, world, found, host⟩
          exact ⟨other, (HostedBy.of_found found host).evolves evolves⟩
        · exact inserted.elim

theorem Database.NamesHosts.traced {state : AppState} {start final : Service}
    {history : List (Event network)} (names : start.database.NamesHosts)
    (traced : @Traced network start history final)
    (found : ∀ event ∈ history, ∃ request : Request,
      request.finds state event.before.moment event.operation) :
    final.database.NamesHosts := by
  refine @Traced.invariant network _ _ _ (fun _ service => service.database.NamesHosts) traced
    names fun event older suffix happened holds => ?_
  rcases found event (suffix.subset List.mem_cons_self) with ⟨request, finds⟩
  exact holds.event finds happened

/-! ## Authority -/

def Minted (event : Event network) (ticket : JoinTicket) : Prop :=
  ticket ∈ event.after.database.joinTickets.rows ∧
    ticket.id ∉ event.before.database.joinTickets.issued

/-- The host's own approval lets in a stranger who knows a live guest. -/
def ByHost (state : AppState) (request : Request) (moment : Moment) (guestId : Uuid)
    (world : WorldSession) : Prop :=
  (∃ id draw, request = .acceptJoinRequest world.hostUserId id draw) ∧
  world.invitePolicy = .friendsOfFriends ∧
  ∃ member, Sql.isLiveMember moment.clock state.config.heartbeatTimeout world.id member
      moment.database = true ∧
    moment.database.areFriends member guestId = true

/-- An invite lets in its invitee: the host's own, or that of a friend of the
host who is a friend of the invitee. -/
def ByInvite (request : Request) (moment : Moment) (guestId : Uuid) (world : WorldSession) :
    Prop :=
  ∃ id draw invite, request = .acceptInvite guestId id draw ∧
    moment.database.worldInvites.find id = some invite ∧
    invite.worldSessionId = world.id ∧ invite.inviteeUserId = guestId ∧
    (invite.inviterUserId = world.hostUserId ∨
      invite.inviterUserId ≠ world.hostUserId ∧ world.invitePolicy = .friendsOfFriends ∧
      moment.database.areFriends invite.inviterUserId world.hostUserId = true ∧
      moment.database.areFriends invite.inviterUserId guestId = true)

structure Authorised (state : AppState) (request : Request) (event : Event network)
    (ticket : JoinTicket) (world : WorldSession) : Prop where
  hasRoom : event.before.moment.HasRoom ticket.worldSessionId world
  notHost : ticket.userId ≠ world.hostUserId
  relay : ∃ relay ∈ event.after.database.relaySessions.rows,
    relay.id ∉ event.before.database.relaySessions.issued ∧
      relay.joinTicketId = some ticket.id ∧ relay.guestUserId = some ticket.userId ∧
      relay.worldSessionId = world.id ∧ relay.hostUserId = world.hostUserId
  known : event.before.database.areFriends ticket.userId world.hostUserId = true ∨
    ByHost state request event.before.moment ticket.userId world ∨
    ByInvite request event.before.moment ticket.userId world

theorem minted_admits {event : Event network} {ticket : JoinTicket}
    (happened : event.Happened) (minted : Minted event ticket) :
    ∃ statement hostId, event.operation = .statement statement ∧
      statement.admits ticket.userId hostId ticket.worldSessionId ∧
      ∃ relay ∈ event.after.database.relaySessions.rows,
        relay.id ∉ event.before.database.relaySessions.issued ∧
          relay.joinTicketId = some ticket.id ∧ relay.guestUserId = some ticket.userId ∧
          relay.worldSessionId = ticket.worldSessionId ∧ relay.hostUserId = hostId := by
  rcases occurs_mints happened with nothing | ⟨statement, guest, host, world, made, admits, mints⟩
  · exact (minted.2 (nothing.tickets ticket minted.1)).elim
  · rcases mints.rows with ⟨fresh, relay, tickets, relays, -, unissued, rfl, rfl, ofWorld,
      ofHost, ofGuest, ofTicket⟩
    have same : ticket = fresh := by
      have member := minted.1
      rw [tickets] at member
      rcases List.mem_cons.mp member with same | old
      · exact same
      · exact (minted.2 (event.before.database.joinTickets.keysIssued ticket old)).elim
    subst same
    refine ⟨statement, host, made, admits, relay, ?_, unissued, ofTicket, ofGuest, ofWorld,
      ofHost⟩
    rw [relays]
    exact List.mem_cons_self

theorem Moment.HasRoom.id {moment : Moment} {worldId : Uuid} {world : WorldSession}
    (room : moment.HasRoom worldId world) : world.id = worldId :=
  (Table.find_eq_some.mp room.found).2

theorem byMember {now : Timestamp} {timeout : Nat} {guestId worldId : Uuid}
    {database : Database}
    (known : Sql.isFriendOfActiveMember now timeout guestId worldId database = true) :
    ∃ member, Sql.isLiveMember now timeout worldId member database = true ∧
      database.areFriends member guestId = true := by
  rcases List.any_eq_true.mp known with ⟨member, -, both⟩
  exact ⟨member, Bool.and_eq_true_iff.mp both⟩

/-- Where the rows name their hosts and the checks hold, a guest is authorised. -/
theorem authorised_of_minted {state : AppState} {request : Request} {event : Event network}
    {ticket : JoinTicket} (names : event.before.database.NamesHosts)
    (finds : request.finds state event.before.moment event.operation)
    (happened : event.Happened) (minted : Minted event ticket) :
    ∃ world, Authorised state request event ticket world := by
  rcases minted_admits happened minted with ⟨statement, hostId, made, admits, relay, member,
    unissued, ofTicket, ofGuest, ofWorld, ofHost⟩
  have relays : ∀ world : WorldSession, world.id = ticket.worldSessionId →
      world.hostUserId = hostId →
      ∃ relay ∈ event.after.database.relaySessions.rows,
        relay.id ∉ event.before.database.relaySessions.issued ∧
          relay.joinTicketId = some ticket.id ∧ relay.guestUserId = some ticket.userId ∧
          relay.worldSessionId = world.id ∧ relay.hostUserId = world.hostUserId :=
    fun world here host => ⟨relay, member, unissued, ofTicket, ofGuest,
      ofWorld.trans here.symm, ofHost.trans host.symm⟩
  rw [made] at finds
  unfold Statement.admits at admits
  split at admits
  · rcases admits with ⟨rfl, rfl, rfl⟩
    rcases finds with ⟨notHost, friends, world, room, rfl⟩
    exact ⟨world, room, notHost, relays world room.id rfl, .inl friends⟩
  · rcases admits with ⟨rfl, rfl, rfl⟩
    rcases finds with
      ⟨byHost, ⟨row, found, requester, host, ofRow⟩, world, room, known⟩
    rcases names.joinRequests row (Table.find_eq_some.mp found).1 with ⟨other, hosted⟩
    rw [requester, host] at other
    rw [host, ofRow] at hosted
    have worldHost := hosted.host world room.found
    refine ⟨world, room, worldHost ▸ other, relays world room.id worldHost, ?_⟩
    rw [worldHost]
    rcases known with friends | ⟨policy, viaMember⟩
    · exact .inl friends
    · rcases byHost with ⟨draw, made⟩
      exact .inr (.inl ⟨⟨_, draw, worldHost ▸ made⟩, policy, byMember viaMember⟩)
  · rcases admits with ⟨rfl, rfl, rfl⟩
    rcases finds with ⟨⟨draw, made⟩, invite, ⟨found, invitee, host, ofInvite, -⟩, world, room,
      known⟩
    rcases names.worldInvites invite (Table.find_eq_some.mp found).1 with ⟨other, hosted⟩
    rw [invitee, host] at other
    rw [host, ofInvite] at hosted
    have worldHost := hosted.host world room.found
    refine ⟨world, room, worldHost ▸ other, relays world room.id worldHost, .inr (.inr
      ⟨_, draw, invite, made, found, ofInvite.trans room.id.symm, invitee, ?_⟩)⟩
    rw [← worldHost] at known
    by_cases own : invite.inviterUserId = world.hostUserId
    · exact .inl own
    · rcases known with host | ⟨policy, trusted, friends⟩
      · exact .inl host
      · refine .inr ⟨own, policy, ?_, friends⟩
        rw [Database.areFriends_comm]
        exact trusted
  · exact admits.elim

/-- Whenever a ticket is minted its guest is authorised, in every run whose
checking requests are handled at once. -/
theorem tickets_authorised (state : AppState) (database : Database) (clock : Timestamp)
    (names : database.NamesHosts) {turns : List (Turn Request)}
    {final : Pool network Request (Except AppError Reply)}
    (whole : ∀ turn ∈ turns, handlesWhole turn = true)
    (reached : run (Pool.turn (handle state)) (.initial (.boot database clock)) turns =
      some final) :
    ∀ event ∈ final.history, ∀ ticket, Minted event ticket →
      ∃ request world, final.owner event.process = some request ∧
        Authorised state request event ticket world := by
  intro event member ticket minted
  have found := (found_of_turns whole reached).events
  rcases suffix_of_mem member with ⟨older, suffix⟩
  rcases (Pool.traced_of_turns reached).of_suffix suffix with ⟨traced, happened⟩
  have namesBefore : event.before.database.NamesHosts := by
    refine @Database.NamesHosts.traced state _ _ _ names traced fun earlier present => ?_
    rcases found earlier (suffix.subset (List.mem_cons_of_mem _ present)) with
      ⟨request, -, finds⟩
    exact ⟨request, finds⟩
  rcases found event member with ⟨request, owned, finds⟩
  rcases authorised_of_minted namesBefore finds happened minted with ⟨world, authorised⟩
  exact ⟨request, world, owned, authorised⟩

theorem invitedDatabase_namesHosts : invitedDatabase.NamesHosts where
  joinRequests := by simp [invitedDatabase, Database.empty, Table.empty]
  worldInvites := by
    intro invite member
    cases List.mem_singleton.mp member
    exact ⟨by decide, .of_found rfl rfl⟩

theorem tickets_authorised_invited :
    ∃ final, run (Pool.turn (handle plainState)) (.initial (.boot invitedDatabase 0))
        [.atomically (.acceptInvite 2 7 ⟨"token", 8, 9⟩) []] = some final ∧
      ∃ event ∈ final.history, ∃ ticket, Minted event ticket ∧
        ∃ request world, final.owner event.process = some request ∧
          Authorised plainState request event ticket world := by
  have minted : ((run (Pool.turn (handle plainState)) (.initial (.boot invitedDatabase 0))
      [.atomically (.acceptInvite 2 7 ⟨"token", 8, 9⟩) []]).map fun final =>
        decide (∃ event ∈ final.history, ∃ ticket ∈ event.after.database.joinTickets.rows,
          ticket.id ∉ event.before.database.joinTickets.issued)) = some true := by decide
  rcases Option.map_eq_some_iff.mp minted with ⟨final, reached, some⟩
  rcases of_decide_eq_true some with ⟨event, member, ticket, present, fresh⟩
  exact ⟨final, reached, event, member, ticket, ⟨present, fresh⟩,
    tickets_authorised plainState invitedDatabase 0 invitedDatabase_namesHosts (by decide)
      reached event member ticket ⟨present, fresh⟩⟩

end Loontail
