import Loontail.Guarantees.Admission

/-! # Whose approval a guest's invite has

A friend of the host may invite a friend of their own. Whether the host has to
approve is decided once, by the friends the host has at that moment, so it is
right at a later moment only if the host's friendship has lasted. -/

namespace Loontail

open Concurrency Relational Network

/-! ## Friendships -/

def Operation.severs (left right : Uuid) : Operation → Bool
  | .statement (.friend (.remove one other)) =>
      min one other = min left right && max one other = max left right
  | _ => false

section Friendships

variable {now : Timestamp} {database after : Database} {left right : Uuid}

theorem Database.areFriends_of_rows
    (kept : ∀ friendship ∈ database.friendships.rows, friendship ∈ after.friendships.rows)
    (friends : database.areFriends left right = true) : after.areFriends left right = true := by
  rcases List.any_eq_true.mp friends with ⟨friendship, member, pair⟩
  exact List.any_eq_true.mpr ⟨friendship, kept friendship member, pair⟩

theorem Sql.insertFriendship_areFriends {one other newId : Uuid} {reply : Unit}
    (executed : insertFriendship one other newId database = .ok (reply, after))
    (friends : database.areFriends left right = true) : after.areFriends left right = true := by
  unfold insertFriendship at executed
  split at executed
  · cases executed
    exact friends
  · split at executed
    · split at executed
      · rename_i inserted
        cases executed
        refine Database.areFriends_of_rows (fun friendship member => ?_) friends
        exact (Table.mem_insert inserted).mpr (.inr member)
      · cases executed
    · cases executed

theorem Sql.removeFriendship_areFriends {one other : Uuid}
    (friends : database.areFriends left right = true) :
    (removeFriendship one other database).2.areFriends left right = true ∨
      (min one other = min left right && max one other = max left right) = true := by
  rcases List.any_eq_true.mp friends with ⟨friendship, member, pair⟩
  cases removed : friendship.userAId = min one other && friendship.userBId = max one other with
  | false =>
      exact .inl (List.any_eq_true.mpr
        ⟨friendship, Table.mem_delete.mpr ⟨member, removed⟩, pair⟩)
  | true =>
      simp only [Bool.and_eq_true, decide_eq_true_eq] at pair removed ⊢
      exact .inr ⟨removed.1.symm.trans pair.1, removed.2.symm.trans pair.2⟩

theorem Statement.execute_areFriends {statement : Statement} {reply : statement.Reply}
    (executed : statement.execute now database = .ok (reply, after))
    (friends : database.areFriends left right = true) :
    after.areFriends left right = true ∨
      (Operation.statement statement).severs left right = true := by
  cases statement with
  | world =>
      rcases WorldStatement.execute_frame executed with ⟨_, _, _, rfl⟩
      exact .inl friends
  | relay =>
      rcases RelayStatement.execute_frame executed with ⟨_, _, _, rfl⟩
      exact .inl friends
  | presence =>
      rcases PresenceStatement.execute_frame executed with ⟨_, _, rfl⟩
      exact .inl friends
  | join =>
      rcases JoinStatement.execute_frame executed with ⟨_, _, _, rfl⟩
      exact .inl friends
  | invite =>
      rcases InviteStatement.execute_frame executed with ⟨_, _, _, rfl⟩
      exact .inl friends
  | maintenance =>
      rcases MaintenanceStatement.execute_frame executed with ⟨_, _, _, _, _, rfl⟩
      exact .inl friends
  | friend statement =>
      cases statement with
      | insertRequest fromUserId toUserId newId =>
          simp only [Statement.execute, FriendStatement.execute, Sql.insertFriendRequest]
            at executed
          split at executed
          · split at executed
            · cases executed
              exact .inl friends
            · cases executed
          · cases executed
      | commitAccept transaction id fromUserId toUserId newId =>
          exact .inl (Sql.insertFriendship_areFriends executed friends)
      | remove one other =>
          cases executed
          exact Sql.removeFriendship_areFriends friends
      | _ =>
          cases executed
          exact .inl friends

end Friendships

theorem occurs_areFriends {before after : Service} {operation : Operation}
    {result : operation.Result} {left right : Uuid}
    (occurs : network.Occurs before operation result after)
    (friends : before.database.areFriends left right = true) :
    after.database.areFriends left right = true ∨ operation.severs left right = true := by
  cases operation with
  | statement statement =>
      rcases occurs_statement occurs with ⟨-, -, rfl⟩ | ⟨reply, database, -, executed, rfl⟩
      · exact .inl friends
      · exact Statement.execute_areFriends executed friends
  | _ =>
      rw [occurs_database (by simp) occurs]
      exact .inl friends

/-! ## Approval -/

/-- The host released the invite: the event made it pending. -/
structure Approves (owner : Nat → Option Request) (hostId id : Uuid) (event : Event network) :
    Prop where
  byHost : owner event.process = some (.approveInvite hostId id)
  waited : inviteDocket.status event.before.database id = some .pendingApproval
  released : inviteDocket.status event.after.database id = some .pending

instance Approves.decidable (owner : Nat → Option Request) (hostId id : Uuid)
    (event : Event network) : Decidable (Approves owner hostId id event) :=
  decidable_of_iff (owner event.process = some (.approveInvite hostId id) ∧
      inviteDocket.status event.before.database id = some .pendingApproval ∧
      inviteDocket.status event.after.database id = some .pending)
    ⟨fun parts => ⟨parts.1, parts.2.1, parts.2.2⟩,
      fun approves => ⟨approves.byHost, approves.waited, approves.released⟩⟩

/-- A guest issued the invite, and its invitee may accept it. -/
structure WorldInvite.Acceptable (invite : WorldInvite) (now : Timestamp) : Prop where
  byGuest : invite.inviterUserId ≠ invite.hostUserId
  pending : invite.status = .pending
  unlapsed : now < invite.expiresAt

def Consented (owner : Nat → Option Request) (history : List (Event network))
    (database : Database) (hostId : Uuid) (invite : WorldInvite) : Prop :=
  database.areFriends hostId invite.inviteeUserId = true ∨
    ∃ approval ∈ history, Approves owner hostId invite.id approval

/-- Whenever a guest's invite brings a ticket, the host of the world consented. -/
def HostConsents (final : Pool network Request (Except AppError Reply)) : Prop :=
  ∀ event older, event :: older <:+ final.history → ∀ ticket, Minted event ticket → ∀ id,
    inviteDocket.accepts id event.operation = true →
    ∃ invite world, event.before.database.worldInvites.find id = some invite ∧
      event.before.database.worldSessions.find invite.worldSessionId = some world ∧
      (invite.inviterUserId ≠ world.hostUserId →
        Consented final.owner older event.before.database world.hostUserId invite)

/-- The operation does not sever the host from the invitee of an invite that the
host never approved and that may yet be accepted. -/
def SparesInvitees (owner : Nat → Option Request) (history : List (Event network))
    (event : Event network) : Prop :=
  ∀ invite ∈ event.before.database.worldInvites.rows,
    invite.Acceptable event.before.clock →
    event.operation.severs invite.hostUserId invite.inviteeUserId = true →
    ∃ approval ∈ history, Approves owner invite.hostUserId invite.id approval

def InvitesConsented (owner : Nat → Option Request) (history : List (Event network))
    (service : Service) : Prop :=
  ∀ invite ∈ service.database.worldInvites.rows, invite.Acceptable service.clock →
    Consented owner history service.database invite.hostUserId invite

/-- Only the host's approval makes an invite pending that was not. -/
theorem Statement.reviseInvite_pending {now : Timestamp} {statement : Statement}
    {invite : WorldInvite} (pending : (statement.reviseInvite now invite).status = .pending) :
    invite.status = .pending ∨
      statement = .invite (.approve invite.id) ∧ invite.status = .pendingApproval := by
  unfold reviseInvite at pending
  split at pending <;> try split at pending
  case h_4.isTrue chosen =>
    rcases chosen with ⟨rfl, waited⟩
    exact .inr ⟨rfl, waited⟩
  all_goals first
    | exact .inl pending
    | exact nomatch pending

theorem inviteDocket_status {database : Database} {invite : WorldInvite}
    (member : invite ∈ database.worldInvites.rows) :
    inviteDocket.status database invite.id = some invite.status :=
  congrArg (Option.map WorldInvite.status) (Table.find_eq_some.mpr ⟨member, rfl⟩)

/-- Consent outlasts every event that spares the invitees. -/
theorem InvitesConsented.event {state : AppState} {owner : Nat → Option Request}
    {history : List (Event network)} {event : Event network} {request : Request}
    (consented : InvitesConsented owner history event.before)
    (owned : owner event.process = some request)
    (finds : request.finds state event.before.moment event.operation)
    (happened : event.Happened) (spares : SparesInvitees owner history event) :
    InvitesConsented owner (event :: history) event.after := by
  -- an invite that was acceptable before keeps the consent it had
  have keeps : ∀ invite ∈ event.before.database.worldInvites.rows,
      invite.Acceptable event.before.clock →
      Consented owner (event :: history) event.after.database invite.hostUserId invite := by
    intro invite member acceptable
    rcases consented invite member acceptable with friends | ⟨approval, earlier, approves⟩
    · rcases occurs_areFriends happened friends with friends | severs
      · exact .inl friends
      · rcases spares invite member acceptable severs with ⟨approval, earlier, approves⟩
        exact .inr ⟨approval, List.mem_cons_of_mem _ earlier, approves⟩
    · exact .inr ⟨approval, List.mem_cons_of_mem _ earlier, approves⟩
  have unlapsed : ∀ expiresAt, event.after.clock < expiresAt →
      event.before.clock < expiresAt :=
    fun _ => lt_of_le_of_lt (occurs_clock happened)
  intro row member acceptable
  rcases occurs_invites happened with same | ⟨statement, made, revised⟩
  · exact keeps row (same ▸ member)
      ⟨acceptable.byGuest, acceptable.pending, unlapsed _ acceptable.unlapsed⟩
  · rcases revised row member with ⟨invite, present, rfl⟩ | ⟨-, inserted⟩
    · rcases Statement.reviseInvite_columns event.before.clock invite statement with
        ⟨status, updatedAt, columns⟩
      rcases Statement.reviseInvite_pending acceptable.pending with pending | ⟨approve, waited⟩
      · simp only [columns] at acceptable ⊢
        exact keeps invite present
          ⟨acceptable.byGuest, pending, unlapsed _ acceptable.unlapsed⟩
      · -- the event is the approval of this invite, by the host of its row
        right
        refine ⟨event, List.mem_cons_self, ?_, ?_, ?_⟩
        · rw [made, approve] at finds
          rcases finds with ⟨row, found, byHost⟩
          have only := Option.some.inj
            (found.symm.trans (Table.find_eq_some.mpr ⟨present, rfl⟩))
          rw [owned, byHost, only]
          simp only [columns]
        · rw [Statement.reviseInvite_id, inviteDocket_status present, waited]
        · rw [inviteDocket_status member, acceptable.pending]
    · unfold Statement.insertsInvite at inserted
      split at inserted
      · rcases inserted with ⟨notSelf, rfl⟩
        rw [made] at finds
        rcases finds with ⟨-, friends, -⟩
        rcases occurs_areFriends happened (friends acceptable.pending) with friends | severs
        · exact .inl friends
        · rw [made] at severs
          cases severs
      · exact inserted.elim

theorem consented_of_accepted {state : AppState} {owner : Nat → Option Request}
    {older : List (Event network)} {event : Event network} {request : Request}
    {id : Uuid} (names : event.before.database.NamesHosts)
    (consented : InvitesConsented owner older event.before)
    (finds : request.finds state event.before.moment event.operation)
    (accepts : inviteDocket.accepts id event.operation = true) :
    ∃ invite world, event.before.database.worldInvites.find id = some invite ∧
      event.before.database.worldSessions.find invite.worldSessionId = some world ∧
      (invite.inviterUserId ≠ world.hostUserId →
        Consented owner older event.before.database world.hostUserId invite) := by
  rcases event with ⟨process, before, operation, result, after⟩
  simp only [inviteDocket, Docket.of] at accepts
  split at accepts
  · have same := of_decide_eq_true accepts
    subst same
    rcases finds with ⟨-, invite, ⟨found, -, -, ofWorld, pending, unlapsed⟩, world, room, -⟩
    have member := (Table.find_eq_some.mp found).1
    rcases names.worldInvites invite member with ⟨-, hosted⟩
    rw [ofWorld] at hosted
    have host := hosted.host world room.found
    refine ⟨invite, world, found, ofWorld ▸ room.found, fun byGuest => ?_⟩
    rw [host] at byGuest ⊢
    exact consented invite member ⟨byGuest, pending, unlapsed⟩
  · cases accepts

/-- Whenever a guest's invite is accepted the host consents, in every run that
spares the invitees. -/
theorem guests_consented (state : AppState) (database : Database) (clock : Timestamp)
    (names : database.NamesHosts)
    (befriended : ∀ invite ∈ database.worldInvites.rows, invite.Acceptable clock →
      database.areFriends invite.hostUserId invite.inviteeUserId = true)
    {turns : List (Turn Request)} {final : Pool network Request (Except AppError Reply)}
    (whole : ∀ turn ∈ turns, handlesWhole turn = true)
    (reached : run (Pool.turn (handle state)) (.initial (.boot database clock)) turns =
      some final)
    (spares : ∀ event older, event :: older <:+ final.history →
      SparesInvitees final.owner older event) : HostConsents final := by
  have found := (found_of_turns whole reached).events
  intro event older suffix ticket _ id accepts
  rcases (Pool.traced_of_turns reached).of_suffix suffix with ⟨traced, -⟩
  have earlier : ∀ past ∈ older, ∃ request, final.owner past.process = some request ∧
      request.finds state past.before.moment past.operation :=
    fun past present => found past (suffix.subset (List.mem_cons_of_mem _ present))
  have namesBefore : event.before.database.NamesHosts :=
    names.traced traced fun past present => (earlier past present).imp fun _ => And.right
  have consentedBefore : InvitesConsented final.owner older event.before := by
    refine @Traced.invariant network _ _ _ (InvitesConsented final.owner) traced ?_ ?_
    · intro invite member acceptable
      exact .inl (befriended invite member acceptable)
    · intro past before within happened holds
      rcases earlier past (within.subset List.mem_cons_self) with ⟨request, owned, finds⟩
      exact holds.event owned finds happened
        (spares past before (within.trans ((List.suffix_cons _ _).trans suffix)))
  rcases found event (suffix.subset List.mem_cons_self) with ⟨request, -, finds⟩
  exact consented_of_accepted namesBefore consentedBefore finds accepts

def circleDatabase : Database :=
  { Database.empty with
    users := {
      rows := [{ id := 5, minecraftUuid := none, username := "host", accountType := none,
                 xuid := none, clientId := none, blocked := false, lastSeenAt := 0,
                 updatedAt := 0 },
               { id := 2, minecraftUuid := none, username := "guest", accountType := none,
                 xuid := none, clientId := none, blocked := false, lastSeenAt := 0,
                 updatedAt := 0 },
               { id := 6, minecraftUuid := none, username := "friend", accountType := none,
                 xuid := none, clientId := none, blocked := false, lastSeenAt := 0,
                 updatedAt := 0 }]
      issued := [5, 2, 6]
      keysUnique := by decide
      slotsUnique := by decide
      keysIssued := by decide }
    friendships := {
      rows := [{ id := 11, userAId := 2, userBId := 5, ordered := by decide },
               { id := 12, userAId := 2, userBId := 6, ordered := by decide },
               { id := 13, userAId := 5, userBId := 6, ordered := by decide }]
      issued := [11, 12, 13]
      keysUnique := by decide
      slotsUnique := by decide
      keysIssued := by decide }
    worldSessions := {
      rows := [{ id := 3, hostUserId := 5, status := .open, maxPlayers := 1,
                 currentPlayers := 0, invitePolicy := .friendsOfFriends, createdAt := 0,
                 closedAt := none }]
      issued := [3]
      keysUnique := by decide
      slotsUnique := by decide
      keysIssued := by decide } }

theorem circleDatabase_namesHosts : circleDatabase.NamesHosts := by
  constructor <;> simp [circleDatabase, Database.empty, Table.empty]

/-- Only removals of friends can fail to spare an invitee. -/
theorem spares_of_purpose {owner : Nat → Option Request} {history : List (Event network)}
    {event : Event network} (other : event.operation.purpose ≠ .removeFriend) :
    SparesInvitees owner history event := by
  intro invite member acceptable severs
  unfold Operation.severs at severs
  split at severs
  · rename_i removes
    rw [removes] at other
    exact (other rfl).elim
  · cases severs

/-- The friend invites the guest, who accepts. -/
theorem guests_consented_circle :
    ∃ final, run (Pool.turn (handle plainState)) (.initial (.boot circleDatabase 0))
        [.atomically (.createInvite 6 3 2 7) [],
         .atomically (.acceptInvite 2 7 ⟨"token", 8, 9⟩) []] = some final ∧
      (∃ event ∈ final.history, ∃ ticket, Minted event ticket) ∧ HostConsents final := by
  have minted : ((run (Pool.turn (handle plainState)) (.initial (.boot circleDatabase 0))
      [.atomically (.createInvite 6 3 2 7) [],
       .atomically (.acceptInvite 2 7 ⟨"token", 8, 9⟩) []]).map fun final =>
        decide ((∃ event ∈ final.history, ∃ ticket ∈ event.after.database.joinTickets.rows,
          ticket.id ∉ event.before.database.joinTickets.issued) ∧
          ∀ event ∈ final.history, event.operation.purpose ≠ .removeFriend)) =
        some true := by
    decide +kernel
  rcases Option.map_eq_some_iff.mp minted with ⟨final, reached, both⟩
  rcases of_decide_eq_true both with ⟨⟨event, member, ticket, present, fresh⟩, others⟩
  refine ⟨final, reached, ⟨event, member, ticket, present, fresh⟩, ?_⟩
  refine guests_consented plainState circleDatabase 0 circleDatabase_namesHosts ?_ (by decide)
    reached fun event older suffix => ?_
  · simp [circleDatabase, Database.empty, Table.empty]
  · exact spares_of_purpose (others event (suffix.subset List.mem_cons_self))

/-- The host unfriends the guest between the invite and its acceptance. -/
theorem guests_not_consented :
    ∃ final, run (Pool.turn (handle plainState)) (.initial (.boot circleDatabase 0))
        [.atomically (.createInvite 6 3 2 7) [], .atomically (.removeFriend 5 2) [],
         .atomically (.acceptInvite 2 7 ⟨"token", 8, 9⟩) []] = some final ∧
      ¬ HostConsents final := by
  have minted : ((run (Pool.turn (handle plainState)) (.initial (.boot circleDatabase 0))
      [.atomically (.createInvite 6 3 2 7) [], .atomically (.removeFriend 5 2) [],
       .atomically (.acceptInvite 2 7 ⟨"token", 8, 9⟩) []]).map fun final =>
        decide (∃ event ∈ final.history,
          (∃ ticket ∈ event.after.database.joinTickets.rows,
            ticket.id ∉ event.before.database.joinTickets.issued) ∧
          inviteDocket.accepts 7 event.operation = true ∧
          ∀ invite ∈ event.before.database.worldInvites.rows,
          ∀ world ∈ event.before.database.worldSessions.rows,
            invite.inviterUserId ≠ world.hostUserId ∧
            event.before.database.areFriends world.hostUserId invite.inviteeUserId = false ∧
            ∀ approval ∈ final.history,
              ¬ Approves final.owner world.hostUserId invite.id approval)) = some true := by
    decide +kernel
  rcases Option.map_eq_some_iff.mp minted with ⟨final, reached, violates⟩
  rcases of_decide_eq_true violates with
    ⟨event, member, ⟨ticket, present, fresh⟩, accepts, strangers⟩
  refine ⟨final, reached, fun consents => ?_⟩
  rcases suffix_of_mem member with ⟨older, suffix⟩
  rcases consents event older suffix ticket ⟨present, fresh⟩ 7 accepts with
    ⟨invite, world, foundInvite, foundWorld, consented⟩
  rcases strangers invite (Table.find_eq_some.mp foundInvite).1 world
    (Table.find_eq_some.mp foundWorld).1 with ⟨byGuest, unknown, unapproved⟩
  rcases consented byGuest with friends | ⟨approval, earlier, approves⟩
  · exact Bool.false_ne_true (unknown.symm.trans friends)
  · exact unapproved approval (suffix.subset (List.mem_cons_of_mem _ earlier)) approves

end Loontail
