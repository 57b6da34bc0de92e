import Loontail.Guarantees.RequestLifecycle
import Loontail.Network.Findings
import Loontail.Network.Scripted

/-! # Whether a failed acceptance leaves its admission behind

The admission commits before the rows for the reply and the events are read, and
nothing takes it back when one of those reads fails. -/

namespace Loontail

open Concurrency Relational Network Handler

/-! ## Admissions that a moment allows -/

/-- No row has the identifiers of the draw, and no ticket its hash. -/
structure TicketDraw.Fresh (draw : TicketDraw) (tokenHash : String) (database : Database) :
    Prop where
  ticket : draw.ticketId ∉ database.joinTickets.issued
  token : ∀ ticket ∈ database.joinTickets.rows, ticket.tokenHash ≠ tokenHash
  relay : draw.relaySessionId ∉ database.relaySessions.issued

/-- The checks of `Invites.accept` pass at the moment, and its writes are possible. -/
structure InviteAdmissible (state : AppState) (auth id : Uuid) (draw : TicketDraw)
    (moment : Moment) (invite : WorldInvite) (world : WorldSession) : Prop where
  found : (Sql.loadInvite id moment.database).map (·.invite) = some invite
  invitee : invite.inviteeUserId = auth
  pending : invite.status = .pending
  live : moment.clock < invite.expiresAt
  opened : Sql.selectOpenWorld invite.worldSessionId moment.database = some world
  chain : invite.inviterUserId = invite.hostUserId ∨
    world.invitePolicy = .friendsOfFriends ∧
      moment.database.areFriends invite.hostUserId invite.inviterUserId = true ∧
      moment.database.areFriends invite.inviterUserId invite.inviteeUserId = true
  room : world.currentPlayers < world.maxPlayers
  fresh : draw.Fresh (state.hashToken draw.token) moment.database

/-- The operations of its transaction, the commit included; the chain of a
guest-issued invite takes two more. -/
def inviteSteps (invite : WorldInvite) : Nat :=
  if invite.inviterUserId = invite.hostUserId then 6 else 8

/-- The checks of `Join.accept` pass at the moment, and its writes are possible. -/
structure RequestAdmissible (state : AppState) (auth id : Uuid) (draw : TicketDraw)
    (moment : Moment) (request : JoinRequest) (world : WorldSession) : Prop where
  found : (Sql.loadJoinRequest id moment.database).map (·.request) = some request
  host : request.hostUserId = auth
  pending : request.status = .pending
  live : moment.clock < request.expiresAt
  opened : Sql.selectOpenWorld request.worldSessionId moment.database = some world
  link : moment.database.areFriends request.requesterUserId request.hostUserId = true ∨
    world.invitePolicy = .friendsOfFriends ∧
      Sql.isFriendOfActiveMember moment.clock state.config.heartbeatTimeout
        request.requesterUserId world.id moment.database = true
  room : world.currentPlayers < world.maxPlayers
  fresh : draw.Fresh (state.hashToken draw.token) moment.database

def requestSteps (database : Database) (request : JoinRequest) : Nat :=
  if database.areFriends request.requesterUserId request.hostUserId then 7 else 8

/-- The moment allows the admission that the request asks for, in so many operations. -/
def Request.Admissible (state : AppState) (moment : Moment) : Request → Nat → Prop
  | .acceptInvite auth id draw, steps => ∃ invite world,
      InviteAdmissible state auth id draw moment invite world ∧ inviteSteps invite = steps
  | .acceptJoinRequest auth id draw, steps => ∃ request world,
      RequestAdmissible state auth id draw moment request world ∧
        requestSteps moment.database request = steps
  | _, _ => False

/-! ## The writes of an admission -/

section Writes

variable {now : Timestamp} {database after : Database} {guestId hostId worldId : Uuid}
  {draw : TicketDraw} {tokenHash : String} {expiresAt : Timestamp} {world : WorldSession}

theorem Sql.issueTicketAndRelay_iff (found : database.worldSessions.find worldId = some world) :
    (∃ context after, issueTicketAndRelay now guestId hostId worldId draw tokenHash expiresAt
      database = .ok (context, after)) ↔ draw.Fresh tokenHash database := by
  constructor
  · rintro ⟨context, after, executed⟩
    obtain ⟨-, joinTickets, relaySessions, -, ticket, relay, -⟩ := issueTicketAndRelay_ok executed
    obtain ⟨unissued, free⟩ := Table.exists_insert.mp ⟨joinTickets, ticket⟩
    exact {
      ticket := unissued
      token := fun other member same => free tokenHash rfl other member (congrArg some same)
      relay := (Table.exists_insert.mp ⟨relaySessions, relay⟩).1 }
  · rintro ⟨unissued, free, relay⟩
    obtain ⟨joinTickets, ticketInserted⟩ := (@Table.exists_insert _ _ _ _ _ _
      database.joinTickets {
        id := draw.ticketId, userId := guestId, worldSessionId := worldId
        tokenHash, expiresAt, consumedAt := none, createdAt := now }).mpr ⟨unissued, by
      rintro slot taken other member same
      cases taken
      exact free other member (Option.some.inj same)⟩
    obtain ⟨relaySessions, relayInserted⟩ := (@Table.exists_insert _ _ _ _ _ _
      database.relaySessions {
        id := draw.relaySessionId, worldSessionId := worldId
        hostUserId := hostId, guestUserId := some guestId
        joinTicketId := some draw.ticketId, status := .pending
        createdAt := now, closedAt := none }).mpr ⟨relay, fun _ taken => by cases taken⟩
    unfold issueTicketAndRelay
    rw [found]
    simp only [ticketInserted, relayInserted]
    exact ⟨_, _, rfl⟩

theorem Sql.mintWhenSettled_cases {settled : Nat × Database} (one : settled.1 = 1)
    (tickets : settled.2.joinTickets = database.joinTickets)
    (relays : settled.2.relaySessions = database.relaySessions)
    (found : settled.2.worldSessions.find worldId = some world) :
    (∃ context after, mintWhenSettled now guestId hostId worldId draw tokenHash expiresAt settled =
        .ok (some context, after) ∧ after ≠ database ∧ draw.Fresh tokenHash database) ∨
    (∃ error, mintWhenSettled now guestId hostId worldId draw tokenHash expiresAt settled =
        .error error) ∧ ¬draw.Fresh tokenHash database := by
  have same : draw.Fresh tokenHash settled.2 ↔ draw.Fresh tokenHash database := by
    constructor
    · exact fun fresh => ⟨tickets ▸ fresh.ticket, tickets ▸ fresh.token, relays ▸ fresh.relay⟩
    · exact fun fresh => ⟨tickets ▸ fresh.ticket, tickets ▸ fresh.token, relays ▸ fresh.relay⟩
  have issue := @issueTicketAndRelay_iff now settled.2 guestId hostId worldId draw tokenHash
    expiresAt world found
  unfold mintWhenSettled
  rw [if_pos one]
  cases issued : issueTicketAndRelay now guestId hostId worldId draw tokenHash expiresAt
      settled.2 with
  | ok pair =>
      refine .inl ⟨pair.1, pair.2, rfl, ?_, same.mp (issue.mp ⟨pair.1, pair.2, issued⟩)⟩
      rintro rfl
      obtain ⟨-, joinTickets, relaySessions, -, ticket, -, after⟩ := issueTicketAndRelay_ok issued
      have more := congrArg List.length (Table.insert_rows ticket).1
      rw [tickets, after] at more
      simp at more
  | error failure =>
      refine .inr ⟨⟨failure, rfl⟩, fun fresh => ?_⟩
      obtain ⟨context, after, executed⟩ := issue.mpr (same.mpr fresh)
      rw [issued] at executed
      cases executed

theorem Sql.acceptInvite_cases {id : Uuid} {invite : WorldInvite}
    (known : database.worldInvites.find id = some invite) (pending : invite.status = .pending)
    (found : database.worldSessions.find worldId = some world) :
    (∃ context after, acceptInvite now id guestId hostId worldId draw tokenHash expiresAt database =
        .ok (some context, after) ∧ after ≠ database ∧ draw.Fresh tokenHash database) ∨
    (∃ error, acceptInvite now id guestId hostId worldId draw tokenHash expiresAt database =
        .error error) ∧ ¬draw.Fresh tokenHash database := by
  refine mintWhenSettled_cases (Table.affected_eq_one known ?_ fun _ => ?_) rfl rfl found
  · have same : invite.id = id := (Table.find_eq_some.mp known).2
    simp [same, pending]
  · exact fun chosen => of_decide_eq_true (Bool.and_eq_true_iff.mp chosen).1

theorem Sql.acceptJoinRequest_cases {id : Uuid} {request : JoinRequest}
    (known : database.joinRequests.find id = some request) (pending : request.status = .pending)
    (found : database.worldSessions.find worldId = some world) :
    (∃ context after, acceptJoinRequest now id guestId hostId worldId draw tokenHash expiresAt
        database = .ok (some context, after) ∧ after ≠ database ∧ draw.Fresh tokenHash database) ∨
    (∃ error, acceptJoinRequest now id guestId hostId worldId draw tokenHash expiresAt database =
        .error error) ∧ ¬draw.Fresh tokenHash database := by
  refine mintWhenSettled_cases (Table.affected_eq_one known ?_ fun _ => ?_) rfl rfl found
  · have same : request.id = id := (Table.find_eq_some.mp known).2
    simp [same, pending]
  · exact fun chosen => of_decide_eq_true (Bool.and_eq_true_iff.mp chosen).1

end Writes

/-! ## After the commit -/

theorem guest_scripted {index : Nat} {before committed : Service} {all : List Bool}
    {guestId receiver : Uuid} {event : UserDto → ServerEvent} {count : Nat} {unharmed : Prop}
    (clean : true ∉ all.take count) (changed : committed.database ≠ before.database)
    (harmed : ¬unharmed) {onOk : UserDto → Unit → Service × List Bool × Bool → Prop}
    (told : ∀ guest count after, true ∉ all.take count → after.moment = committed.moment →
      onOk guest () (after, all.drop count, false)) :
    (Join.fetchUserDto guestId).Meets (scripted index)
      (fun guest following => (sendTo receiver (event guest)).Meets (scripted index) (onOk guest)
        (fun _ last => last.1.database = before.database ↔ unharmed) following)
      (fun _ following => following.1.database = before.database ↔ unharmed)
      (committed, all.drop count, false) := by
  unfold Join.fetchUserDto
  simp only [meets_bind, meets_okOr]
  refine read_scripted rfl clean rfl (fun _ _ => iff_of_false changed harmed)
    fun clean read same => ?_
  have still : read.moment.database ≠ before.database := by
    rw [same]
    exact changed
  refine ⟨fun _ => iff_of_false still harmed, fun guest _ => ?_⟩
  exact sendTo_scripted clean fun clean after kept => told guest _ after clean (kept.trans same)

/-! ## Invites -/

section Invites

variable {state : AppState} {auth id : Uuid} {draw : TicketDraw} {index : Nat}
  {before : Service} {all : List Bool}

def InviteUnharmed (state : AppState) (auth id : Uuid) (draw : TicketDraw) (moment : Moment)
    (script : List Bool) : Prop :=
  ∀ invite world, InviteAdmissible state auth id draw moment invite world →
    true ∈ script.take (inviteSteps invite)

theorem InviteUnharmed.of_failed {moment : Moment} {count : Nat} (failed : true ∈ all.take count)
    (early : count ≤ 6) : InviteUnharmed state auth id draw moment all := by
  refine fun invite world _ => mem_take_mono failed (early.trans ?_)
  unfold inviteSteps
  split <;> decide

theorem InviteUnharmed.of_missing {moment : Moment}
    (missing : Sql.loadInvite id moment.database = none) :
    InviteUnharmed state auth id draw moment all := by
  intro invite world admissible
  have found := admissible.found
  rw [missing] at found
  cases found

theorem InviteUnharmed.of_row {moment : Moment} {row : InviteRow}
    (loaded : Sql.loadInvite id moment.database = some row)
    (refuted : ∀ world, InviteAdmissible state auth id draw moment row.invite world →
      true ∈ all.take (inviteSteps row.invite)) :
    InviteUnharmed state auth id draw moment all := by
  intro invite world admissible
  have found := admissible.found
  rw [loaded] at found
  obtain rfl := Option.some.inj found
  exact refuted world admissible

theorem InviteUnharmed.of_world {moment : Moment} {row : InviteRow} {world : WorldSession}
    (loaded : Sql.loadInvite id moment.database = some row)
    (found : Sql.selectOpenWorld row.invite.worldSessionId moment.database = some world)
    (refuted : InviteAdmissible state auth id draw moment row.invite world → False) :
    InviteUnharmed state auth id draw moment all := by
  refine .of_row loaded fun other admissible => ?_
  have opened := admissible.opened
  rw [found] at opened
  obtain rfl := Option.some.inj opened
  exact (refuted admissible).elim

theorem requireChain_scripted {world : WorldSession} {invite : WorldInvite} {service : Service}
    {unharmed : Prop} (clean : true ∉ all.take 4) (same : service.moment = before.moment)
    (failed : true ∈ all.take 6 → unharmed)
    (refused : ¬(invite.inviterUserId = invite.hostUserId ∨
      world.invitePolicy = .friendsOfFriends ∧
        before.database.areFriends invite.hostUserId invite.inviterUserId = true ∧
        before.database.areFriends invite.inviterUserId invite.inviteeUserId = true) → unharmed)
    {onOk : Unit → Service × List Bool × Bool → Prop}
    (passed : (invite.inviterUserId = invite.hostUserId ∨
      world.invitePolicy = .friendsOfFriends ∧
        before.database.areFriends invite.hostUserId invite.inviterUserId = true ∧
        before.database.areFriends invite.inviterUserId invite.inviteeUserId = true) →
      ∀ count after, count + 2 = inviteSteps invite → true ∉ all.take count →
        after.moment = before.moment → onOk () (after, all.drop count, false)) :
    (Invites.requireChain world invite).Meets (scripted index) onOk
      (fun _ following => following.1.moment = before.moment ∧ unharmed)
      (service, all.drop 4, false) := by
  unfold Invites.requireChain Friends.areFriends
  simp only [meets_whenever, meets_bind, meets_refuse]
  refine ⟨fun other => ?_, fun own => ?_⟩
  · have apart : invite.inviterUserId ≠ invite.hostUserId := of_decide_eq_true other
    have eight : 6 + 2 = inviteSteps invite := (if_neg apart).symm
    refine ⟨fun closed => ⟨same, refused (by grind)⟩, fun policy => ?_⟩
    refine read_scripted rfl clean same
      (fun fails _ => ⟨same, failed (mem_take_mono fails (by decide))⟩) fun clean second same => ?_
    refine ⟨fun severed => ⟨same, refused (by grind)⟩, fun trusted => ?_⟩
    refine read_scripted rfl clean same (fun fails _ => ⟨same, failed fails⟩)
      fun clean third same => ?_
    refine ⟨fun severed => ⟨same, refused (by grind)⟩, fun friends => ?_⟩
    exact passed (.inr (by grind)) 6 third eight clean same
  · have host : invite.inviterUserId = invite.hostUserId := by simpa using own
    exact passed (.inl host) 4 service (if_pos host).symm clean same

/-- A failure leaves the database alone exactly if no admission was committed. -/
theorem acceptInvite_scripted :
    (Invites.accept state auth id draw).Meets (scripted index) (fun _ _ => True)
      (fun _ following => following.1.database = before.database ↔
        InviteUnharmed state auth id draw before.moment all)
      (before, all, false) := by
  unfold Invites.accept
  rw [meets_bind]
  refine @transactionally_scripted all 0 index before before _ _ _ (by simp) rfl _ _
    (fun _ _ => iff_of_true) ?_ ?_
  · exact fun failed => .of_failed failed (by decide)
  intro clean transaction locked same
  unfold Invites.loadInviteForUpdate Worlds.loadOpenWorldSession
  simp only [meets_bind, meets_map, meets_okOr, meets_refuse, meets_pure]
  refine read_scripted rfl clean same (fun failed _ => ⟨same, .of_failed failed (by decide)⟩) ?_
  clear same locked
  intro clean locked same
  refine ⟨fun missing => ⟨same, .of_missing missing⟩, fun row loaded => ?_⟩
  refine ⟨fun foreign => ⟨same, .of_row loaded fun _ admissible => ?_⟩, fun own => ?_⟩
  · exact absurd admissible.invitee (of_decide_eq_true foreign)
  refine ⟨fun settled => ⟨same, .of_row loaded fun _ admissible => ?_⟩, fun pending => ?_⟩
  · exact absurd admissible.pending (of_decide_eq_true settled)
  refine now_scripted clean fun clean => ?_
  have time : locked.clock = before.moment.clock := congrArg Moment.clock same
  rw [time]
  refine ⟨fun lapsed => ⟨same, .of_row loaded fun _ admissible => ?_⟩, fun live => ?_⟩
  · exact absurd admissible.live (not_lt.mpr (of_decide_eq_true lapsed))
  refine read_scripted rfl clean same (fun failed _ => ⟨same, .of_failed failed (by decide)⟩) ?_
  clear same
  intro clean opened same
  refine ⟨fun closed => ⟨same, .of_row loaded fun _ admissible => ?_⟩, fun world found => ?_⟩
  · cases closed.symm.trans admissible.opened
  refine requireChain_scripted clean same (fun failed => .of_failed failed le_rfl) ?_ ?_
  · exact fun broken => .of_world loaded found fun admissible => broken admissible.chain
  intro chain count ready steps clean same
  refine ⟨fun full => ⟨same, .of_world loaded found fun admissible => ?_⟩, fun room => ?_⟩
  · exact absurd admissible.room (not_lt.mpr (of_decide_eq_true full))
  refine now_scripted clean fun clean => ?_
  obtain ⟨database, clock⟩ := Moment.mk.inj same
  have committed := @Sql.acceptInvite_cases transaction.startedAt ready.database
    row.invite.inviteeUserId row.invite.hostUserId row.invite.worldSessionId draw
    (state.hashToken draw.token) (ready.clock + ttlOrElse state.config.joinTicketTtl 60) world
    id row.invite (database ▸ Sql.loadInvite_find loaded) (by simpa using pending)
    (database ▸ (Sql.selectOpenWorld_eq_some.mp found).1)
  refine query_scripted clean ?_ fun clean reply after executed kept => ?_
  · rintro (failed | ⟨failure, refused⟩) error
    · exact ⟨same, .of_row loaded fun _ _ => steps ▸ failed⟩
    · rcases committed with ⟨context, after, executed, -⟩ | ⟨-, stale⟩
      · cases executed.symm.trans refused
      · exact ⟨same, fun _ _ admissible => absurd (database ▸ admissible.fresh) stale⟩
  rcases committed with ⟨context, written, granted, changed, fresh⟩ | ⟨⟨error, refused⟩, -⟩
  · obtain ⟨rfl, left⟩ := Prod.mk.inj (Except.ok.inj (granted.symm.trans executed))
    refine ⟨fun missing => (by cases missing), fun _ _ => ?_⟩
    refine guest_scripted clean (left ▸ database ▸ changed) (fun always => clean ?_)
      fun _ _ _ _ _ => trivial
    refine steps ▸ always row.invite world {
      found := congrArg _ loaded
      invitee := by simpa using own
      pending := by simpa using pending
      live := Int.not_le.mp (of_decide_eq_false live)
      opened := found
      chain
      room := by simpa using room
      fresh := show draw.Fresh _ before.database from database ▸ fresh }
  · cases refused.symm.trans executed

end Invites

/-! ## Join requests -/

section Requests

variable {state : AppState} {auth id : Uuid} {draw : TicketDraw} {index : Nat}
  {before : Service} {all : List Bool}

def RequestUnharmed (state : AppState) (auth id : Uuid) (draw : TicketDraw) (moment : Moment)
    (script : List Bool) : Prop :=
  ∀ request world, RequestAdmissible state auth id draw moment request world →
    true ∈ script.take (requestSteps moment.database request)

theorem RequestUnharmed.of_failed {moment : Moment} {count : Nat}
    (failed : true ∈ all.take count) (early : count ≤ 7) :
    RequestUnharmed state auth id draw moment all := by
  refine fun request world _ => mem_take_mono failed (early.trans ?_)
  unfold requestSteps
  split <;> decide

theorem RequestUnharmed.of_missing {moment : Moment}
    (missing : Sql.loadJoinRequest id moment.database = none) :
    RequestUnharmed state auth id draw moment all := by
  intro request world admissible
  have found := admissible.found
  rw [missing] at found
  cases found

theorem RequestUnharmed.of_row {moment : Moment} {row : JoinRequestRow}
    (loaded : Sql.loadJoinRequest id moment.database = some row)
    (refuted : ∀ world, RequestAdmissible state auth id draw moment row.request world →
      true ∈ all.take (requestSteps moment.database row.request)) :
    RequestUnharmed state auth id draw moment all := by
  intro request world admissible
  have found := admissible.found
  rw [loaded] at found
  obtain rfl := Option.some.inj found
  exact refuted world admissible

theorem RequestUnharmed.of_world {moment : Moment} {row : JoinRequestRow} {world : WorldSession}
    (loaded : Sql.loadJoinRequest id moment.database = some row)
    (found : Sql.selectOpenWorld row.request.worldSessionId moment.database = some world)
    (refuted : RequestAdmissible state auth id draw moment row.request world → False) :
    RequestUnharmed state auth id draw moment all := by
  refine .of_row loaded fun other admissible => ?_
  have opened := admissible.opened
  rw [found] at opened
  obtain rfl := Option.some.inj opened
  exact (refuted admissible).elim

theorem requireLink_scripted {world : WorldSession} {request : JoinRequest} {service : Service}
    {unharmed : Prop} (clean : true ∉ all.take 4) (same : service.moment = before.moment)
    (failed : ∀ count, count ≤ requestSteps before.database request →
      true ∈ all.take count → unharmed)
    (refused : ¬(before.database.areFriends request.requesterUserId request.hostUserId = true ∨
      world.invitePolicy = .friendsOfFriends ∧
        Sql.isFriendOfActiveMember before.clock state.config.heartbeatTimeout
          request.requesterUserId world.id before.database = true) → unharmed)
    {onOk : Unit → Service × List Bool × Bool → Prop}
    (passed : (before.database.areFriends request.requesterUserId request.hostUserId = true ∨
      world.invitePolicy = .friendsOfFriends ∧
        Sql.isFriendOfActiveMember before.clock state.config.heartbeatTimeout
          request.requesterUserId world.id before.database = true) →
      ∀ count after, count + 2 = requestSteps before.database request → true ∉ all.take count →
        after.moment = before.moment → onOk () (after, all.drop count, false)) :
    (Join.requireLink state world request.requesterUserId request.hostUserId).Meets
      (scripted index) onOk (fun _ following => following.1.moment = before.moment ∧ unharmed)
      (service, all.drop 4, false) := by
  unfold Join.requireLink Friends.areFriends Join.isFriendOfActiveMember
  simp only [meets_whenever, meets_bind, meets_refuse]
  refine read_scripted rfl clean same (fun fails _ => ⟨same, failed 5 ?_ fails⟩)
    fun clean second same => ⟨fun stranger => ?_, fun friends => ?_⟩
  · unfold requestSteps
    split <;> decide
  · have eight : 6 + 2 = requestSteps before.database request := by
      rw [requestSteps, if_neg (by simpa using stranger)]
    refine ⟨fun closed => ⟨same, refused (by grind)⟩, fun policy => ?_⟩
    refine read_scripted rfl clean same (fun fails _ => ⟨same, failed 6 (by omega) fails⟩)
      fun clean third same => ?_
    refine ⟨fun apart => ⟨same, refused (by grind)⟩, fun linked => ?_⟩
    exact passed (.inr (by grind)) 6 third eight clean same
  · have direct : before.database.areFriends request.requesterUserId request.hostUserId = true := by
      simpa using friends
    exact passed (.inl direct) 5 second (if_pos direct).symm clean same

theorem acceptJoinRequest_scripted :
    (Join.accept state auth id draw).Meets (scripted index) (fun _ _ => True)
      (fun _ following => following.1.database = before.database ↔
        RequestUnharmed state auth id draw before.moment all)
      (before, all, false) := by
  unfold Join.accept
  rw [meets_bind]
  refine @transactionally_scripted all 0 index before before _ _ _ (by simp) rfl _ _
    (fun _ _ => iff_of_true) ?_ ?_
  · exact fun failed => .of_failed failed (by decide)
  intro clean transaction locked same
  unfold Join.loadJoinRequestForUpdate Worlds.loadOpenWorldSession
  simp only [meets_bind, meets_map, meets_okOr, meets_refuse, meets_pure]
  refine read_scripted rfl clean same (fun failed _ => ⟨same, .of_failed failed (by decide)⟩) ?_
  clear same locked
  intro clean locked same
  refine ⟨fun missing => ⟨same, .of_missing missing⟩, fun row loaded => ?_⟩
  refine ⟨fun foreign => ⟨same, .of_row loaded fun _ admissible => ?_⟩, fun own => ?_⟩
  · exact absurd admissible.host (of_decide_eq_true foreign)
  refine ⟨fun settled => ⟨same, .of_row loaded fun _ admissible => ?_⟩, fun pending => ?_⟩
  · exact absurd admissible.pending (of_decide_eq_true settled)
  refine now_scripted clean fun clean => ?_
  have time : locked.clock = before.moment.clock := congrArg Moment.clock same
  rw [time]
  refine ⟨fun lapsed => ⟨same, .of_row loaded fun _ admissible => ?_⟩, fun live => ?_⟩
  · exact absurd admissible.live (not_lt.mpr (of_decide_eq_true lapsed))
  refine read_scripted rfl clean same (fun failed _ => ⟨same, .of_failed failed (by decide)⟩) ?_
  clear same
  intro clean opened same
  refine ⟨fun closed => ⟨same, .of_row loaded fun _ admissible => ?_⟩, fun world found => ?_⟩
  · cases closed.symm.trans admissible.opened
  refine requireLink_scripted clean same (fun count within failed => ?_) ?_ ?_
  · exact .of_row loaded fun _ _ => mem_take_mono failed within
  · exact fun apart => .of_world loaded found fun admissible => apart admissible.link
  intro link count ready steps clean same
  refine ⟨fun full => ⟨same, .of_world loaded found fun admissible => ?_⟩, fun room => ?_⟩
  · exact absurd admissible.room (not_lt.mpr (of_decide_eq_true full))
  refine now_scripted clean fun clean => ?_
  obtain ⟨database, clock⟩ := Moment.mk.inj same
  have committed := @Sql.acceptJoinRequest_cases transaction.startedAt ready.database
    row.request.requesterUserId row.request.hostUserId row.request.worldSessionId draw
    (state.hashToken draw.token) (ready.clock + ttlOrElse state.config.joinTicketTtl 60) world
    id row.request (database ▸ Sql.loadJoinRequest_find loaded) (by simpa using pending)
    (database ▸ (Sql.selectOpenWorld_eq_some.mp found).1)
  refine query_scripted clean ?_ fun clean reply after executed kept => ?_
  · rintro (failed | ⟨failure, refused⟩) error
    · exact ⟨same, .of_row loaded fun _ _ => steps ▸ failed⟩
    · rcases committed with ⟨context, after, executed, -⟩ | ⟨-, stale⟩
      · cases executed.symm.trans refused
      · exact ⟨same, fun _ _ admissible => absurd (database ▸ admissible.fresh) stale⟩
  rcases committed with ⟨context, written, granted, changed, fresh⟩ | ⟨⟨error, refused⟩, -⟩
  · obtain ⟨rfl, left⟩ := Prod.mk.inj (Except.ok.inj (granted.symm.trans executed))
    have differs : after.database ≠ before.database := left ▸ database ▸ changed
    have harmed : ¬RequestUnharmed state auth id draw before.moment all := by
      refine fun always => clean (steps ▸ always row.request world ?_)
      exact {
        found := congrArg _ loaded
        host := by simpa using own
        pending := by simpa using pending
        live := Int.not_le.mp (of_decide_eq_false live)
        opened := found
        link
        room := by simpa using room
        fresh := show draw.Fresh _ before.database from database ▸ fresh }
    refine ⟨fun missing => (by cases missing), fun _ _ => ?_⟩
    refine guest_scripted clean differs harmed fun guest count told clean same => ?_
    refine sendTo_scripted clean fun clean arriving kept => ?_
    have still : arriving.moment.database ≠ before.database := by
      rw [kept, same]
      exact differs
    unfold Join.loadJoinRequest
    simp only [meets_bind, meets_okOr]
    refine read_scripted rfl clean rfl (fun _ _ => iff_of_false still harmed)
      fun clean read same => ⟨fun _ => ?_, fun _ _ => trivial⟩
    have last : read.moment.database ≠ before.database := by
      rw [same]
      exact still
    exact iff_of_false last harmed
  · cases refused.symm.trans executed

end Requests

theorem unharmed_of_executed {Value : Type} {handler : Handler Value} {apply : Value → Reply}
    {unharmed : Prop} {index : Nat} {script : List Bool} {before after : Service}
    {error : AppError} {events : List (Event network)}
    (meets : handler.Meets (scripted index) (fun _ _ => True)
      (fun _ following => following.1.database = before.database ↔ unharmed)
      (before, script, false))
    (executed : (apply <$> handler).run.execute index script before [] =
      some (.error error, after, events)) : after.database = before.database ↔ unharmed := by
  have mapped : (apply <$> handler).Meets (scripted index) (fun _ _ => True)
      (fun _ following => following.1.database = before.database ↔ unharmed)
      (before, script, false) := (meets_map apply handler).mpr meets
  have whole : Process.Meets (scripted index)
      (fun outcome following => ∀ error, outcome = .error error →
        (following.1.database = before.database ↔ unharmed))
      (apply <$> handler).run (before, script, false) := by
    refine Process.Meets.mono (fun outcome following holds error failed => ?_) mapped
    subst failed
    exact holds
  exact @Process.execute_scripted network _ _ index script before after [] events _ (fun _ => false)
    (fun outcome after _ => ∀ error, outcome = .error error →
      (after.database = before.database ↔ unharmed)) whole executed error rfl

/-- An acceptance that answers with an error leaves the database as it was exactly if the
moment did not allow the admission, or an operation of its transaction failed. -/
theorem accept_atomic_iff {state : AppState} {request : Request} {index : Nat}
    {script : List Bool} {before after : Service} {error : AppError}
    {events : List (Event network)}
    (accepts : request.purpose = .acceptInvite ∨ request.purpose = .acceptJoinRequest)
    (executed : (handle state request).execute index script before [] =
      some (.error error, after, events)) :
    after.database = before.database ↔ ∀ steps,
      request.Admissible state before.moment steps → true ∈ script.take steps := by
  cases request with
  | acceptInvite auth id draw =>
      refine (unharmed_of_executed acceptInvite_scripted executed).trans ⟨fun unharmed steps => ?_,
        fun all invite world admissible => all _ ⟨invite, world, admissible, rfl⟩⟩
      rintro ⟨invite, world, admissible, rfl⟩
      exact unharmed invite world admissible
  | acceptJoinRequest auth id draw =>
      refine (unharmed_of_executed acceptJoinRequest_scripted executed).trans ⟨fun unharmed steps => ?_,
        fun all request world admissible => all _ ⟨request, world, admissible, rfl⟩⟩
      rintro ⟨request, world, admissible, rfl⟩
      exact unharmed request world admissible
  | _ => rcases accepts with other | other <;> cases other

def guestDraw : TicketDraw := ⟨"ticket", 8, 9⟩

/-- A commit that fails leaves the invite pending. -/
theorem accept_atomic_uncommitted :
    ∃ after events, (handle plainState (.acceptInvite 2 7 guestDraw)).execute 0
        [false, false, false, false, false, true] (.boot invitedDatabase 0) [] =
          some (.error (.database .connection), after, events) ∧
      after.database = invitedDatabase := by
  have failed : ((handle plainState (.acceptInvite 2 7 guestDraw)).execute 0
      [false, false, false, false, false, true] (.boot invitedDatabase 0) []).map
        (fun run => decide (run.1 = .error (.database .connection))) = some true := by
    decide +kernel
  obtain ⟨⟨outcome, after, events⟩, executed, refused⟩ := Option.map_eq_some_iff.mp failed
  obtain rfl := of_decide_eq_true refused
  refine ⟨after, events, executed, (accept_atomic_iff (.inl rfl) executed).mpr ?_⟩
  rintro steps ⟨invite, world, -, rfl⟩
  refine mem_take_mono (show true ∈ List.take 6 _ by decide) ?_
  unfold inviteSteps
  split <;> decide

/-- The guest's row cannot be read once the invite is accepted. -/
theorem accept_not_atomic :
    ¬∀ (state : AppState) (request : Request) (script : List Bool) (before after : Service)
      (error : AppError) (events : List (Event network)),
      request.purpose = .acceptInvite ∨ request.purpose = .acceptJoinRequest →
      (handle state request).execute 0 script before [] = some (.error error, after, events) →
      after.database = before.database := by
  intro always
  have failed : ((handle plainState (.acceptInvite 2 7 guestDraw)).execute 0
      [false, false, false, false, false, false, true] (.boot invitedDatabase 0) []).map
        (fun run => decide (run.1 = .error (.database .connection) ∧
          run.2.1.database.joinTickets.rows.length = 1)) = some true := by
    decide +kernel
  obtain ⟨⟨outcome, after, events⟩, executed, refused⟩ := Option.map_eq_some_iff.mp failed
  obtain ⟨rfl, minted⟩ := of_decide_eq_true refused
  rw [always _ _ _ _ _ _ _ (.inl rfl) executed] at minted
  cases minted

end Loontail
