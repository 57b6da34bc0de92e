import Loontail.Network.Alone

/-! # What a request has found when it acts

The operations that admit a guest, record a request or change a world are
guarded by what their handler reads. Each handler is judged once, alone. -/

namespace Loontail

open Concurrency Network Handler

structure Moment.HasRoom (moment : Moment) (worldId : Uuid) (world : WorldSession) :
    Prop where
  found : moment.database.worldSessions.find worldId = some world
  isOpen : world.status = .open
  room : world.currentPlayers < world.maxPlayers

def Request.finds (state : AppState) (request : Request) (moment : Moment) :
    Operation → Prop
  | .statement (.join (.issueTicket guestId hostId worldId _ _ _)) =>
      guestId ≠ hostId ∧ moment.database.areFriends guestId hostId = true ∧
      ∃ world, moment.HasRoom worldId world ∧ world.hostUserId = hostId
  | .statement (.join (.insert requester hostId worldId _ _)) =>
      requester ≠ hostId ∧
      ∃ world, moment.database.worldSessions.find worldId = some world ∧
        world.hostUserId = hostId
  | .statement (.join (.commitAccept _ id guestId hostId worldId _ _ _)) =>
      (∃ draw, request = .acceptJoinRequest hostId id draw) ∧
      (∃ row, moment.database.joinRequests.find id = some row ∧
        row.requesterUserId = guestId ∧ row.hostUserId = hostId ∧
        row.worldSessionId = worldId) ∧
      ∃ world, moment.HasRoom worldId world ∧
        (moment.database.areFriends guestId hostId = true ∨
          world.invitePolicy = .friendsOfFriends ∧
          Sql.isFriendOfActiveMember moment.clock state.config.heartbeatTimeout guestId
            world.id moment.database = true)
  | .statement (.invite (.insert worldId hostId _ invitee status _ _)) =>
      invitee ≠ hostId ∧
      (status = .pending → moment.database.areFriends hostId invitee = true) ∧
      ∃ world, moment.database.worldSessions.find worldId = some world ∧
        world.hostUserId = hostId
  | .statement (.invite (.commitAccept _ id guestId hostId worldId _ _ _)) =>
      (∃ draw, request = .acceptInvite guestId id draw) ∧
      ∃ row, (moment.database.worldInvites.find id = some row ∧
        row.inviteeUserId = guestId ∧ row.hostUserId = hostId ∧
        row.worldSessionId = worldId ∧ row.status = .pending ∧
        moment.clock < row.expiresAt) ∧
      ∃ world, moment.HasRoom worldId world ∧
        (row.inviterUserId = hostId ∨ world.invitePolicy = .friendsOfFriends ∧
          moment.database.areFriends hostId row.inviterUserId = true ∧
          moment.database.areFriends row.inviterUserId guestId = true)
  | .statement (.invite (.approve id)) =>
      ∃ row, moment.database.worldInvites.find id = some row ∧
        request = .approveInvite row.hostUserId id
  | .statement (.world (.update id _ status _)) =>
      ∃ world, moment.database.worldSessions.find id = some world ∧
        (status = .closed → world.status ≠ .open)
  | .statement (.world (.commitUpdate closing id ..)) =>
      closing.relays = Sql.unclosedRelays id moment.database
  | .statement (.world (.commitClose closing id ..)) =>
      closing.relays = Sql.unclosedRelays id moment.database
  | _ => True

theorem Request.finds_ordinary {state : AppState} {request : Request} {moment : Moment}
    {operation : Operation} (ordinary : operation.purpose = .ordinary) :
    request.finds state moment operation := by
  unfold finds
  split <;> trivial

namespace Sql

variable {database : Database}

theorem selectOpenWorld_eq_some {id : Uuid} {world : WorldSession} :
    selectOpenWorld id database = some world ↔
      database.worldSessions.find id = some world ∧ world.status = .open := by
  simp [selectOpenWorld, Option.filter_eq_some_iff]

theorem loadJoinRequest_find {id : Uuid} {row : JoinRequestRow}
    (loaded : loadJoinRequest id database = some row) :
    database.joinRequests.find id = some row.request := by
  simp only [loadJoinRequest, Option.bind_eq_bind, Option.bind_eq_some_iff] at loaded
  rcases loaded with ⟨request, found, requester, -, host, -, built⟩
  cases built
  exact found

theorem loadInvite_find {id : Uuid} {row : InviteRow}
    (loaded : loadInvite id database = some row) :
    database.worldInvites.find id = some row.invite := by
  simp only [loadInvite, Option.bind_eq_bind, Option.bind_eq_some_iff] at loaded
  rcases loaded with ⟨invite, found, inviter, -, invitee, -, host, -, built⟩
  cases built
  exact found

end Sql

section Handlers

variable {state : AppState} {request : Request}

attribute [local simp] Request.finds Statement.execute WorldStatement.execute
  FriendStatement.execute JoinStatement.execute InviteStatement.execute

theorem meets_effectiveStatusFor {userId : Uuid} {moment : Moment}
    {onOk : PresenceStatus → Moment → Prop} {onError : AppError → Moment → Prop}
    (ok : ∀ status, onOk status moment) (error : ∀ error, onError error moment) :
    (Presence.effectiveStatusFor state userId).Meets (Logic.alone (request.finds state))
      onOk onError moment := by
  simp only [Presence.effectiveStatusFor, meets_bind, meets_query, Moment.follows_statement]
  refine ⟨trivial, fun _ => error _, fun row database executed => ?_⟩
  cases executed
  cases moment.database.presence.find userId with
  | none => exact ok _
  | some row => exact ⟨trivial, ok _⟩

abbrev Finds {Value : Type} (state : AppState) (request : Request) (handler : Handler Value) :
    Prop :=
  ∀ moment, handler.Meets (Logic.alone (request.finds state)) (fun _ _ => True)
    (fun _ _ => True) moment

theorem createJoinTicket_finds (auth worldId : Uuid) (draw : TicketDraw) :
    Finds state request (Join.createJoinTicket state auth worldId draw) := by
  intro moment
  simp [Join.createJoinTicket, Worlds.loadOpenWorldSession, Friends.areFriends,
    Join.issueTicketAndRelay, Join.fetchUserDto, Sql.selectOpenWorld_eq_some]
  intro world found isOpen notHost friends
  apply meets_effectiveStatusFor
  · intro status _ room
    exact ⟨Ne.symm notHost, friends, world, ⟨found, isOpen, room⟩, rfl⟩
  · exact fun _ => trivial

theorem createJoinRequest_finds (auth worldId newId : Uuid) :
    Finds state request (Join.createJoinRequest state auth worldId newId) := by
  intro moment
  simp [Join.createJoinRequest, Worlds.loadOpenWorldSession, Friends.areFriends,
    Join.requireLink, Join.isFriendOfActiveMember, Join.loadJoinRequest,
    Sql.selectOpenWorld_eq_some]
  intro world found isOpen notHost
  have reclaimed : ∀ (status : PresenceStatus), status.isInWorld = true →
      ∀ (reply : Nat) (database : Database),
        Sql.reclaimJoinRequests moment.clock worldId auth moment.database =
          (reply, database) →
        ¬auth = world.hostUserId ∧ ∃ found, database.worldSessions.find worldId = some found ∧
          found.hostUserId = world.hostUserId := by
    intro status _ reply database executed
    cases executed
    exact ⟨Ne.symm notHost, world, found, rfl⟩
  constructor
  · intro _ _ _
    exact meets_effectiveStatusFor reclaimed fun _ => trivial
  · intro _
    exact meets_effectiveStatusFor reclaimed fun _ => trivial

theorem acceptJoinRequest_finds (auth id : Uuid) (draw : TicketDraw) :
    Finds state (.acceptJoinRequest auth id draw) (Join.accept state auth id draw) := by
  intro moment
  simp [Join.accept, Join.admitRequest, Worlds.loadOpenWorldSession, Friends.areFriends,
    Join.fetchUserDto, Join.requireLink, Join.isFriendOfActiveMember, Join.loadJoinRequest,
    Join.loadJoinRequestForUpdate, Sql.selectOpenWorld_eq_some]
  intro transaction row loaded host pending unexpired world found isOpen
  have present := Sql.loadJoinRequest_find loaded
  constructor
  · intro _ policy member room
    exact ⟨host.symm, ⟨_, present, rfl, rfl, rfl⟩, world, ⟨found, isOpen, room⟩,
      .inr ⟨policy, member⟩⟩
  · intro friends room
    exact ⟨host.symm, ⟨_, present, rfl, rfl, rfl⟩, world, ⟨found, isOpen, room⟩,
      .inl friends⟩

theorem createInvite_finds (auth worldId invitee newId : Uuid) :
    Finds state request (Invites.create state auth worldId invitee newId) := by
  intro moment
  simp [Invites.create, Invites.initialStatus, Worlds.loadOpenWorldSession, Friends.areFriends,
    Invites.loadInvite, Sql.selectOpenWorld_eq_some]
  intro world found isOpen _ notHost _
  constructor
  · intro _ friends reply database reclaimed
    cases reclaimed
    exact ⟨notHost, friends, world, found, rfl⟩
  · intro _ _ _ _ reply database reclaimed
    cases reclaimed
    exact ⟨notHost, fun friends => friends, world, found, rfl⟩

theorem acceptInvite_finds (auth id : Uuid) (draw : TicketDraw) :
    Finds state (.acceptInvite auth id draw) (Invites.accept state auth id draw) := by
  intro moment
  simp [Invites.accept, Invites.admitInvitee, Invites.requireChain, Worlds.loadOpenWorldSession,
    Friends.areFriends, Join.fetchUserDto, Invites.loadInviteForUpdate,
    Sql.selectOpenWorld_eq_some]
  intro transaction row loaded invitee pending unexpired world found isOpen
  have present := Sql.loadInvite_find loaded
  constructor
  · intro _ policy trusted friends room
    exact ⟨invitee.symm, _, ⟨present, rfl, rfl, rfl, pending, unexpired⟩, world,
      ⟨found, isOpen, room⟩, .inr ⟨policy, trusted, friends⟩⟩
  · intro host room
    exact ⟨invitee.symm, _, ⟨present, rfl, rfl, rfl, pending, unexpired⟩, world,
      ⟨found, isOpen, room⟩, .inl host⟩

theorem approveInvite_finds (auth id : Uuid) :
    Finds state (.approveInvite auth id) (Invites.approve auth id) := by
  intro moment
  simp [Invites.approve, Invites.loadInvite]
  intro row loaded host _ _
  exact ⟨row.invite, Sql.loadInvite_find loaded, host.symm⟩

theorem updateWorld_finds (auth id : Uuid) (body : Worlds.UpdateWorldSession) :
    Finds state request (Worlds.update state auth id body) := by
  intro moment
  simp [Worlds.update]
  intro world found _
  refine Worlds.mergedMaxPlayers_meets (fun maxPlayers _ => ?_) (fun _ => trivial)
  refine Worlds.parseOr_meets (fun status _ => ?_) (fun _ => trivial)
  refine Worlds.parseOr_meets (fun invitePolicy _ => ?_) (fun _ => trivial)
  have told : ∀ moment, (Worlds.announcePolicy id world.hostUserId invitePolicy).Meets
      (Logic.alone (request.finds state)) (fun _ _ => True) (fun _ _ => True) moment := by
    apply (Worlds.announcePolicy_serves id world.hostUserId invitePolicy .ordinary).alone
    intro operation serving moment
    exact Request.finds_ordinary serving.ordinary
  constructor
  · intro _ _
    simp [Worlds.updateClosing, Worlds.closeWorldCleanup]
    intro transaction _ updated database _ _
    exact told _
  · intro stays
    exact ⟨⟨world, found, stays⟩, fun _ _ _ _ => told _⟩

theorem closeWorld_finds (auth id : Uuid) :
    Finds state request (Worlds.close auth id) := by
  intro moment
  simp [Worlds.close, Worlds.shutWorld, Worlds.closeWorldCleanup]

end Handlers

/-! ## Every request -/

def Purpose.guarded : Purpose → Bool
  | updateWorld => true
  | closeWorld => true
  | joinTicket => true
  | joinRequest => true
  | acceptJoinRequest => true
  | invite => true
  | acceptInvite => true
  | approveInvite => true
  | _ => false

theorem Request.finds_unguarded {state : AppState} {request : Request} {moment : Moment}
    {operation : Operation} (unguarded : operation.purpose.guarded = false) :
    request.finds state moment operation := by
  unfold finds
  split <;> trivial

theorem serving_unguarded {purpose : Purpose} (unguarded : purpose.guarded = false)
    {operation : Operation} (serving : Serving purpose operation) :
    operation.purpose.guarded = false := by
  rcases serving with ordinary | own | ⟨transaction, -⟩
  · rw [ordinary]
    rfl
  · rw [own]
    exact unguarded
  · rw [transaction]
    rfl

/-- Whichever request runs alone, its operations find what it has checked. -/
theorem handle_finds (state : AppState) (request : Request) (moment : Moment) :
    (handle state request).Meets (Logic.alone (request.finds state)) (fun _ _ => True)
      moment := by
  cases guarded : request.purpose.guarded with
  | false =>
      refine uses_alone ?_ (handle_serves state request) moment
      intro operation serving moment
      exact Request.finds_unguarded (serving_unguarded guarded serving)
  | true =>
      refine meets_run.mpr ?_
      cases request with
      | createJoinTicket auth worldId draw =>
          rw [Request.handler, meets_map]
          exact createJoinTicket_finds auth worldId draw moment
      | createJoinRequest auth worldId newId =>
          rw [Request.handler, meets_map]
          exact createJoinRequest_finds auth worldId newId moment
      | acceptJoinRequest auth id draw =>
          rw [Request.handler, meets_map]
          exact acceptJoinRequest_finds auth id draw moment
      | createInvite auth worldId invitee newId =>
          rw [Request.handler, meets_map]
          exact createInvite_finds auth worldId invitee newId moment
      | acceptInvite auth id draw =>
          rw [Request.handler, meets_map]
          exact acceptInvite_finds auth id draw moment
      | approveInvite auth id =>
          rw [Request.handler, meets_map]
          exact approveInvite_finds auth id moment
      | updateWorld auth id body =>
          rw [Request.handler, meets_map]
          exact updateWorld_finds auth id body moment
      | closeWorld auth id =>
          rw [Request.handler, meets_map]
          exact closeWorld_finds auth id moment
      | _ => cases guarded

def handlesWhole : Turn Request → Bool
  | .move (.start request) => !request.purpose.guarded
  | _ => true

abbrev Found (state : AppState) : Pool network Request (Except AppError Reply) → Prop :=
  Guarded fun request moment operation => request.finds state moment operation

theorem found_turn {state : AppState} {pool next : Pool network Request (Except AppError Reply)}
    {choice : Turn Request} (found : Found state pool) (whole : handlesWhole choice = true)
    (turned : pool.turn (handle state) choice = some next) : Found state next := by
  refine guarded_turn (fun request => request.purpose.guarded = false)
    (handle_finds state) (fun request unguarded => ?_) found (fun request made => ?_) turned
  · refine (handle_serves state request).mono fun operation serving moment => ?_
    exact Request.finds_unguarded (serving_unguarded unguarded serving)
  · rw [made] at whole
    simpa [handlesWhole] using whole

theorem found_of_turns {state : AppState} {service : Service}
    {final : Pool network Request (Except AppError Reply)} {turns : List (Turn Request)}
    (whole : ∀ turn ∈ turns, handlesWhole turn = true)
    (reached : run (Pool.turn (handle state)) (.initial service) turns = some final) :
    Found state final := by
  refine invariant_along (Found state) (fun pool choice next found whole => ?_)
    (Pool.kept_initial service) (Along.of_forall whole) reached
  exact found_turn found whole

/-! ## The service over its restarts

A restart drops every connection, transaction and lock with the processes that
held them. The database stays, and is reconciled before requests are taken. -/

def Service.restarted (database : Database) (clock : Timestamp) : Option Service :=
  ((Cleanup.reconcileAfterRestart.run).execute 0 [] (.boot database clock) []).bind
    fun (outcome, service, _) =>
      match outcome with
      | .ok _ => some service
      | .error _ => none

inductive Stage where
  | turn (turn : Turn Request)
  | restart (clock : Timestamp)

def Stage.whole : Stage → Bool
  | turn choice => handlesWhole choice
  | restart _ => true

def serve (state : AppState) (pool : Pool network Request (Except AppError Reply)) :
    Stage → Option (Pool network Request (Except AppError Reply))
  | .turn choice => pool.turn (handle state) choice
  | .restart clock => (Service.restarted pool.shared.database clock).map .initial

theorem Service.restarted_traced {database : Database} {clock : Timestamp}
    {service : Service} (restarted : Service.restarted database clock = some service) :
    ∃ taken, @Traced network (.boot database clock) taken service ∧
      ∀ event ∈ taken, event.operation.purpose.guarded = false := by
  rcases Option.bind_eq_some_iff.mp restarted with ⟨⟨outcome, after, later⟩, executed, built⟩
  cases outcome with
  | error error => cases built
  | ok done =>
      cases built
      have uses : (Cleanup.reconcileAfterRestart.run).Uses (Handler.Serving .restart) :=
        Cleanup.reconcileAfterRestart_serves
      rcases Process.execute_traced uses executed with ⟨taken, history, traced, serving⟩
      rw [List.append_nil] at history
      subst history
      exact ⟨later, traced, fun event member => serving_unguarded rfl (serving event member)⟩

/-- A property of the database that every event keeps, when it finds what its
request has checked, is kept over any number of restarts. -/
theorem serve_invariant {state : AppState} (Inv : Database → Prop)
    (preserved : ∀ (event : Event network) (request : Request), event.Happened →
      request.finds state event.before.moment event.operation →
      Inv event.before.database → Inv event.after.database)
    {pool final : Pool network Request (Except AppError Reply)} {stages : List Stage}
    (whole : ∀ stage ∈ stages, stage.whole = true)
    (reached : run (serve state) pool stages = some final)
    (found : Found state pool) (holds : Inv pool.shared.database) :
    Found state final ∧ Inv final.shared.database := by
  refine invariant_along (fun pool => Found state pool ∧ Inv pool.shared.database)
    (fun pool stage next inv whole served => ?_) ⟨found, holds⟩ (Along.of_forall whole) reached
  rcases inv with ⟨found, holds⟩
  cases stage with
  | turn choice =>
      have foundNext := found_turn found whole served
      rcases Pool.since_turn served with ⟨taken, history, traced⟩
      refine ⟨foundNext, @Traced.invariant network _ _ _ (fun _ service => Inv service.database)
        traced holds fun event older suffix happened holds => ?_⟩
      have member : event ∈ next.history := by
        rw [history]
        exact List.mem_append_left _ (suffix.subset List.mem_cons_self)
      rcases foundNext.events event member with ⟨request, -, finds⟩
      exact preserved event request happened finds holds
  | restart clock =>
      simp only [serve, Option.map_eq_some_iff] at served
      rcases served with ⟨service, restarted, rfl⟩
      rcases Service.restarted_traced restarted with ⟨taken, traced, unguarded⟩
      refine ⟨@Pool.kept_initial network _ _ _ service, @Traced.invariant network _ _ _
        (fun _ service => Inv service.database) traced holds
        fun event older suffix happened holds => ?_⟩
      exact preserved event (.tick 0) happened
        (Request.finds_unguarded (unguarded event (suffix.subset List.mem_cons_self))) holds

end Loontail
