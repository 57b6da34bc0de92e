import Loontail.Guarantees.RequestLifecycle
import Loontail.Network.Scripted
import Loontail.Relational.Evolution

/-! # Asking again once a request has lapsed

A lapsed invite or join request keeps its slot in the partial unique index until the next
creation for the same pair frees it. -/

namespace Loontail

open Concurrency Relational Network Handler

def AppError.isConflict : AppError → Bool
  | .conflict _ => true
  | _ => false

def answersConflict {Value : Type} : Except AppError Value → Bool
  | .ok _ => false
  | .error error => error.isConflict

def answered {Value : Type} : Except DatabaseError Value → Bool
  | .error .connection => false
  | _ => true

def answersInsert : Event network → Bool
  | ⟨_, _, .statement (.invite (.insert ..)), result, _⟩ => answered result
  | ⟨_, _, .statement (.join (.insert ..)), result, _⟩ => answered result
  | _ => false

/-- No pair has more than one active invite, or more than one pending join request. -/
structure Database.OneActiveEach (database : Database) : Prop where
  invites : ∀ left ∈ database.worldInvites.rows, ∀ right ∈ database.worldInvites.rows,
    left.status.isActive = true → right.status.isActive = true →
    left.worldSessionId = right.worldSessionId → left.inviteeUserId = right.inviteeUserId →
    left = right
  requests : ∀ left ∈ database.joinRequests.rows, ∀ right ∈ database.joinRequests.rows,
    left.status = .pending → right.status = .pending →
    left.worldSessionId = right.worldSessionId → left.requesterUserId = right.requesterUserId →
    left = right

theorem Database.oneActiveEach (database : Database) : database.OneActiveEach where
  invites := fun left leftMem right rightMem leftActive rightActive world invitee =>
    Table.eq_of_slot_eq leftMem rightMem (if_pos leftActive)
      (by rw [world, invitee]; exact if_pos rightActive)
  requests := fun left leftMem right rightMem leftPending rightPending world requester =>
    Table.eq_of_slot_eq leftMem rightMem (if_pos leftPending)
      (by rw [world, requester]; exact if_pos rightPending)

/-! ## The operations before the insert -/

def Operation.Reads : Operation → Prop
  | .statement (.world (.selectOpen _)) => True
  | .statement (.friend (.userExists _)) => True
  | .statement (.friend (.areFriends ..)) => True
  | .statement (.presence (.select _)) => True
  | .statement (.join (.isFriendOfActiveMember ..)) => True
  | .statement (.join (.load _)) => True
  | .statement (.invite (.load _)) => True
  | .now => True
  | .signaling (.sendTo ..) => True
  | _ => False

theorem Operation.Reads.still {operation : Operation} (reads : operation.Reads) :
    operation.Still := by
  unfold Reads at reads
  split at reads
  case h_8 =>
    intro before result after occurs
    rcases occurs with ⟨-, performed⟩ | ⟨-, rfl⟩
    · cases performed
      rfl
    · rfl
  case h_9 => exact sendTo_still _ _
  case h_10 => exact reads.elim
  all_goals
    exact Statement.still_of_reads fun _ _ _ _ executed =>
      (Prod.mk.inj (Except.ok.inj executed)).2.symm

theorem Operation.Reads.unanswered {operation : Operation} (reads : operation.Reads)
    {index : Nat} (before : Service) (result : operation.Result) (after : Service) :
    answersInsert ⟨index, before, operation, result, after⟩ = false := by
  unfold Reads at reads
  split at reads
  case h_10 => exact reads.elim
  all_goals rfl

abbrev inserting (index : Nat) : Logic network := .scripted network index answersInsert

theorem reads_inserting {Value : Type} {handler : Handler Value} (ok : Value → Prop)
    (failed : AppError → Prop)
    (reads : handler.Meets (.footprint Operation.Reads) (fun value _ => ok value)
      (fun error _ => failed error) ())
    {index : Nat} {moment : Moment} {service : Service} {rest : List Bool} {marked : Bool}
    (same : service.moment = moment) :
    handler.Meets (inserting index)
      (fun value following => ok value ∧ following.1.moment = moment ∧ following.2.2 = marked)
      (fun error following => failed error ∧ following.1.moment = moment ∧ following.2.2 = marked)
      (service, rest, marked) :=
  Handler.Meets.keeping (fun _ reads => reads.still.keeps_scripted reads.unanswered) reads
    ⟨same, rfl⟩

theorem reads_before {Value : Type} {handler : Handler Value} (ok : Value → Prop)
    (reads : handler.Meets (.footprint Operation.Reads) (fun value _ => ok value)
      (fun _ _ => True) ())
    {index : Nat} {moment : Moment} {service : Service} {rest : List Bool}
    {onOk : Value → Service × List Bool × Bool → Prop}
    {onError : AppError → Service × List Bool × Bool → Prop}
    (same : service.moment = moment)
    (early : ∀ error service rest, onError error (service, rest, false))
    (continued : ∀ value service rest, ok value → service.moment = moment →
      onOk value (service, rest, false)) :
    handler.Meets (inserting index) onOk onError (service, rest, false) := by
  refine (reads_inserting ok (fun _ => True) reads same).mono ?_ ?_
  · rintro value ⟨service, rest, marked⟩ ⟨held, same, rfl⟩
    exact continued value service rest held same
  · rintro error ⟨service, rest, marked⟩ ⟨-, -, rfl⟩
    exact early error service rest

theorem reclaim_before {statement : Statement} {reply : statement.Reply} {moment : Moment}
    {database : Database} {index : Nat} {service : Service} {rest : List Bool}
    {onOk : statement.Reply → Service × List Bool × Bool → Prop}
    {onError : AppError → Service × List Bool × Bool → Prop}
    (unanswered : ∀ before result after,
      answersInsert ⟨index, before, .statement statement, result, after⟩ = false)
    (executed : statement.execute moment.clock moment.database = .ok (reply, database))
    (same : service.moment = moment)
    (early : ∀ error service rest, onError error (service, rest, false))
    (continued : ∀ service rest, service.moment = ⟨database, moment.clock⟩ →
      onOk reply (service, rest, false)) :
    (query statement).Meets (inserting index) onOk onError (service, rest, false) := by
  subst same
  refine (meets_query statement).mpr ⟨fun _ result fault => ?_, fun _ result after _ performed => ?_⟩
  · cases fault
    rw [unanswered]
    exact early _ _ _
  · rw [unanswered]
    change service.perform (.statement statement) = (result, after) at performed
    rw [Service.perform, show statement.execute service.clock service.database = _ from executed]
      at performed
    cases performed
    exact continued _ _ rfl

theorem insert_answered {statement : Statement} {message : String} {index : Nat}
    {moment : Moment} {service : Service} {rest : List Bool}
    {onOk : statement.Reply → Service × List Bool × Bool → Prop}
    {onError : AppError → Service × List Bool × Bool → Prop}
    (counted : ∀ before result after, answersInsert ⟨index, before, .statement statement,
      result, after⟩ = answered result)
    (same : service.moment = moment)
    (early : ∀ error service rest, onError error (service, rest, false))
    (settled : (∃ reply database,
        statement.execute moment.clock moment.database = .ok (reply, database) ∧
          ∀ service rest, service.moment = ⟨database, moment.clock⟩ →
            onOk reply (service, rest, true)) ∨
      statement.execute moment.clock moment.database = .error .uniqueViolation ∧
        ∀ service rest, service.moment = moment →
          onError (.conflict message) (service, rest, true)) :
    (insertUnique statement message).Meets (inserting index) onOk onError
      (service, rest, false) := by
  subst same
  refine (meets_insertUnique statement message).mpr
    ⟨fun _ result fault => ?_, fun _ result after _ performed => ?_⟩
  · cases fault
    rw [counted]
    exact early _ _ _
  · rw [counted]
    change service.perform (.statement statement) = (result, after) at performed
    rcases settled with ⟨reply, database, executed, continued⟩ | ⟨executed, continued⟩
    · rw [Service.perform, show statement.execute service.clock service.database = _ from executed]
        at performed
      cases performed
      exact continued _ _ rfl
    · rw [Service.perform, show statement.execute service.clock service.database = _ from executed]
        at performed
      cases performed
      exact continued _ _ rfl

theorem reads_after {Value : Type} {handler : Handler Value}
    (reads : handler.Meets (.footprint Operation.Reads) (fun _ _ => True)
      (fun error _ => error.isConflict = false) ())
    {index : Nat} {moment : Moment} {service : Service} {rest : List Bool}
    {judged : Database → Bool → Prop} (same : service.moment = moment)
    (holds : judged moment.database false) :
    handler.Meets (inserting index)
      (fun _ following => following.2.2 = true → judged following.1.database false)
      (fun error following => following.2.2 = true → judged following.1.database error.isConflict)
      (service, rest, true) := by
  refine (reads_inserting (fun _ => True) (fun error => error.isConflict = false) reads same).mono
    ?_ ?_
  · rintro value ⟨service, rest, marked⟩ ⟨-, same, -⟩ -
    rwa [show service.database = moment.database from congrArg Moment.database same]
  · rintro error ⟨service, rest, marked⟩ ⟨other, same, -⟩ -
    rwa [other, show service.database = moment.database from congrArg Moment.database same]

/-! ## Invites -/

/-- What comes of inviting the player: refused where an unexpired active invite to the
world stands, and otherwise the lapsed ones expire and a new one is active. -/
abbrev InviteReclaimed (moment : Moment) (worldId invitee newId : Uuid) (after : Database)
    (refused : Bool) : Prop :=
  Table.Reclaimed (worldId, invitee) newId (fun invite => moment.clock < invite.expiresAt)
    (Table.revise (fun invite => invite.worldSessionId = worldId &&
        invite.inviteeUserId = invitee && Sql.inviteLapsed moment.clock invite)
      (fun invite => { invite with status := .expired, updatedAt := moment.clock }))
    moment.database.worldInvites after.worldInvites refused

section Invites

variable {state : AppState} {auth worldId host invitee newId : Uuid} {moment : Moment}
  {status : RequestStatus} {expiresAt : Timestamp} {index : Nat}

theorem Sql.insertInvite_reclaimed (notSelf : auth ≠ invitee) (active : status.isActive = true)
    (fresh : newId ∉ moment.database.worldInvites.issued) :
    (∃ after, insertInvite moment.clock worldId host auth invitee status expiresAt newId
        (reclaimInvites moment.clock worldId invitee moment.database).2 = .ok (newId, after) ∧
      InviteReclaimed moment worldId invitee newId after false) ∨
    insertInvite moment.clock worldId host auth invitee status expiresAt newId
        (reclaimInvites moment.clock worldId invitee moment.database).2 =
          .error .uniqueViolation ∧
      InviteReclaimed moment worldId invitee newId
        (reclaimInvites moment.clock worldId invitee moment.database).2 true := by
  have settled := @Table.reclaimed_of_insert _ _ _ worldInviteLayout
    moment.database.worldInvites
    (reclaimInvites moment.clock worldId invitee moment.database).2.worldInvites
    (fun invite => invite.worldSessionId = worldId && invite.inviteeUserId = invitee &&
      inviteLapsed moment.clock invite)
    (fun invite => { invite with status := .expired, updatedAt := moment.clock })
    (fun invite => moment.clock < invite.expiresAt) (worldId, invitee) _ _
    { id := newId, worldSessionId := worldId, hostUserId := host, inviterUserId := auth
      inviteeUserId := invitee, status, expiresAt, createdAt := moment.clock
      updatedAt := moment.clock, notSelf }
    (fun invite => ?_) (fun _ _ => rfl) rfl (if_pos active) fresh
  · unfold insertInvite
    rw [dif_pos notSelf]
    split
    · rename_i grown inserted
      rw [inserted] at settled
      exact .inl ⟨_, rfl, settled⟩
    · rename_i inserted
      rw [inserted] at settled
      exact .inr ⟨rfl, settled⟩
  · cases waits : invite.status.isActive <;> simp [inviteLapsed, waits, and_assoc]

theorem createInvite_reclaimed {before : Service} {rest : List Bool} (same : before.moment = moment)
    (fresh : newId ∉ moment.database.worldInvites.issued) :
    (Invites.create state auth worldId invitee newId).Meets (inserting index)
      (fun _ following => following.2.2 = true →
        InviteReclaimed moment worldId invitee newId following.1.database false)
      (fun error following => following.2.2 = true →
        InviteReclaimed moment worldId invitee newId following.1.database error.isConflict)
      (before, rest, false) := by
  have early : ∀ {service : Service} {after : Database} {rest : List Bool} {refused : Bool},
      (service, rest, false).2.2 = true →
        InviteReclaimed moment worldId invitee newId after refused := by
    intro service after rest refused marked
    cases marked
  unfold Invites.create
  simp only [meets_bind, meets_refuse]
  refine reads_before (fun _ => True) ?_ same (fun _ _ _ => early) fun world service rest _ same => ?_
  · simp [Worlds.loadOpenWorldSession, forall_except, Operation.Reads]
  refine ⟨fun _ => early, fun own => ⟨fun _ => early, fun _ => ?_⟩⟩
  refine reads_before (fun _ => True) ?_ same (fun _ _ _ => early) fun known service rest _ same => ?_
  · simp [forall_except, Operation.Reads]
  refine ⟨fun _ => early, fun _ => ?_⟩
  refine reads_before (fun status => status.isActive = true) ?_ same (fun _ _ _ => early)
    fun status service rest active same => ?_
  · simp [Invites.initialStatus, Friends.areFriends, forall_except, Operation.Reads,
      RequestStatus.isActive]
  refine reads_before (fun _ => True) ?_ same (fun _ _ _ => early) fun time service rest _ same => ?_
  · simp [Operation.Reads]
  refine reclaim_before (fun _ _ _ => rfl) rfl same (fun _ _ _ => early) fun service rest same => ?_
  have notSelf : auth ≠ invitee := Ne.symm (by simpa using own)
  refine insert_answered (fun _ _ _ => rfl) same (fun _ _ _ => early) ?_
  rcases @Sql.insertInvite_reclaimed auth worldId world.hostUserId invitee newId moment status
    (time + ttlOrElse state.config.inviteTtl 600) notSelf active fresh with
    ⟨after, executed, reclaimed⟩ | ⟨refused, reclaimed⟩
  · refine .inl ⟨newId, after, executed, fun service rest same => ?_⟩
    rw [← meets_bind]
    refine @reads_after _ _ ?_ index ⟨after, moment.clock⟩ service rest
      (InviteReclaimed moment worldId invitee newId) same reclaimed
    simp [Invites.loadInvite, forall_except, Operation.Reads, AppError.isConflict]
  · refine .inr ⟨refused, fun service rest same _ => ?_⟩
    rwa [show service.database = _ from congrArg Moment.database same]

end Invites

/-! ## Join requests -/

/-- What comes of asking to join: refused where an unexpired pending request of the player
stands, and otherwise the lapsed one expires and a new one is pending. -/
abbrev RequestReclaimed (moment : Moment) (worldId requester newId : Uuid) (after : Database)
    (refused : Bool) : Prop :=
  Table.Reclaimed (worldId, requester) newId (fun request => moment.clock < request.expiresAt)
    (Table.revise (fun request => request.worldSessionId = worldId &&
        request.requesterUserId = requester && Sql.joinRequestLapsed moment.clock request)
      (fun request => { request with status := .expired, updatedAt := moment.clock }))
    moment.database.joinRequests after.joinRequests refused

section Requests

variable {state : AppState} {auth worldId host newId : Uuid} {moment : Moment}
  {expiresAt : Timestamp} {index : Nat}

theorem Sql.insertJoinRequest_reclaimed (fresh : newId ∉ moment.database.joinRequests.issued) :
    (∃ after, insertJoinRequest moment.clock auth host worldId expiresAt newId
        (reclaimJoinRequests moment.clock worldId auth moment.database).2 = .ok (newId, after) ∧
      RequestReclaimed moment worldId auth newId after false) ∨
    insertJoinRequest moment.clock auth host worldId expiresAt newId
        (reclaimJoinRequests moment.clock worldId auth moment.database).2 =
          .error .uniqueViolation ∧
      RequestReclaimed moment worldId auth newId
        (reclaimJoinRequests moment.clock worldId auth moment.database).2 true := by
  have settled := @Table.reclaimed_of_insert _ _ _ joinRequestLayout
    moment.database.joinRequests
    (reclaimJoinRequests moment.clock worldId auth moment.database).2.joinRequests
    (fun request => request.worldSessionId = worldId && request.requesterUserId = auth &&
      joinRequestLapsed moment.clock request)
    (fun request => { request with status := .expired, updatedAt := moment.clock })
    (fun request => moment.clock < request.expiresAt) (worldId, auth) _ _
    { id := newId, requesterUserId := auth, hostUserId := host, worldSessionId := worldId
      status := .pending, expiresAt, createdAt := moment.clock, updatedAt := moment.clock }
    (fun request => ?_) (fun _ _ => rfl) rfl rfl fresh
  · unfold insertJoinRequest
    split
    · rename_i grown inserted
      rw [inserted] at settled
      exact .inl ⟨_, rfl, settled⟩
    · rename_i inserted
      rw [inserted] at settled
      exact .inr ⟨rfl, settled⟩
  · by_cases waits : request.status = .pending <;> simp [joinRequestLapsed, waits, and_assoc]

theorem createJoinRequest_reclaimed {before : Service} {rest : List Bool}
    (same : before.moment = moment) (fresh : newId ∉ moment.database.joinRequests.issued) :
    (Join.createJoinRequest state auth worldId newId).Meets (inserting index)
      (fun _ following => following.2.2 = true →
        RequestReclaimed moment worldId auth newId following.1.database false)
      (fun error following => following.2.2 = true →
        RequestReclaimed moment worldId auth newId following.1.database error.isConflict)
      (before, rest, false) := by
  have early : ∀ {service : Service} {after : Database} {rest : List Bool} {refused : Bool},
      (service, rest, false).2.2 = true →
        RequestReclaimed moment worldId auth newId after refused := by
    intro service after rest refused marked
    cases marked
  unfold Join.createJoinRequest
  simp only [meets_bind, meets_refuse]
  refine reads_before (fun _ => True) ?_ same (fun _ _ _ => early) fun world service rest _ same => ?_
  · simp [Worlds.loadOpenWorldSession, forall_except, Operation.Reads]
  refine ⟨fun _ => early, fun _ => ?_⟩
  refine reads_before (fun _ => True) ?_ same (fun _ _ _ => early) fun _ service rest _ same => ?_
  · simp [Join.requireLink, Friends.areFriends, Join.isFriendOfActiveMember, forall_except,
      Operation.Reads]
  refine reads_before (fun _ => True) ?_ same (fun _ _ _ => early) fun status service rest _ same => ?_
  · simp only [Presence.effectiveStatusFor, meets_bind]
    simp [forall_except, Operation.Reads]
    intro row
    cases row <;> simp [Operation.Reads]
  refine ⟨fun _ => early, fun _ => ?_⟩
  refine reads_before (fun _ => True) ?_ same (fun _ _ _ => early) fun time service rest _ same => ?_
  · simp [Operation.Reads]
  refine reclaim_before (fun _ _ _ => rfl) rfl same (fun _ _ _ => early) fun service rest same => ?_
  refine insert_answered (fun _ _ _ => rfl) same (fun _ _ _ => early) ?_
  rcases @Sql.insertJoinRequest_reclaimed auth worldId world.hostUserId newId moment
    (time + ttlOrElse state.config.joinRequestTtl 60) fresh with
    ⟨after, executed, reclaimed⟩ | ⟨refused, reclaimed⟩
  · refine .inl ⟨newId, after, executed, fun service rest same => ?_⟩
    simp only [← meets_bind]
    refine @reads_after _ _ ?_ index ⟨after, moment.clock⟩ service rest
      (RequestReclaimed moment worldId auth newId) same reclaimed
    simp [Join.loadJoinRequest, forall_except, Operation.Reads, AppError.isConflict]
  · refine .inr ⟨refused, fun service rest same _ => ?_⟩
    rwa [show service.database = _ from congrArg Moment.database same]

end Requests

def Request.Creates (database : Database) : Request → Prop
  | .createInvite _ _ _ newId => newId ∉ database.worldInvites.issued
  | .createJoinRequest _ _ newId => newId ∉ database.joinRequests.issued
  | _ => False

def Request.Reclaimed (moment : Moment) (after : Database) (refused : Bool) : Request → Prop
  | .createInvite _ worldId invitee newId =>
      InviteReclaimed moment worldId invitee newId after refused
  | .createJoinRequest auth worldId newId =>
      RequestReclaimed moment worldId auth newId after refused
  | _ => False

theorem reclaimed_of_executed {Value : Type} {handler : Handler Value} {apply : Value → Reply}
    {judged : Database → Bool → Prop} {index : Nat} {script : List Bool}
    {before after : Service} {outcome : Except AppError Reply} {events : List (Event network)}
    (meets : handler.Meets (inserting index)
      (fun _ following => following.2.2 = true → judged following.1.database false)
      (fun error following =>
        following.2.2 = true → judged following.1.database error.isConflict)
      (before, script, false))
    (executed : (apply <$> handler).run.execute index script before [] =
      some (outcome, after, events))
    (attempted : events.any answersInsert = true) :
    judged after.database (answersConflict outcome) := by
  have mapped : (apply <$> handler).Meets (inserting index)
      (fun _ following => following.2.2 = true → judged following.1.database false)
      (fun error following => following.2.2 = true → judged following.1.database error.isConflict)
      (before, script, false) := (meets_map apply handler).mpr meets
  have whole : Process.Meets (inserting index)
      (fun outcome following => following.2.2 = true →
        judged following.1.database (answersConflict outcome))
      (apply <$> handler).run (before, script, false) := by
    refine Process.Meets.mono (fun outcome following holds => ?_) mapped
    cases outcome with
    | ok value => exact holds
    | error failure => exact holds
  exact @Process.execute_scripted network _ _ index script before after [] events _ answersInsert
    (fun outcome after attempted => attempted = true →
      judged after.database (answersConflict outcome)) whole executed attempted

/-- A creation that gets as far as its insert is answered with 409 exactly if an unexpired
row of the pair waits, and otherwise adds one active row; no pair ever has two. -/
theorem slots_reclaimed (state : AppState) :
    (∀ (database : Database) (clock : Timestamp) (moves : List (Move Request))
      (pool : Pool network Request (Except AppError Reply)),
      run (Pool.move (handle state)) (.initial (.boot database clock)) moves = some pool →
      pool.shared.database.OneActiveEach) ∧
    ∀ (request : Request) (index : Nat) (script : List Bool) (before after : Service)
      (outcome : Except AppError Reply) (events : List (Event network)),
      request.Creates before.database →
      (handle state request).execute index script before [] = some (outcome, after, events) →
      events.any answersInsert = true →
      request.Reclaimed before.moment after.database (answersConflict outcome) := by
  refine ⟨fun _ _ _ pool _ => pool.shared.database.oneActiveEach, ?_⟩
  intro request index script before after outcome events creates executed attempted
  cases request with
  | createInvite auth worldId invitee newId =>
      exact reclaimed_of_executed (createInvite_reclaimed rfl creates) executed attempted
  | createJoinRequest auth worldId newId =>
      exact reclaimed_of_executed (createJoinRequest_reclaimed rfl creates) executed attempted
  | _ => exact creates.elim

theorem host_before_invitee : (2 : Uuid) < 5 := by decide

def befriendedDatabase : Database :=
  { invitedDatabase with
    friendships := {
      rows := [{ id := 4, userAId := 2, userBId := 5, ordered := host_before_invitee }]
      issued := [4]
      keysUnique := by decide
      slotsUnique := by decide
      keysIssued := by decide } }

/-- The host invites the player again once the invite has lapsed. -/
theorem slots_reclaimed_lapsed :
    ∃ outcome after events, (handle plainState (.createInvite 5 3 2 8)).execute 0 []
        (.boot befriendedDatabase 100) [] = some (outcome, after, events) ∧
      InviteReclaimed ⟨befriendedDatabase, 100⟩ 3 2 8 after.database false := by
  have invites : ((handle plainState (.createInvite 5 3 2 8)).execute 0 []
      (.boot befriendedDatabase 100) []).map
        (fun run => (run.2.2.any answersInsert, answersConflict run.1)) = some (true, false) := by
    decide +kernel
  obtain ⟨⟨outcome, after, events⟩, executed, seen⟩ := Option.map_eq_some_iff.mp invites
  obtain ⟨attempted, granted⟩ := Prod.mk.inj seen
  have reclaimed := (slots_reclaimed plainState).2 (.createInvite 5 3 2 8) 0 []
    (.boot befriendedDatabase 100) after outcome events (show 8 ∉ [7] by decide) executed attempted
  rw [granted] at reclaimed
  exact ⟨outcome, after, events, executed, reclaimed⟩

end Loontail
