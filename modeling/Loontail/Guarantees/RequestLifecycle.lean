import Loontail.Guarantees.SingleUseTicket
import Loontail.Network.RequestRevision
import Mathlib.Algebra.GroupWithZero.Nat

/-! # The life of a join request and of an invite

Both tables are kept the same way: a row waits, is settled once, and lets one
guest in when it is accepted. What is common is stated for a docket. -/

namespace Loontail

open Concurrency Relational Network

/-- A table of requests: the status of each, the identifiers ever issued, and
the operation that accepts a request. -/
structure Docket where
  status : Database → Uuid → Option RequestStatus
  issued : Database → List Uuid
  accepts : Uuid → Operation → Bool

def Docket.of {Row Slot : Type} {layout : Layout Row Uuid Slot}
    (table : Database → Table layout) (status : Row → RequestStatus)
    (accepts : Uuid → Operation → Bool) : Docket where
  status := fun database id => ((table database).find id).map status
  issued := fun database => (table database).issued
  accepts := accepts

def joinRequestDocket : Docket :=
  .of Database.joinRequests JoinRequest.status fun id operation => match operation with
    | .statement (.join (.commitAccept _ request ..)) => request = id
    | _ => false

def inviteDocket : Docket :=
  .of Database.worldInvites WorldInvite.status fun id operation => match operation with
    | .statement (.invite (.commitAccept _ invite ..)) => invite = id
    | _ => false

def ticketsMinted (event : Event network) : Nat :=
  event.after.database.joinTickets.rows.length -
    event.before.database.joinTickets.rows.length

def relaysMinted (event : Event network) : Nat :=
  event.after.database.relaySessions.rows.length -
    event.before.database.relaySessions.rows.length

namespace Docket

def becomesAccepted (docket : Docket) (id : Uuid) (event : Event network) : Bool :=
  docket.status event.after.database id = some .accepted &&
    docket.status event.before.database id ≠ some .accepted

theorem becomesAccepted_iff {docket : Docket} {id : Uuid} {event : Event network} :
    docket.becomesAccepted id event = true ↔
      docket.status event.after.database id = some .accepted ∧
        docket.status event.before.database id ≠ some .accepted := by
  simp [becomesAccepted]

def caused (docket : Docket) (measure : Event network → Nat) (id : Uuid)
    (history : List (Event network)) : Nat :=
  ((history.filter fun event => docket.accepts id event.operation).map measure).sum

/-- A request causes at most one ticket and one relay session, just when it
becomes accepted, and once settled it keeps its status until it is deleted. -/
structure LifeCycle (docket : Docket) (id : Uuid) (history : List (Event network)) :
    Prop where
  oneTicket : docket.caused ticketsMinted id history ≤ 1
  oneRelay : docket.caused relaysMinted id history ≤ 1
  accepted : ∀ event ∈ history, docket.becomesAccepted id event = true →
    docket.accepts id event.operation = true
  minted : ∀ event ∈ history, docket.accepts id event.operation = true →
    ticketsMinted event = (if docket.becomesAccepted id event then 1 else 0) ∧
      relaysMinted event = if docket.becomesAccepted id event then 1 else 0
  settled : ∀ event ∈ history, ∀ status,
    docket.status event.before.database id = some status →
    terminalInvite status = true →
    docket.status event.after.database id = none ∨
      docket.status event.after.database id = some status

structure Standing (docket : Docket) : Prop where
  recorded : ∀ database id, docket.status database id ≠ none → id ∈ docket.issued database
  issued : ∀ event : Event network, event.Happened → ∀ id,
    id ∈ docket.issued event.before.database → id ∈ docket.issued event.after.database
  gone : ∀ event : Event network, event.Happened → ∀ id,
    id ∈ docket.issued event.before.database →
    docket.status event.before.database id = none →
    docket.status event.after.database id = none
  settled : ∀ event : Event network, event.Happened → ∀ id status,
    docket.status event.before.database id = some status →
    terminalInvite status = true →
    docket.status event.after.database id = none ∨
      docket.status event.after.database id = some status

/-- Rows become accepted by the accepting operation, which mints just then.
`allowed` are the operations that requests take. -/
structure Law (docket : Docket) (allowed : Operation → Prop) : Prop
    extends docket.Standing where
  accepted : ∀ event : Event network, event.Happened → allowed event.operation → ∀ id,
    docket.becomesAccepted id event = true → docket.accepts id event.operation = true
  minted : ∀ event : Event network, event.Happened → ∀ id,
    docket.accepts id event.operation = true →
    ticketsMinted event = (if docket.becomesAccepted id event then 1 else 0) ∧
      relaysMinted event = if docket.becomesAccepted id event then 1 else 0

variable {docket : Docket} {allowed : Operation → Prop}

theorem caused_cons (measure : Event network → Nat) (id : Uuid) (event : Event network)
    (history : List (Event network)) :
    docket.caused measure id (event :: history) =
      (if docket.accepts id event.operation then measure event else 0) +
        docket.caused measure id history := by
  by_cases accepts : docket.accepts id event.operation = true <;> simp [caused, accepts]

private theorem Law.stays (law : docket.Law allowed) {event : Event network} {id : Uuid}
    (happened : event.Happened)
    (spent : id ∈ docket.issued event.before.database ∧
      (docket.status event.before.database id = none ∨
        docket.status event.before.database id = some .accepted)) :
    id ∈ docket.issued event.after.database ∧
      (docket.status event.after.database id = none ∨
        docket.status event.after.database id = some .accepted) := by
  refine ⟨law.issued event happened id spent.1, ?_⟩
  rcases spent.2 with gone | accepted
  · exact .inl (law.gone event happened id spent.1 gone)
  · exact law.settled event happened id .accepted accepted rfl

theorem Law.caused_once (law : docket.Law allowed) {measure : Event network → Nat}
    {id : Uuid}
    (exact : ∀ event : Event network, event.Happened →
      docket.accepts id event.operation = true →
      measure event = if docket.becomesAccepted id event then 1 else 0)
    {start final : Service} {history : List (Event network)}
    (traced : @Traced network start history final) :
    docket.caused measure id history ≤ 1 ∧
      (0 < docket.caused measure id history → id ∈ docket.issued final.database ∧
        (docket.status final.database id = none ∨
          docket.status final.database id = some .accepted)) := by
  refine @Traced.invariant network _ _ _ (fun history final =>
    docket.caused measure id history ≤ 1 ∧
      (0 < docket.caused measure id history → id ∈ docket.issued final.database ∧
        (docket.status final.database id = none ∨
          docket.status final.database id = some .accepted))) traced ?_ ?_
  · exact ⟨Nat.zero_le 1, fun positive => (Nat.lt_irrefl 0 positive).elim⟩
  · rintro event older - happened ⟨once, spent⟩
    rw [caused_cons]
    cases becomes : docket.becomesAccepted id event with
    | false =>
        have nothing :
            (if docket.accepts id event.operation then measure event else 0) = 0 := by
          split
          · rename_i accepts
            rw [exact event happened accepts, becomes]
            rfl
          · rfl
        rw [nothing, Nat.zero_add]
        exact ⟨once, fun positive => law.stays happened (spent positive)⟩
    | true =>
        have accepted := becomesAccepted_iff.mp becomes
        -- before it was accepted the request had caused nothing
        have none : docket.caused measure id older = 0 := by
          by_contra caused
          rcases spent (Nat.pos_of_ne_zero caused) with ⟨issued, gone | settled⟩
          · have absent := law.gone event happened id issued gone
            exact nomatch absent.symm.trans accepted.1
          · exact accepted.2 settled
        have recorded : id ∈ docket.issued event.after.database :=
          law.recorded _ id (by simp [accepted.1])
        have atMost :
            (if docket.accepts id event.operation then measure event else 0) ≤ 1 := by
          split
          · rename_i accepts
            rw [exact event happened accepts]
            split <;> omega
          · omega
        rw [none, Nat.add_zero]
        exact ⟨atMost, fun _ => ⟨recorded, .inr accepted.1⟩⟩

/-- A docket that respects its law has the life cycle in every trace. -/
theorem Law.lifeCycle (law : docket.Law allowed) (id : Uuid) {start final : Service}
    {history : List (Event network)}
    (traced : @Traced network start history final)
    (taken : ∀ event ∈ history, allowed event.operation) :
    docket.LifeCycle id history := by
  have happened : ∀ event ∈ history, event.Happened := by
    intro event member
    rcases suffix_of_mem member with ⟨older, suffix⟩
    exact (traced.of_suffix suffix).2
  constructor
  · exact (law.caused_once (fun event happened accepts =>
      (law.minted event happened id accepts).1) traced).1
  · exact (law.caused_once (fun event happened accepts =>
      (law.minted event happened id accepts).2) traced).1
  · exact fun event member => law.accepted event (happened event member)
      (taken event member) id
  · exact fun event member => law.minted event (happened event member) id
  · exact fun event member => law.settled event (happened event member) id

end Docket

/-! ## The two dockets -/

def Operation.insertsActive : Operation → Prop
  | .statement (.invite (.insert _ _ _ _ status _ _)) => status.isActive = true
  | _ => True

namespace Sql

variable {now : Timestamp} {database after : Database}

theorem mintWhenSettled_counts {guestId hostId worldId : Uuid} {draw : TicketDraw}
    {tokenHash : String} {expiresAt : Timestamp} {settled : Nat × Database}
    {reply : Option TicketContext}
    (executed : mintWhenSettled now guestId hostId worldId draw tokenHash expiresAt
      settled = .ok (reply, after)) :
    after.joinTickets.rows.length = settled.2.joinTickets.rows.length +
        (if settled.1 = 1 then 1 else 0) ∧
      after.relaySessions.rows.length = settled.2.relaySessions.rows.length +
        if settled.1 = 1 then 1 else 0 := by
  rcases mintWhenSettled_ok executed with ⟨unsettled, -, rfl⟩ | ⟨settles, context, -, issued⟩
  · simp [unsettled]
  · rcases issueTicketAndRelay_ok issued with
      ⟨_, _, _, -, ticketInserted, relayInserted, rfl⟩
    simp [settles, (Table.insert_rows ticketInserted).1, (Table.insert_rows relayInserted).1]

end Sql

section Standing

variable {Row Slot : Type} {layout : Layout Row Uuid Slot} {table : Database → Table layout}
  {status : Row → RequestStatus} {accepts : Uuid → Operation → Bool}
  {fresh : Row → Prop} {revises : Row → Row → Prop}

theorem Docket.of_standing
    (evolves : ∀ event : Event network, event.Happened →
      (table event.before.database).Evolves fresh revises (table event.after.database))
    (keepsKey : ∀ earlier later, revises earlier later →
      layout.key later = layout.key earlier)
    (keepsSettled : ∀ earlier later, revises earlier later →
      terminalInvite (status earlier) = true → status later = status earlier) :
    (Docket.of table status accepts).Standing where
  recorded := by
    intro database id found
    rcases Option.ne_none_iff_exists'.mp found with ⟨current, present⟩
    rcases Option.map_eq_some_iff.mp present with ⟨row, present, -⟩
    exact Table.issued_of_find present
  issued := fun event happened id => (evolves event happened).issued id
  gone := by
    intro event happened id issued gone
    by_contra found
    rcases Option.ne_none_iff_exists'.mp found with ⟨current, present⟩
    rcases Option.map_eq_some_iff.mp present with ⟨row, present, -⟩
    rcases (evolves event happened).find keepsKey issued present with ⟨earlier, was, -⟩
    simp [Docket.of, was] at gone
  settled := by
    intro event happened id current present settled
    rcases Option.map_eq_some_iff.mp present with ⟨row, found, rfl⟩
    cases left : (table event.after.database).find id with
    | none => exact .inl (by simp [Docket.of, left])
    | some later =>
        right
        rcases (evolves event happened).find keepsKey (Table.issued_of_find found) left with
          ⟨earlier, was, revised⟩
        have same : row = earlier := Option.some.inj (found.symm.trans was)
        subst same
        simp [Docket.of, left, keepsSettled row later revised settled]

theorem Docket.of_accepted {revise : Statement → Row → Row}
    {inserted : Statement → Row → Prop} {event : Event network}
    (revised : table event.after.database = table event.before.database ∨
      ∃ statement, event.operation = .statement statement ∧
        (table event.before.database).Revised (revise statement) (inserted statement)
          (table event.after.database))
    (keepsKey : ∀ statement row, layout.key (revise statement row) = layout.key row)
    (only : ∀ statement row, status (revise statement row) = .accepted →
      status row = .accepted ∨ accepts (layout.key row) (.statement statement) = true)
    (waiting : ∀ statement row, event.operation = .statement statement →
      inserted statement row → status row ≠ .accepted)
    {id : Uuid} (becomes : (Docket.of table status accepts).becomesAccepted id event = true) :
    accepts id event.operation = true := by
  rcases becomesAccepted_iff.mp becomes with ⟨accepted, unaccepted⟩
  rcases Option.map_eq_some_iff.mp accepted with ⟨row, found, accepted⟩
  have already : ∀ row, (table event.before.database).find id = some row →
      status row ≠ .accepted := by
    intro row present accepted
    exact unaccepted (by simp [of, present, accepted])
  rcases Table.find_eq_some.mp found with ⟨member, key⟩
  rcases revised with same | ⟨statement, made, revised⟩
  · exact (already row (same ▸ found) accepted).elim
  · rcases revised row member with ⟨earlier, present, rfl⟩ | ⟨-, isInserted⟩
    · rw [keepsKey] at key
      rcases only statement earlier accepted with was | accepts
      · exact (already earlier (Table.find_eq_some.mpr ⟨present, key⟩) was).elim
      · rw [made, ← key]
        exact accepts
    · exact (waiting statement row made isInserted accepted).elim

theorem Docket.of_becomes {selected : Row → Bool} {set : Row → Row} {event : Event network}
    {id : Uuid}
    (found : (table event.after.database).find id =
      ((table event.before.database).find id).map (Table.revise selected set))
    (named : ∀ row, selected row = true → layout.key row = id)
    (pending : ∀ row, selected row = true → status row = .pending)
    (sets : ∀ row, status (set row) = .accepted) :
    (Docket.of table status accepts).becomesAccepted id event =
      decide ((table event.before.database).affected selected = 1) := by
  apply Bool.eq_iff_iff.mpr
  rw [becomesAccepted_iff, decide_eq_true_eq]
  rcases (table event.before.database).affected_cases named with
    ⟨one, row, present, chosen⟩ | ⟨none, unchosen⟩
  · simp [of, found, present, Table.revise, chosen, sets, pending row chosen, one]
  · have same : ((table event.before.database).find id).map (Table.revise selected set) =
        (table event.before.database).find id := by
      cases present : (table event.before.database).find id with
      | none => rfl
      | some row =>
          simp [Table.revise, unchosen row (Table.find_eq_some.mp present).1]
    simp [of, found, same, none]

theorem Docket.of_minted {selected : Row → Bool} {set : Row → Row} {event : Event network}
    {id : Uuid} {now : Timestamp} {guestId hostId worldId : Uuid} {draw : TicketDraw}
    {tokenHash : String} {expiresAt : Timestamp} {settled : Nat × Database}
    {reply : Option TicketContext}
    (executed : Sql.mintWhenSettled now guestId hostId worldId draw tokenHash expiresAt
      settled = .ok (reply, event.after.database))
    (kept : table event.after.database = table settled.2)
    (counted : settled.1 = (table event.before.database).affected selected)
    (found : (table settled.2).find id =
      ((table event.before.database).find id).map (Table.revise selected set))
    (tickets : settled.2.joinTickets = event.before.database.joinTickets)
    (relays : settled.2.relaySessions = event.before.database.relaySessions)
    (named : ∀ row, selected row = true → layout.key row = id)
    (pending : ∀ row, selected row = true → status row = .pending)
    (sets : ∀ row, status (set row) = .accepted) :
    ticketsMinted event =
        (if (Docket.of table status accepts).becomesAccepted id event then 1 else 0) ∧
      relaysMinted event =
        if (Docket.of table status accepts).becomesAccepted id event then 1 else 0 := by
  have counts := Sql.mintWhenSettled_counts executed
  rw [tickets, relays, counted] at counts
  rw [of_becomes (kept ▸ found) named pending sets, ticketsMinted, relaysMinted, counts.1,
    counts.2]
  simp

theorem Docket.unchanged {docket : Docket} {event : Event network} (id : Uuid)
    (same : event.after = event.before) :
    ticketsMinted event = (if docket.becomesAccepted id event then 1 else 0) ∧
      relaysMinted event = if docket.becomesAccepted id event then 1 else 0 := by
  simp [ticketsMinted, relaysMinted, becomesAccepted, same]

end Standing

theorem Statement.reviseInvite_accepted {now : Timestamp} {statement : Statement}
    {invite : WorldInvite}
    (accepted : (statement.reviseInvite now invite).status = .accepted) :
    invite.status = .accepted ∨
      inviteDocket.accepts invite.id (.statement statement) = true := by
  unfold reviseInvite at accepted
  split at accepted <;> try split at accepted
  case h_2.isTrue chosen => exact .inr (decide_eq_true chosen.1.symm)
  all_goals first
    | exact .inl accepted
    | exact nomatch accepted

theorem Statement.reviseJoinRequest_accepted {now : Timestamp} {statement : Statement}
    {request : JoinRequest}
    (accepted : (statement.reviseJoinRequest now request).status = .accepted) :
    request.status = .accepted ∨
      joinRequestDocket.accepts request.id (.statement statement) = true := by
  unfold reviseJoinRequest at accepted
  split at accepted <;> try split at accepted
  case h_2.isTrue chosen => exact .inr (decide_eq_true chosen.1.symm)
  all_goals first
    | exact .inl accepted
    | exact nomatch accepted

theorem inviteDocket_law : inviteDocket.Law Operation.insertsActive where
  toStanding := by
    refine Docket.of_standing (fun event happened => (occurs_evolves happened).worldInvites)
      (fun _ _ revised => revised.id) fun earlier later revised settled => ?_
    rw [terminalInvite_eq] at settled
    rcases revised.status with same | ⟨waiting, -⟩ | ⟨active, -⟩
    · exact same
    · rw [waiting] at settled
      cases settled
    · rw [active] at settled
      cases settled
  accepted := by
    intro event happened active id becomes
    refine Docket.of_accepted (occurs_invites happened)
      (fun statement invite => Statement.reviseInvite_id _ invite statement)
      (fun statement invite => Statement.reviseInvite_accepted) ?_ becomes
    intro statement invite made inserted accepted
    unfold Statement.insertsInvite at inserted
    split at inserted
    · rcases inserted with ⟨notSelf, rfl⟩
      subst accepted
      rw [made] at active
      exact nomatch active
    · exact inserted
  minted := by
    rintro ⟨process, before, operation, result, after⟩ happened id accepts
    have occurs : network.Occurs before operation result after := happened
    clear happened
    simp only [inviteDocket, Docket.of] at accepts
    split at accepts
    · have same := of_decide_eq_true accepts
      subst same
      rcases occurs_statement occurs with
        ⟨-, -, unchanged⟩ | ⟨reply, database, -, executed, rfl⟩
      · exact Docket.unchanged _ unchanged
      · rcases Sql.mintWhenSettled_frame executed with ⟨_, _, rfl⟩
        refine Docket.of_minted executed rfl rfl (Sql.settleInvites_find _) rfl rfl ?_ ?_
          fun _ => rfl
        · intro invite selected
          simpa using (Bool.and_eq_true_iff.mp selected).1
        · intro invite selected
          simpa using (Bool.and_eq_true_iff.mp selected).2
    · cases accepts

theorem joinRequestDocket_law : joinRequestDocket.Law Operation.insertsActive where
  toStanding := by
    refine Docket.of_standing (fun event happened => (occurs_evolves happened).joinRequests)
      (fun _ _ revised => revised.id) fun earlier later revised settled => ?_
    rcases revised.status with same | ⟨pending, -⟩
    · exact same
    · rw [pending] at settled
      cases settled
  accepted := by
    intro event happened active id becomes
    refine Docket.of_accepted (occurs_joinRequests happened)
      (fun statement request => Statement.reviseJoinRequest_id _ request statement)
      (fun statement request => Statement.reviseJoinRequest_accepted) ?_ becomes
    intro statement request made inserted accepted
    unfold Statement.insertsJoinRequest at inserted
    split at inserted
    · rw [inserted] at accepted
      exact nomatch accepted
    · exact inserted
  minted := by
    rintro ⟨process, before, operation, result, after⟩ happened id accepts
    have occurs : network.Occurs before operation result after := happened
    clear happened
    simp only [joinRequestDocket, Docket.of] at accepts
    split at accepts
    · have same := of_decide_eq_true accepts
      subst same
      rcases occurs_statement occurs with
        ⟨-, -, unchanged⟩ | ⟨reply, database, -, executed, rfl⟩
      · exact Docket.unchanged _ unchanged
      · rcases Sql.mintWhenSettled_frame executed with ⟨_, _, rfl⟩
        refine Docket.of_minted executed rfl rfl (Sql.settleJoinRequests_find _) rfl rfl ?_ ?_
          fun _ => rfl
        · intro request selected
          simpa using (Bool.and_eq_true_iff.mp selected).1
        · intro request selected
          simpa using (Bool.and_eq_true_iff.mp selected).2
    · cases accepts

/-! ## Every interleaving -/

section Footprint

open Handler Invites

theorem initialStatus_active (world : WorldSession) (caller invitee : Uuid) :
    (initialStatus world caller invitee).Meets (.footprint Operation.insertsActive)
      (fun status _ => status.isActive = true) (fun _ _ => True) () := by
  simp [initialStatus, Friends.areFriends, forall_except, Operation.insertsActive,
    RequestStatus.isActive]

theorem create_insertsActive (state : AppState) (auth worldId invitee newId : Uuid) :
    (create state auth worldId invitee newId).Uses Operation.insertsActive := by
  simp [uses_iff, create, Worlds.loadOpenWorldSession, loadInvite, forall_except,
    Operation.insertsActive]
  intro found world _ _ _
  exact initialStatus_active world auth invitee

end Footprint

theorem handle_insertsActive (state : AppState) (request : Request) :
    (handle state request).Uses Operation.insertsActive := by
  by_cases invites : request.purpose = .invite
  · cases request with
    | createInvite auth worldId invitee newId =>
        refine Handler.meets_run.mpr ?_
        rw [Request.handler, Handler.meets_map]
        exact Handler.uses_iff.mp (create_insertsActive state auth worldId invitee newId)
    | _ => cases invites
  · refine (handle_avoids state invites (by decide) (by decide)).mono fun operation other => ?_
    unfold Operation.insertsActive
    split
    · exact (other rfl).elim
    · trivial

/-- In every interleaving every request row has the life cycle. -/
theorem requests_settled_once (state : AppState) (database : Database) (clock : Timestamp)
    {moves : List (Move Request)} {final : Pool network Request (Except AppError Reply)}
    (reached : run (Pool.move (handle state)) (.initial (.boot database clock)) moves =
      some final) (id : Uuid) :
    joinRequestDocket.LifeCycle id final.history ∧ inviteDocket.LifeCycle id final.history := by
  have traced := Pool.traced_of_run reached
  have active := Pool.allowed_of_run (handle_insertsActive state) reached
  exact ⟨joinRequestDocket_law.lifeCycle id traced active,
    inviteDocket_law.lifeCycle id traced active⟩

/-! ## An invite that is accepted -/

def invitedDatabase : Database :=
  { Database.empty with
    users := {
      rows := [{ id := 5, minecraftUuid := none, username := "host", accountType := none,
                 xuid := none, clientId := none, blocked := false, lastSeenAt := 0,
                 updatedAt := 0 },
               { id := 2, minecraftUuid := none, username := "guest", accountType := none,
                 xuid := none, clientId := none, blocked := false, lastSeenAt := 0,
                 updatedAt := 0 }]
      issued := [5, 2]
      keysUnique := by decide
      slotsUnique := by decide
      keysIssued := by decide }
    worldSessions := {
      rows := [{ id := 3, hostUserId := 5, status := .open, maxPlayers := 1,
                 currentPlayers := 0, invitePolicy := .hostOnly, createdAt := 0,
                 closedAt := none }]
      issued := [3]
      keysUnique := by decide
      slotsUnique := by decide
      keysIssued := by decide }
    worldInvites := {
      rows := [{ id := 7, worldSessionId := 3, hostUserId := 5, inviterUserId := 5,
                 inviteeUserId := 2, status := .pending, expiresAt := 60, createdAt := 0,
                 updatedAt := 0, notSelf := by decide }]
      issued := [7]
      keysUnique := by decide
      slotsUnique := by decide
      keysIssued := by decide } }

theorem requests_settled_once_accepted :
    ∃ final, run (Pool.move (handle plainState)) (.initial (.boot invitedDatabase 0))
        [.start (.acceptInvite 2 7 ⟨"token", 8, 9⟩), .advance 0, .advance 0, .advance 0,
         .advance 0, .advance 0, .advance 0] = some final ∧
      inviteDocket.caused ticketsMinted 7 final.history = 1 ∧
      joinRequestDocket.LifeCycle 7 final.history ∧ inviteDocket.LifeCycle 7 final.history := by
  have minted : ((run (Pool.move (handle plainState)) (.initial (.boot invitedDatabase 0))
      [.start (.acceptInvite 2 7 ⟨"token", 8, 9⟩), .advance 0, .advance 0, .advance 0,
       .advance 0, .advance 0, .advance 0]).map fun final =>
        inviteDocket.caused ticketsMinted 7 final.history) = some 1 := by decide
  rcases Option.map_eq_some_iff.mp minted with ⟨final, reached, one⟩
  exact ⟨final, reached, one,
    requests_settled_once plainState invitedDatabase 0 reached 7⟩

end Loontail
