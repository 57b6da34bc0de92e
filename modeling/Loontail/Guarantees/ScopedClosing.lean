import Loontail.Guarantees.PresencePointer
import Loontail.Network.Scripted

/-! # What closing a world touches besides it

The cleanup finds the host's presence row by its user alone, whichever world the row
names and whether or not the host is there. -/

namespace Loontail

open Concurrency Relational Network Handler

def Request.closing : Request → Option (Uuid × Uuid)
  | .closeWorld auth id => some (auth, id)
  | .updateWorld auth id body => if body.status = some "closed" then some (auth, id) else none
  | _ => none

/-- The host of `worldId` is offline, or in another open world of their own. -/
def Database.Elsewhere (hostId worldId : Uuid) (database : Database) : Bool :=
  (database.presence.find hostId).any fun presence =>
    presence.status = .offline || presence.currentWorldSessionId.any fun id =>
      id ≠ worldId && Sql.ownsOpenWorld id hostId database

/-- Between the two states nothing has happened to another world or its relay sessions,
nor to the row of a host who is elsewhere. -/
structure Scoped (hostId worldId : Uuid) (before after : Database) : Prop where
  worlds : ∀ other, other ≠ worldId →
    after.worldSessions.find other = before.worldSessions.find other
  relays : ∀ relay : RelaySession, relay.worldSessionId ≠ worldId →
    (relay ∈ after.relaySessions.rows ↔ relay ∈ before.relaySessions.rows)
  presence : before.Elsewhere hostId worldId = true →
    after.presence.find hostId = before.presence.find hostId

theorem Scoped.same {hostId worldId : Uuid} {database : Database} :
    Scoped hostId worldId database database := ⟨fun _ _ => rfl, fun _ _ => .rfl, fun _ => rfl⟩

def Request.cleansUp (state : AppState) (world : WorldSession) : Request → Bool
  | .closeWorld .. => true
  | .updateWorld _ _ body => world.status = .open &&
      body.maxPlayers.all (fun value =>
        (clamp value 1 state.config.maxPlayersPerWorld).isSome) &&
      body.invitePolicy.all fun text => (InvitePolicy.parse text).toOption.isSome
  | _ => false

/-! ## The cleanup -/

/-- The statements of the cleanup have found the rows of this database. -/
structure Closing.Finds (closing : Closing) (worldId hostId : Uuid) (database : Database) :
    Prop where
  relays : closing.relays = Sql.unclosedRelays worldId database
  present : closing.present = (database.presence.find hostId).isSome

section Cleanup

variable {closing : Closing} {worldId hostId : Uuid} {database middle after : Database}
  {world : WorldSession}

theorem Sql.closeWorldCleanup_find_presence
    (present : closing.present = (database.presence.find hostId).isSome)
    (executed : closeWorldCleanup closing worldId hostId database = .ok (world, after)) :
    after.presence.find hostId = (database.presence.find hostId).map fun presence =>
      { presence with
        status := .online
        currentWorldSessionId := none
        updatedAt := closing.transaction.startedAt } := by
  unfold closeWorldCleanup at executed
  dsimp only at executed
  split at executed
  · cases executed
    rw [Table.find_update]
    cases found : database.presence.find hostId with
    | none => rfl
    | some presence =>
        have named : presence.userId = hostId := (Table.find_eq_some.mp found).2
        rw [found] at present
        simp [Table.revise, named, present]
  · cases executed

theorem Sql.closeWorldCleanup_find_world {other : Uuid} (apart : other ≠ worldId)
    (executed : closeWorldCleanup closing worldId hostId database = .ok (world, after)) :
    after.worldSessions.find other = database.worldSessions.find other := by
  unfold closeWorldCleanup at executed
  dsimp only at executed
  split at executed
  · cases executed
    rw [Table.find_update]
    exact Table.map_revise_other (fun _ chosen => of_decide_eq_true chosen) apart
  · cases executed

theorem Sql.mem_closeWorldCleanup_relays {relay : RelaySession}
    (relays : closing.relays = unclosedRelays worldId database)
    (apart : relay.worldSessionId ≠ worldId)
    (executed : closeWorldCleanup closing worldId hostId database = .ok (world, after)) :
    relay ∈ after.relaySessions.rows ↔ relay ∈ database.relaySessions.rows := by
  -- the relay sessions that were locked are those of the world
  have ofWorld : ∀ old ∈ database.relaySessions.rows, closing.relays.contains old.id = true →
      old.worldSessionId = worldId := by
    intro old member chosen
    rw [relays, List.contains_iff_mem, mem_unclosedRelays] at chosen
    obtain ⟨locked, present, ⟨own, -⟩, key⟩ := chosen
    rwa [Table.eq_of_key_eq member present key.symm]
  unfold closeWorldCleanup at executed
  dsimp only at executed
  split at executed
  · cases executed
    rw [Table.update_rows, Table.mem_revised]
    constructor
    · rintro ⟨old, member, rfl⟩
      unfold Table.revise at apart ⊢
      split at apart
      · rename_i chosen
        exact absurd (ofWorld old member chosen) apart
      · rename_i kept
        rwa [if_neg kept]
    · intro member
      refine ⟨relay, member, if_neg fun chosen => apart ?_⟩
      exact ofWorld relay member chosen
  · cases executed

theorem Sql.closeWorldCleanup_of_find (found : database.worldSessions.find worldId = some world) :
    ∃ left after, closeWorldCleanup closing worldId hostId database = .ok (left, after) := by
  unfold closeWorldCleanup
  dsimp only
  split
  · exact ⟨_, _, rfl⟩
  · rename_i missing
    rw [Table.find_update, found] at missing
    cases missing

/-- A cleanup stays with its world exactly if the host is not elsewhere. -/
theorem Sql.closeWorldCleanup_scoped (finds : closing.Finds worldId hostId database)
    (worlds : ∀ other, other ≠ worldId →
      middle.worldSessions.find other = database.worldSessions.find other)
    (relays : middle.relaySessions = database.relaySessions)
    (presence : middle.presence = database.presence)
    (executed : closeWorldCleanup closing worldId hostId middle = .ok (world, after)) :
    Scoped hostId worldId database after ↔ database.Elsewhere hostId worldId = false := by
  have left := closeWorldCleanup_find_presence (presence ▸ finds.present) executed
  have locked : closing.relays = unclosedRelays worldId middle := by
    rw [finds.relays, unclosedRelays, unclosedRelays, relays]
  rw [presence] at left
  constructor
  · intro apart
    cases elsewhere : database.Elsewhere hostId worldId with
    | false => rfl
    | true =>
        have kept := left.symm.trans (apart.presence elsewhere)
        unfold Database.Elsewhere at elsewhere
        cases found : database.presence.find hostId with
        | none => simp [found] at elsewhere
        | some row =>
            rw [found] at kept elsewhere
            have online := congrArg Presence.status (Option.some.inj kept)
            have nowhere := congrArg Presence.currentWorldSessionId (Option.some.inj kept)
            simp [← online, ← nowhere] at elsewhere
  · intro present
    exact {
      worlds := fun other apart =>
        (closeWorldCleanup_find_world apart executed).trans (worlds other apart)
      relays := fun relay apart => by
        rw [mem_closeWorldCleanup_relays locked apart executed, relays]
      presence := fun elsewhere => by
        rw [present] at elsewhere
        cases elsewhere }

theorem Sql.closed_scoped {selected : WorldSession → Bool} {set : WorldSession → WorldSession}
    {worldSessions : Table worldSessionLayout} (finds : closing.Finds worldId hostId database)
    (found : database.worldSessions.find worldId = some world)
    (written : ∀ id, worldSessions.find id =
      (database.worldSessions.find id).map (Table.revise selected set))
    (named : ∀ row, selected row = true → row.id = worldId) :
    ∃ left after, closeWorldCleanup closing worldId hostId { database with worldSessions } =
        .ok (left, after) ∧
      (Scoped hostId worldId database after ↔ database.Elsewhere hostId worldId = false) := by
  have here := written worldId
  rw [found] at here
  obtain ⟨left, after, executed⟩ := @closeWorldCleanup_of_find closing worldId hostId
    { database with worldSessions } _ here
  refine ⟨left, after, executed, closeWorldCleanup_scoped finds ?_ ?_ ?_ executed⟩
  · intro other apart
    exact (written other).trans (Table.map_revise_other named apart)
  · rfl
  · rfl

/-- `DELETE` closes a world it finds. -/
theorem Sql.commitClose_scoped (finds : closing.Finds worldId hostId database)
    (found : database.worldSessions.find worldId = some world) (shut : Bool) :
    ∃ left after, commitClose closing worldId hostId shut database = .ok (left, after) ∧
      (Scoped hostId worldId database after ↔ database.Elsewhere hostId worldId = false) := by
  apply closed_scoped finds found
  · exact fun id => Table.find_update id
  · exact fun row chosen => of_decide_eq_true (Bool.and_eq_true_iff.mp chosen).1

theorem Sql.commitUpdate_scoped {maxPlayers : Int} {invitePolicy : InvitePolicy}
    (finds : closing.Finds worldId hostId database)
    (found : database.worldSessions.find worldId = some world) :
    ∃ left after, commitUpdate closing worldId maxPlayers invitePolicy hostId database =
        .ok (left, after) ∧
      (Scoped hostId worldId database after ↔ database.Elsewhere hostId worldId = false) := by
  apply closed_scoped finds found
  · exact fun id => Table.find_update id
  · exact fun row chosen => of_decide_eq_true chosen

/-- A `PATCH` that closes a closed world again writes that world only. -/
theorem Sql.updateWorld_scoped {now : Timestamp} {maxPlayers : Int} {status : WorldStatus}
    {invitePolicy : InvitePolicy}
    (executed : updateWorld now worldId maxPlayers status invitePolicy database =
      .ok (world, after)) : Scoped hostId worldId database after := by
  unfold updateWorld at executed
  split at executed
  · cases executed
  · rename_i worldSessions claimed
    split at executed
    · cases executed
    · cases executed
      refine ⟨fun other apart => ?_, fun _ _ => .rfl, fun _ => rfl⟩
      rw [Table.find_claim claimed]
      exact Table.map_revise_other (fun row chosen => of_decide_eq_true chosen) apart

end Cleanup

/-! ## The closing requests -/

section Requests

variable {state : AppState} {hostId worldId : Uuid} {index : Nat} {before : Service}
  {all : List Bool} {world : WorldSession}

/-- The request touches a row it should not: it commits its cleanup, and the host is
elsewhere. -/
def Request.Disturbs (state : AppState) (hostId worldId : Uuid) (world : WorldSession)
    (database : Database) (script : List Bool) (request : Request) : Prop :=
  request.cleansUp state world = true ∧ true ∉ script.take 6 ∧
    database.Elsewhere hostId worldId = true

abbrev StaysScoped {Reply : Type} (state : AppState) (hostId worldId : Uuid)
    (world : WorldSession) (index : Nat) (before : Service) (script : List Bool)
    (request : Request) (handler : Handler Reply) (situation : Service × List Bool × Bool) : Prop :=
  handler.Meets (scripted index)
    (fun _ following => Scoped hostId worldId before.database following.1.database ↔
      ¬request.Disturbs state hostId worldId world before.database script)
    (fun _ following => Scoped hostId worldId before.database following.1.database ↔
      ¬request.Disturbs state hostId worldId world before.database script) situation

theorem scoped_undone {unharmed : Prop} {following : Service × List Bool × Bool}
    (same : following.1.database = before.database) (holds : unharmed) :
    Scoped hostId worldId before.database following.1.database ↔ unharmed :=
  iff_of_true (same ▸ .same) holds

theorem closeWorldCleanup_scripted {tx : Transaction} {service : Service} {count : Nat}
    {unharmed : Prop} {onOk : Closing → Service × List Bool × Bool → Prop}
    (clean : true ∉ all.take count) (same : service.moment = before.moment)
    (failed : true ∈ all.take (count + 2) → unharmed)
    (ok : true ∉ all.take (count + 2) → ∀ closing after,
      closing.Finds worldId hostId before.database → after.moment = before.moment →
      onOk closing (after, all.drop (count + 2), false)) :
    (Worlds.closeWorldCleanup tx worldId hostId).Meets (scripted index) onOk
      (fun _ following => following.1.moment = before.moment ∧ unharmed)
      (service, all.drop count, false) := by
  simp only [Worlds.closeWorldCleanup, meets_bind, meets_pure]
  refine read_scripted rfl clean same
    (fun stopped _ => ⟨same, failed (mem_take_mono stopped (Nat.le_succ _))⟩) ?_
  clear same
  intro clean locked same
  refine read_scripted rfl clean same (fun stopped _ => ⟨same, failed stopped⟩) ?_
  intro clean ready same
  exact ok clean _ ready ⟨rfl, rfl⟩ same

section Transactions

variable {service : Service} {onError : AppError → Service × List Bool × Bool → Prop}

theorem shutWorld_scoped {onOk : Unit → Service × List Bool × Bool → Prop}
    (found : before.database.worldSessions.find worldId = some world)
    (clean : true ∉ all.take 1) (same : service.moment = before.moment)
    (undone : ∀ error following, following.1.database = before.database → true ∈ all.take 6 →
      onError error following)
    (ok : true ∉ all.take 6 → ∀ written : Service,
      (Scoped hostId worldId before.database written.database ↔
        before.database.Elsewhere hostId worldId = false) → onOk () (written, all.drop 6, false)) :
    (Worlds.shutWorld worldId hostId).Meets (scripted index) onOk onError
      (service, all.drop 1, false) := by
  unfold Worlds.shutWorld
  apply transactionally_scripted clean same undone
  · exact fun failed => mem_take_mono failed (by decide)
  · intro clean transaction begun same
    simp only [meets_bind, meets_pure]
    refine read_scripted rfl clean same
      (fun failed _ => ⟨same, mem_take_mono failed (by decide)⟩) ?_
    intro clean locked same
    refine closeWorldCleanup_scripted clean same (fun failed => mem_take_mono failed (by decide)) ?_
    intro clean closing ready finds same
    obtain ⟨left, after, closed, judged⟩ := Sql.commitClose_scoped finds found
      (Sql.selectOpenWorld worldId before.database).isSome
    have granted : Statement.execute before.clock before.database (.world (.commitClose closing
        worldId hostId (Sql.selectOpenWorld worldId before.database).isSome)) =
          .ok (left, after) := closed
    refine granted_scripted granted clean same (fun failed _ => ⟨same, failed⟩) ?_
    intro clean written committed
    apply ok clean written
    rwa [show written.database = after from congrArg Moment.database committed]

theorem updateClosing_scoped {maxPlayers : Int} {policy : InvitePolicy}
    {onOk : WorldSession → Service × List Bool × Bool → Prop}
    (found : before.database.worldSessions.find worldId = some world)
    (clean : true ∉ all.take 1) (same : service.moment = before.moment)
    (undone : ∀ error following, following.1.database = before.database → true ∈ all.take 6 →
      onError error following)
    (ok : true ∉ all.take 6 → ∀ (left : WorldSession) (written : Service),
      (Scoped hostId worldId before.database written.database ↔
        before.database.Elsewhere hostId worldId = false) → onOk left (written, all.drop 6, false)) :
    (Worlds.updateClosing worldId maxPlayers policy hostId).Meets (scripted index) onOk onError
      (service, all.drop 1, false) := by
  have named : Sql.selectWorld worldId before.database = some world := found
  unfold Worlds.updateClosing
  apply transactionally_scripted clean same undone
  · exact fun failed => mem_take_mono failed (by decide)
  · intro clean transaction begun same
    simp only [meets_bind, meets_refuse]
    refine read_scripted rfl clean same
      (fun failed _ => ⟨same, mem_take_mono failed (by decide)⟩) ?_
    intro clean locked same
    rw [named]
    refine ⟨fun missing => (by cases missing), fun _ => ?_⟩
    refine closeWorldCleanup_scripted clean same (fun failed => mem_take_mono failed (by decide)) ?_
    intro clean closing ready finds same
    obtain ⟨left, after, patched, judged⟩ := @Sql.commitUpdate_scoped closing worldId hostId
      before.database world maxPlayers policy finds found
    have granted : Statement.execute before.clock before.database (.world (.commitUpdate closing
        worldId maxPlayers policy hostId)) = .ok (left, after) := patched
    refine granted_scripted granted clean same (fun failed _ => ⟨same, failed⟩) ?_
    intro clean written committed
    apply ok clean left written
    rwa [show written.database = after from congrArg Moment.database committed]

end Transactions

theorem close_scoped (found : before.database.worldSessions.find worldId = some world)
    (host : world.hostUserId = hostId) :
    StaysScoped state hostId worldId world index before all (.closeWorld hostId worldId)
      (Worlds.close hostId worldId) (before, all, false) := by
  have named : Sql.selectWorld worldId before.database = some world := found
  unfold StaysScoped Worlds.close
  simp only [meets_bind, meets_okOr, meets_refuse]
  refine @read_scripted all 0 index before before _ _ rfl (by simp) rfl _ _
    (fun failed _ => iff_of_true .same fun disturbs =>
      disturbs.2.1 (mem_take_mono failed (by decide))) ?_
  intro clean read same
  rw [named]
  refine ⟨fun missing => (by cases missing), fun owner owned => ?_⟩
  cases owned
  refine ⟨fun foreign => absurd host (of_decide_eq_true foreign), fun _ => ?_⟩
  apply shutWorld_scoped found clean same
  · exact fun _ _ undone failed => scoped_undone undone fun disturbs => disturbs.2.1 failed
  · intro clean written judged
    rw [judged, Request.Disturbs, Request.cleansUp]
    simp [clean]

theorem broadcastPresence_still (userId : Uuid) :
    (Presence.broadcastPresence userId).Uses Operation.Still :=
  Presence.broadcastPresence_uses sendTo_still userId (Statement.still_of_reads
    fun _ _ _ _ executed => (Prod.mk.inj (Except.ok.inj executed)).2.symm)

theorem notifyGuests_still (policy : InvitePolicy) (guests : List Uuid) :
    (Worlds.notifyGuests worldId policy guests).Uses Operation.Still := by
  induction guests with
  | nil => trivial
  | cons guest rest induction =>
      refine uses_iff.mpr ?_
      rw [Worlds.notifyGuests]
      simp only [meets_bind, meets_sendTo, meets_logged]
      refine ⟨sendTo_still _ _, fun _ => ?_⟩
      exact (broadcastPresence_still guest).footprint (fun _ => uses_iff.mp induction)
        fun _ => uses_iff.mp induction

theorem announcePolicy_still (worldId hostId : Uuid) (policy : InvitePolicy) :
    (Worlds.announcePolicy worldId hostId policy).Uses Operation.Still := by
  refine uses_iff.mpr ?_
  simp only [Worlds.announcePolicy, meets_bind, meets_attempt, meets_logged]
  refine ⟨Statement.still_of_reads fun _ _ _ _ executed =>
    (Prod.mk.inj (Except.ok.inj executed)).2.symm, fun result => ?_⟩
  refine (notifyGuests_still policy _).footprint (fun _ => ?_) fun _ => trivial
  exact (broadcastPresence_still hostId).footprint (fun _ => trivial) fun _ => trivial

theorem mergedMaxPlayers_checks {logic : Logic network} {cap : Int} {requested : Option Int}
    {onOk : Int → logic.Situation → Prop} {onError : AppError → logic.Situation → Prop}
    {situation : logic.Situation}
    (ok : ∀ value, requested.all (fun value => (clamp value 1 cap).isSome) = true →
      onOk value situation)
    (error : requested.all (fun value => (clamp value 1 cap).isSome) = false →
      ∀ error, onError error situation) :
    (Worlds.mergedMaxPlayers cap requested world).Meets logic onOk onError situation := by
  cases requested with
  | none => exact ok _ rfl
  | some value =>
      simp only [Worlds.mergedMaxPlayers, meets_orPanic]
      refine ⟨fun panics => error ?_ _, fun clamped fits => ok clamped ?_⟩
      · simp [panics]
      · simp [fits]

theorem parseOr_checks {logic : Logic network} {Value : Type} {current : Value}
    {parse : String → Except AppError Value} {text : Option String}
    {onOk : Value → logic.Situation → Prop} {onError : AppError → logic.Situation → Prop}
    {situation : logic.Situation}
    (ok : ∀ value, text.all (fun text => (parse text).toOption.isSome) = true →
      onOk value situation)
    (error : text.all (fun text => (parse text).toOption.isSome) = false →
      ∀ error, onError error situation) :
    (Worlds.parseOr parse text current).Meets logic onOk onError situation := by
  cases text with
  | none => exact ok _ rfl
  | some text =>
      simp only [Worlds.parseOr]
      split
      · rename_i value parsed
        exact ok value (by simp [parsed, Except.toOption])
      · rename_i failure parsed
        exact error (by simp [parsed, Except.toOption]) failure

theorem announcePolicy_scoped {world : WorldSession} {policy : InvitePolicy} {written : Service}
    {rest : List Bool} {holds : Prop} :
    (Scoped hostId worldId before.database written.database ↔ holds) →
      (whenever (policy ≠ world.invitePolicy) (Worlds.announcePolicy worldId hostId policy)).Meets
        (scripted index)
        (fun _ following => Scoped hostId worldId before.database following.1.database ↔ holds)
        (fun _ following => Scoped hostId worldId before.database following.1.database ↔ holds)
        (written, rest, false) := by
  intro whole
  refine (meets_whenever _ _).mpr ⟨fun _ => ?_, fun _ => whole⟩
  have still := @uses_scripted _ _ (announcePolicy_still worldId hostId policy)
    index written written rest rfl
  apply still.mono
  · intro _ following kept
    rwa [show following.1.database = written.database from congrArg Moment.database kept]
  · intro _ following kept
    rwa [show following.1.database = written.database from congrArg Moment.database kept]

theorem update_scoped {body : Worlds.UpdateWorldSession} (closing : body.status = some "closed")
    (found : before.database.worldSessions.find worldId = some world)
    (host : world.hostUserId = hostId) :
    StaysScoped state hostId worldId world index before all (.updateWorld hostId worldId body)
      (Worlds.update state hostId worldId body) (before, all, false) := by
  have named : Sql.selectWorld worldId before.database = some world := found
  unfold StaysScoped Worlds.update
  simp only [meets_bind, meets_okOr, meets_refuse, meets_pure]
  refine @read_scripted all 0 index before before _ _ rfl (by simp) rfl _ _
    (fun failed _ => iff_of_true .same fun disturbs =>
      disturbs.2.1 (mem_take_mono failed (by decide))) ?_
  intro clean read same
  obtain ⟨database, clock⟩ := Moment.mk.inj same
  rw [named]
  refine ⟨fun missing => (by cases missing), fun owner owned => ?_⟩
  cases owned
  refine ⟨fun foreign => absurd host (of_decide_eq_true foreign), fun _ => ?_⟩
  rw [closing]
  have refused : (Request.updateWorld hostId worldId body).cleansUp state world = false →
      (Scoped hostId worldId before.database read.database ↔
        ¬Request.Disturbs state hostId worldId world before.database all
          (.updateWorld hostId worldId body)) := by
    intro stops
    refine iff_of_true (database ▸ .same) fun disturbs => ?_
    cases stops.symm.trans disturbs.1
  refine mergedMaxPlayers_checks (fun maxPlayers fits => ?_) fun unfit error => refused ?_
  swap
  · simp [Request.cleansUp, unfit]
  have closed : Worlds.parseOr WorldStatus.parse (some "closed") world.status = pure .closed := rfl
  rw [closed, meets_pure]
  refine parseOr_checks (fun policy parses => ?_) fun unknown error => refused ?_
  swap
  · simp [Request.cleansUp, unknown]
  have cleans : (Request.updateWorld hostId worldId body).cleansUp state world =
      decide (world.status = .open) := by
    simp [Request.cleansUp, fits, parses]
  rw [host, meets_ite]
  constructor
  · rintro ⟨-, isOpen⟩
    apply updateClosing_scoped found clean same
    · exact fun _ _ undone failed => scoped_undone undone fun disturbs => disturbs.2.1 failed
    · intro clean left written judged
      apply announcePolicy_scoped
      rw [judged, Request.Disturbs, cleans]
      simp [isOpen, clean]
  · intro stays
    have unharmed : ¬Request.Disturbs state hostId worldId world before.database all
        (.updateWorld hostId worldId body) := by
      rintro ⟨cleaned, -⟩
      rw [cleans] at cleaned
      exact stays ⟨rfl, of_decide_eq_true cleaned⟩
    refine query_scripted clean (fun _ _ => ?_) fun _ reply written executed _ => ?_
    · exact iff_of_true (database ▸ .same) unharmed
    · rw [database] at executed
      apply announcePolicy_scoped
      exact iff_of_true (Sql.updateWorld_scoped executed) unharmed

end Requests

/-- A request that closes a world of its caller stays with that world exactly if it does
not get as far as its cleanup, or the host is neither offline nor in another open world. -/
theorem closing_scoped_iff {state : AppState} {request : Request} {hostId worldId : Uuid}
    {world : WorldSession} {faults : List Bool}
    {pool next : Pool network Request (Except AppError Reply)}
    (closing : request.closing = some (hostId, worldId))
    (found : pool.shared.database.worldSessions.find worldId = some world)
    (host : world.hostUserId = hostId)
    (turned : pool.turn (handle state) (.atomically request faults) = some next) :
    Scoped hostId worldId pool.shared.database next.shared.database ↔
      ¬request.Disturbs state hostId worldId world pool.shared.database faults := by
  obtain ⟨outcome, executed, -⟩ := Pool.turn_atomically turned
  cases request with
  | closeWorld auth id =>
      cases closing
      exact Handler.execute_scripted (fun after =>
        Scoped hostId worldId pool.shared.database after.database ↔
          ¬Request.Disturbs state hostId worldId world pool.shared.database faults
            (.closeWorld hostId worldId))
        (close_scoped found host) executed
  | updateWorld auth id body =>
      by_cases closes : body.status = some "closed"
      · rw [Request.closing, if_pos closes] at closing
        cases closing
        exact Handler.execute_scripted (fun after =>
          Scoped hostId worldId pool.shared.database after.database ↔
            ¬Request.Disturbs state hostId worldId world pool.shared.database faults
              (.updateWorld hostId worldId body))
          (update_scoped closes found host) executed
      · rw [Request.closing, if_neg closes] at closing
        cases closing
  | _ => cases closing

def soloDatabase : Database := { Database.empty with users := hostedDatabase.users }

/-- A host who is in the world that is closed. -/
theorem closing_scoped_own :
    ∃ pool next, run (Pool.turn (handle plainState)) (.initial (.boot soloDatabase 0))
        (inTurn [.createWorld 5 ⟨none⟩ 6, .setStatus 5 ⟨"joinable", some 6⟩]) = some pool ∧
      pool.turn (handle plainState) (.atomically (.closeWorld 5 6) []) = some next ∧
      Scoped 5 6 pool.shared.database next.shared.database := by
  have closes : ((run (Pool.turn (handle plainState)) (.initial (.boot soloDatabase 0))
      (inTurn [.createWorld 5 ⟨none⟩ 6, .setStatus 5 ⟨"joinable", some 6⟩])).bind fun pool =>
        (pool.turn (handle plainState) (.atomically (.closeWorld 5 6) [])).map fun _ =>
          (pool.shared.database.Elsewhere 5 6,
            (pool.shared.database.worldSessions.find 6).map (·.hostUserId))) =
      some (false, some 5) := by
    decide +kernel
  obtain ⟨pool, reached, closed⟩ := Option.bind_eq_some_iff.mp closes
  obtain ⟨next, turned, seen⟩ := Option.map_eq_some_iff.mp closed
  obtain ⟨present, owned⟩ := Prod.mk.inj seen
  obtain ⟨world, found, host⟩ := Option.map_eq_some_iff.mp owned
  refine ⟨pool, next, reached, turned, (closing_scoped_iff rfl found host turned).mpr ?_⟩
  exact fun disturbs => Bool.false_ne_true (present.symm.trans disturbs.2.2)

/-- Closing a closed world again takes the host out of the next one. -/
theorem closing_not_scoped :
    ¬∀ (state : AppState) (database : Database) (clock : Timestamp) (turns : List (Turn Request))
      (pool next : Pool network Request (Except AppError Reply)) (request : Request)
      (hostId worldId : Uuid) (world : WorldSession) (faults : List Bool),
      run (Pool.turn (handle state)) (.initial (.boot database clock)) turns = some pool →
      request.closing = some (hostId, worldId) →
      pool.shared.database.worldSessions.find worldId = some world →
      world.hostUserId = hostId →
      pool.turn (handle state) (.atomically request faults) = some next →
      Scoped hostId worldId pool.shared.database next.shared.database := by
  intro always
  have closes : ((run (Pool.turn (handle plainState)) (.initial (.boot soloDatabase 0))
      (inTurn [.createWorld 5 ⟨none⟩ 6, .closeWorld 5 6, .createWorld 5 ⟨none⟩ 8,
        .setStatus 5 ⟨"joinable", some 8⟩])).bind fun pool =>
        (pool.turn (handle plainState) (.atomically (.closeWorld 5 6) [])).map fun next =>
          (pool.shared.database.Elsewhere 5 6,
            decide (next.shared.database.presence.find 5 = pool.shared.database.presence.find 5),
            (pool.shared.database.worldSessions.find 6).map (·.hostUserId))) =
      some (true, false, some 5) := by
    decide +kernel
  obtain ⟨pool, reached, closed⟩ := Option.bind_eq_some_iff.mp closes
  obtain ⟨next, turned, seen⟩ := Option.map_eq_some_iff.mp closed
  obtain ⟨elsewhere, rest⟩ := Prod.mk.inj seen
  obtain ⟨moved, owned⟩ := Prod.mk.inj rest
  obtain ⟨world, found, host⟩ := Option.map_eq_some_iff.mp owned
  have kept := (always plainState soloDatabase 0 _ pool next (.closeWorld 5 6) 5 6 world []
    reached rfl found host turned).presence elsewhere
  exact of_decide_eq_false moved kept

end Loontail
