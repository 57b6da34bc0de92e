import Loontail.Guarantees.PlayerAccounting
import Loontail.Network.Findings
import Loontail.Network.Minting
import Loontail.Network.WorldRevision

/-! # A closed world is clean

Closing a world resets its count and closes its relay sessions. The connections
that were in its tunnels go on for a while and write to both tables; what they
write leaves a closed world as it is. -/

namespace Loontail

open Concurrency Relational Network

/-- No closed world counts players or has a relay session that is not closed. -/
structure Database.ClosedWorldsClean (database : Database) : Prop where
  players : ∀ world ∈ database.worldSessions.rows, world.status = .closed →
    world.currentPlayers = 0
  relays : ∀ world ∈ database.worldSessions.rows, world.status = .closed →
    ∀ relay ∈ database.relaySessions.rows, relay.worldSessionId = world.id →
      relay.status = .closed

/-! ## Closing -/

def Statement.closes (worldId : Uuid) : Statement → Prop
  | .world (.commitUpdate _ id ..) => id = worldId
  | .world (.commitClose _ id ..) => id = worldId
  | _ => False

section Statements

variable {now : Timestamp} {database after : Database}

theorem Sql.closeWorldCleanup_relays {closing : Closing} {worldId hostId : Uuid}
    {world : WorldSession} (all : closing.relays = unclosedRelays worldId database)
    (executed : closeWorldCleanup closing worldId hostId database = .ok (world, after)) :
    ∀ relay ∈ after.relaySessions.rows, relay.worldSessionId = worldId →
      relay.status = .closed := by
  unfold closeWorldCleanup at executed
  dsimp only at executed
  split at executed
  · cases executed
    intro relay member ofWorld
    rcases Table.mem_revised.mp member with ⟨earlier, present, rfl⟩
    unfold Table.revise at ofWorld ⊢
    split
    · rfl
    · rename_i kept
      rw [if_neg kept] at ofWorld
      by_contra unclosed
      apply kept
      rw [all, List.contains_iff_mem, mem_unclosedRelays]
      exact ⟨earlier, present, ⟨ofWorld, unclosed⟩, rfl⟩
  · cases executed

/-- The statement that closes a world closes its relay sessions, when it holds
every one of them. -/
theorem Statement.execute_closes {state : AppState} {request : Request}
    {statement : Statement} {reply : statement.Reply} {worldId : Uuid}
    (closes : statement.closes worldId)
    (finds : request.finds state ⟨database, now⟩ (.statement statement))
    (executed : statement.execute now database = .ok (reply, after)) :
    ∀ relay ∈ after.relaySessions.rows, relay.worldSessionId = worldId →
      relay.status = .closed := by
  unfold Statement.closes at closes
  split at closes
  · subst closes
    apply Sql.closeWorldCleanup_relays _ executed
    exact finds
  · subst closes
    apply Sql.closeWorldCleanup_relays _ executed
    exact finds
  · exact closes.elim

theorem Statement.reviseWorld_closed {state : AppState} {request : Request}
    {moment : Moment} {statement : Statement} {world : WorldSession}
    (found : moment.database.worldSessions.find world.id = some world)
    (finds : request.finds state moment (.statement statement))
    (closed : (statement.reviseWorld now world).status = .closed) :
    (world.status = .closed ∧ (world.currentPlayers = 0 →
      (statement.reviseWorld now world).currentPlayers = 0)) ∨
    statement.closes world.id ∧ (statement.reviseWorld now world).currentPlayers = 0 := by
  unfold reviseWorld at closed ⊢
  split at closed <;> try split at closed
  -- rows that the statement does not select
  case h_1.isFalse other | h_2.isFalse other | h_3.isFalse other | h_4.isFalse other |
      h_5.isFalse other | h_6.isFalse other | h_7.isFalse other =>
    rw [if_neg other]
    exact .inl ⟨closed, id⟩
  case h_8 => exact .inl ⟨closed, id⟩
  -- rows that are selected because they are open
  case h_1.isTrue chosen => exact nomatch chosen.1.symm.trans closed
  case h_5.isTrue chosen => exact nomatch chosen.2.1.symm.trans closed
  case h_7.isTrue chosen => exact nomatch chosen.symm.trans closed
  -- an update that closes without a cleanup has read the world closed
  case h_2.isTrue id maxPlayers becomes invitePolicy here =>
    rcases finds with ⟨read, foundRead, wasClosed⟩
    subst here
    have same : read = world := Option.some.inj (foundRead.symm.trans found)
    subst same
    rw [if_pos rfl]
    cases status : read.status with
    | «open» => exact (wasClosed closed status).elim
    | closed => exact .inl ⟨rfl, fun none => none⟩
  case h_3.isTrue here =>
    rw [if_pos here]
    exact .inr ⟨here.symm, rfl⟩
  case h_4.isTrue here =>
    rw [if_pos here]
    exact .inr ⟨here.symm, rfl⟩
  case h_6.isTrue here =>
    rw [if_pos here]
    exact .inl ⟨closed, fun none => by simp [none]⟩

end Statements

theorem Request.finds_room {state : AppState} {request : Request} {moment : Moment}
    {statement : Statement} {guestId hostId worldId : Uuid}
    (finds : request.finds state moment (.statement statement))
    (admits : statement.admits guestId hostId worldId) :
    ∃ world, moment.HasRoom worldId world := by
  unfold Statement.admits at admits
  split at admits
  · rcases admits with ⟨-, -, rfl⟩
    rcases finds with ⟨-, -, world, room, -⟩
    exact ⟨world, room⟩
  · rcases admits with ⟨-, -, rfl⟩
    rcases finds with ⟨-, -, world, room, -⟩
    exact ⟨world, room⟩
  · rcases admits with ⟨-, -, rfl⟩
    rcases finds with ⟨-, -, -, world, room, -⟩
    exact ⟨world, room⟩
  · exact admits.elim

namespace Database.ClosedWorldsClean

variable {state : AppState} {request : Request} {event : Event network}

theorem closing (finds : request.finds state event.before.moment event.operation)
    (happened : event.Happened) {world : WorldSession}
    (member : world ∈ event.after.database.worldSessions.rows)
    (closed : world.status = .closed) :
    ∃ earlier ∈ event.before.database.worldSessions.rows, earlier.id = world.id ∧
      (earlier.status = .closed ∧ (earlier.currentPlayers = 0 → world.currentPlayers = 0) ∨
        world.currentPlayers = 0 ∧ ∀ relay ∈ event.after.database.relaySessions.rows,
          relay.worldSessionId = world.id → relay.status = .closed) := by
  rcases event with ⟨process, before, operation, result, after⟩
  have occurs : network.Occurs before operation result after := happened
  rcases occurs_worlds occurs world member with ⟨earlier, present, rfl⟩ | ⟨-, created⟩
  · refine ⟨earlier, present, (Operation.reviseWorld_id _ _ _ _).symm, ?_⟩
    unfold Operation.reviseWorld at closed ⊢
    split at closed
    · rename_i statement reply
      have found := Table.find_eq_some.mpr ⟨present, rfl⟩
      rcases Statement.reviseWorld_closed found finds closed with was | ⟨closes, none⟩
      · exact .inl was
      · rcases occurs_ok occurs with ⟨database, executed, rfl⟩
        refine .inr ⟨none, ?_⟩
        rw [Statement.reviseWorld_id]
        exact Statement.execute_closes closes finds executed
    · exact .inl ⟨closed, id⟩
  · exact nomatch created.status.symm.trans closed

theorem revised (finds : request.finds state event.before.moment event.operation)
    (happened : event.Happened) {world : WorldSession} {relay : RelaySession}
    (present : world ∈ event.before.database.worldSessions.rows)
    (closed : world.status = .closed)
    (member : relay ∈ event.after.database.relaySessions.rows)
    (ofWorld : relay.worldSessionId = world.id) :
    ∃ earlier ∈ event.before.database.relaySessions.rows, earlier.Revises relay := by
  rcases (occurs_evolves happened).relaySessions.rows relay member with ⟨unissued, -⟩ | old
  · rcases occurs_mints happened with nothing | ⟨statement, guestId, hostId, worldId, made,
      admits, mints⟩
    · exact (unissued (nothing.relays relay member)).elim
    · rw [made] at finds
      rcases Request.finds_room finds admits with ⟨admitting, room⟩
      rcases mints.rows with ⟨ticket, minted, -, rows, -, -, -, -, hosted, -⟩
      rw [rows] at member
      rcases List.mem_cons.mp member with rfl | before
      · have same : admitting = world := Table.eq_of_key_eq
          (Table.find_eq_some.mp room.found).1 present
          ((Table.find_eq_some.mp room.found).2.trans (hosted.symm.trans ofWorld))
        rw [← same, room.isOpen] at closed
        cases closed
      · exact (unissued (event.before.database.relaySessions.keysIssued relay before)).elim
  · exact old

/-- Every event keeps closed worlds clean: late admissions, releases and markings
do not change what a closing leaves. -/
theorem preserved (clean : event.before.database.ClosedWorldsClean)
    (finds : request.finds state event.before.moment event.operation)
    (happened : event.Happened) : event.after.database.ClosedWorldsClean where
  players := by
    intro world member closed
    rcases closing finds happened member closed with
      ⟨earlier, present, -, ⟨was, keeps⟩ | ⟨none, -⟩⟩
    · exact keeps (clean.players earlier present was)
    · exact none
  relays := by
    intro world member closed relay ofRelays ofWorld
    rcases closing finds happened member closed with
      ⟨earlier, present, same, ⟨was, -⟩ | ⟨-, relays⟩⟩
    · rcases revised finds happened present was ofRelays (ofWorld.trans same.symm) with
        ⟨before, old, revises⟩
      refine revises.closed (clean.relays earlier present was before old ?_)
      rw [← revises.worldSessionId, ofWorld, same]
    · exact relays relay ofRelays ofWorld

end Database.ClosedWorldsClean

/-! ## Every run and every restart -/

structure Database.RelayClosed (database : Database) (id : Uuid) : Prop where
  issued : id ∈ database.relaySessions.issued
  closed : ∀ relay, database.relaySessions.find id = some relay → relay.status = .closed

theorem Database.RelayClosed.evolves {old new : Database} {id : Uuid}
    (closed : old.RelayClosed id) (evolves : old.Evolves new) : new.RelayClosed id where
  issued := evolves.relaySessions.issued id closed.issued
  closed := by
    intro relay found
    rcases evolves.relaySessions.find (fun _ _ revised => revised.id) closed.issued found with
      ⟨earlier, present, revised⟩
    exact revised.closed (closed.closed earlier present)

/-- Over every run, whatever relay connections do between the requests, and over
every restart, closed worlds are clean and closed relay sessions stay closed. -/
theorem closed_worlds_clean (state : AppState) (database : Database) (clock : Timestamp)
    (clean : database.ClosedWorldsClean) {earlier later : List Stage}
    {middle final : Pool network Request (Except AppError Reply)}
    (whole : ∀ stage ∈ earlier ++ later, stage.whole = true)
    (reached : run (serve state) (.initial (.boot database clock)) earlier = some middle)
    (continued : run (serve state) middle later = some final) :
    middle.shared.database.ClosedWorldsClean ∧
      ∀ relay ∈ middle.shared.database.relaySessions.rows, relay.status = .closed →
        ∀ row ∈ final.shared.database.relaySessions.rows, row.id = relay.id →
          row.status = .closed := by
  have first := serve_invariant Database.ClosedWorldsClean
    (fun event request happened finds clean => clean.preserved finds happened)
    (fun stage member => whole stage (List.mem_append_left _ member)) reached
    (@Pool.kept_initial network _ _ _ (.boot database clock)) clean
  refine ⟨first.2, fun relay member closed row left same => ?_⟩
  have relayClosed : middle.shared.database.RelayClosed relay.id := by
    refine ⟨middle.shared.database.relaySessions.keysIssued relay member, fun found is => ?_⟩
    rw [Option.some.inj (is.symm.trans (Table.find_eq_some.mpr ⟨member, rfl⟩))]
    exact closed
  have stays := (serve_invariant (Database.RelayClosed · relay.id)
    (fun event request happened finds closed => closed.evolves (occurs_evolves happened))
    (fun stage member => whole stage (List.mem_append_right _ member)) continued first.1
    relayClosed).2
  exact stays.closed row (Table.find_eq_some.mpr ⟨left, same⟩)

theorem hostedDatabase_clean : hostedDatabase.ClosedWorldsClean := by
  constructor <;> decide

/-- The world is closed between the guest's admission and the marking of the
relay session as active. -/
def closedInTunnel : List Stage :=
  hostAndGuest.map (fun choice => .turn (.move choice)) ++
    [.turn (.move (.advance 1)), .turn (.atomically (.closeWorld 5 3) []),
     .turn (.move (.advance 1)), .turn (.move (.advance 1))]

theorem closed_worlds_clean_tunnel :
    ∃ middle final, run (serve plainState) (.initial (.boot hostedDatabase 0)) closedInTunnel =
        some middle ∧
      run (serve plainState) middle [.restart 5] = some final ∧
      (middle.shared.database.worldSessions.rows.map (·.status) = [.closed] ∧
        middle.shared.database.relaySessions.rows.map (·.status) = [.closed]) ∧
      middle.shared.database.ClosedWorldsClean ∧
      ∀ relay ∈ middle.shared.database.relaySessions.rows, relay.status = .closed →
        ∀ row ∈ final.shared.database.relaySessions.rows, row.id = relay.id →
          row.status = .closed := by
  have runs : ((run (serve plainState) (.initial (.boot hostedDatabase 0))
      closedInTunnel).bind fun middle => (run (serve plainState) middle [.restart 5]).map
        fun _ => (middle.shared.database.worldSessions.rows.map (·.status),
          middle.shared.database.relaySessions.rows.map (·.status))) =
      some ([.closed], [.closed]) := by decide +kernel
  rcases Option.bind_eq_some_iff.mp runs with ⟨middle, reached, rest⟩
  rcases Option.map_eq_some_iff.mp rest with ⟨final, continued, statuses⟩
  exact ⟨middle, final, reached, continued, Prod.mk.inj statuses,
    closed_worlds_clean plainState hostedDatabase 0 hostedDatabase_clean (by decide) reached
      continued⟩

end Loontail
