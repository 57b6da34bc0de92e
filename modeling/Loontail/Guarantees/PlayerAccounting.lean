import Loontail.Guarantees.RequestLifecycle
import Loontail.Network.WorldRevision

/-! # Players and tunnels

A tunnel lives from the admission of its guest to the release of the slot. The
history says which tunnels are alive; the count of a world is compared with
them. -/

namespace Loontail

open Concurrency Relational

/-- A guest tunnel: the world that admitted it, the connection that runs it, and
the world's cap when it was admitted. -/
structure Tunnel where
  world : Uuid
  process : Nat
  cap : Int
  deriving DecidableEq, Repr

def tunnelsOf (worldId : Uuid) (tunnels : List Tunnel) : Nat :=
  tunnels.countP fun tunnel => tunnel.world = worldId

def capInForce (worldId : Uuid) (database : Database) : Int :=
  ((database.worldSessions.find worldId).map (·.maxPlayers)).getD 0

def tunnelsAfter (tunnels : List Tunnel) : Event network → List Tunnel
  | ⟨process, before, .statement (.relay (.admitPlayer worldId)), .ok admitted, _⟩ =>
      if admitted > 0 then ⟨worldId, process, capInForce worldId before.database⟩ :: tunnels
      else tunnels
  | ⟨process, _, .statement (.relay (.releasePlayer worldId)), .ok _, _⟩ =>
      tunnels.eraseP fun tunnel => tunnel.world = worldId && tunnel.process = process
  | _ => tunnels

def liveTunnels (history : List (Event network)) : List Tunnel :=
  history.foldr (fun event tunnels => tunnelsAfter tunnels event) []

/-- The number of tunnels of the world that were admitted and not yet released. -/
def live (worldId : Uuid) (history : List (Event network)) : Nat :=
  tunnelsOf worldId (liveTunnels history)

/-- Every open world counts its live tunnels, and they are no more than the cap
that was in force when the newest of them was admitted. -/
structure Accounts (pool : Pool network Request (Except AppError Reply)) : Prop where
  exact : ∀ world ∈ pool.shared.database.worldSessions.rows, world.status = .open →
    world.currentPlayers = live world.id pool.history
  capped : ∀ worldId newest older,
    (liveTunnels pool.history).filter (·.world = worldId) = newest :: older →
      (older.length : Int) + 1 ≤ newest.cap

/-- A create does not find the host's open world with live tunnels, a patch does not
open a closed world whose count is not that of its live tunnels, and a close that
found its world closed does not reset one that is open with live tunnels by now. -/
def Statement.keepsAccounts (database : Database) (tunnels : List Tunnel) :
    Statement → Prop
  | .world (.upsert hostUserId _ _) =>
      ∀ world ∈ database.worldSessions.rows,
        world.status = .open → world.hostUserId = hostUserId → tunnelsOf world.id tunnels = 0
  | .world (.update id _ .open _) =>
      ∀ world ∈ database.worldSessions.rows,
        world.id = id → world.status = .closed → world.currentPlayers = tunnelsOf id tunnels
  | .world (.commitClose _ id _ false) =>
      ∀ world ∈ database.worldSessions.rows,
        world.id = id → world.status = .open → tunnelsOf id tunnels = 0
  | _ => True

instance (database : Database) (tunnels : List Tunnel) (statement : Statement) :
    Decidable (statement.keepsAccounts database tunnels) := by
  unfold Statement.keepsAccounts
  split <;> infer_instance

/-- A statement that the database refuses keeps the accounts. -/
def Operation.keepsAccounts (service : Service) (tunnels : List Tunnel) :
    Operation → Prop
  | .statement query =>
      match query.execute service.clock service.database with
      | .ok _ => query.keepsAccounts service.database tunnels
      | .error _ => True
  | _ => True

instance (service : Service) (tunnels : List Tunnel) (operation : Operation) :
    Decidable (operation.keepsAccounts service tunnels) := by
  unfold Operation.keepsAccounts
  split
  · split <;> infer_instance
  · infer_instance

def KeepsAccounts (pool : Pool network Request (Except AppError Reply)) :
    Move Request → Prop
  | .advance index => ∀ operation ∈ pool.upcoming index,
      operation.keepsAccounts pool.shared (liveTunnels pool.history)
  | _ => True

instance : DecidableRel KeepsAccounts
  | pool, .advance index => inferInstanceAs (Decidable (∀ operation ∈ pool.upcoming index,
      operation.keepsAccounts pool.shared (liveTunnels pool.history)))
  | _, .start _ => inferInstanceAs (Decidable True)
  | _, .fail _ => inferInstanceAs (Decidable True)

theorem tunnelsAfter_other {event : Event network} {tunnels : List Tunnel}
    (notAdmits : ∀ worldId, event.operation ≠ .statement (.relay (.admitPlayer worldId)))
    (notReleases : ∀ worldId, event.operation ≠ .statement (.relay (.releasePlayer worldId))) :
    tunnelsAfter tunnels event = tunnels := by
  unfold tunnelsAfter
  split
  · exact (notAdmits _ rfl).elim
  · exact (notReleases _ rfl).elim
  · rfl

/-! ## Counting tunnels -/

theorem tunnelsOf_cons (worldId : Uuid) (tunnel : Tunnel) (tunnels : List Tunnel) :
    tunnelsOf worldId (tunnel :: tunnels) =
      tunnelsOf worldId tunnels + if tunnel.world = worldId then 1 else 0 := by
  simp [tunnelsOf, List.countP_cons]

theorem tunnelsOf_erase {worldId : Uuid} {process : Nat} {tunnels : List Tunnel}
    (held : ∃ tunnel ∈ tunnels, tunnel.world = worldId ∧ tunnel.process = process)
    (other : Uuid) :
    tunnelsOf other (tunnels.eraseP fun tunnel =>
        tunnel.world = worldId && tunnel.process = process) +
      (if worldId = other then 1 else 0) = tunnelsOf other tunnels := by
  rcases held with ⟨tunnel, member, same⟩
  have chosen : (tunnel.world = worldId && tunnel.process = process) = true := by
    simp [same]
  rcases @List.exists_of_eraseP Tunnel
      (fun tunnel => tunnel.world = worldId && tunnel.process = process) tunnels tunnel
      member chosen with ⟨erased, newer, older, -, ended, split, left⟩
  have world : erased.world = worldId := by
    simpa using (Bool.and_eq_true_iff.mp ended).1
  rw [left, split, tunnelsOf, tunnelsOf, List.countP_append, List.countP_append,
    List.countP_cons, world]
  simp only [decide_eq_true_eq]
  omega

theorem tunnelsOf_eq_zero {worldId : Uuid} {tunnels : List Tunnel} :
    tunnelsOf worldId tunnels = 0 ↔ ∀ tunnel ∈ tunnels, tunnel.world ≠ worldId := by
  simp [tunnelsOf]

def Capped : List Tunnel → Prop
  | [] => True
  | tunnel :: older => (tunnelsOf tunnel.world older : Int) + 1 ≤ tunnel.cap ∧ Capped older

theorem Capped.sublist {fewer tunnels : List Tunnel} (sub : fewer.Sublist tunnels)
    (capped : Capped tunnels) : Capped fewer := by
  induction sub with
  | slnil => trivial
  | cons tunnel sub induction => exact induction capped.2
  | @cons_cons fewer older tunnel sub induction =>
      have fewest : tunnelsOf tunnel.world fewer ≤ tunnelsOf tunnel.world older :=
        sub.countP_le
      have cap := capped.1
      exact ⟨by omega, induction capped.2⟩

theorem Capped.newest {tunnels older : List Tunnel} {newest : Tunnel} {worldId : Uuid}
    (capped : Capped tunnels)
    (filtered : tunnels.filter (·.world = worldId) = newest :: older) :
    (older.length : Int) + 1 ≤ newest.cap := by
  have alone : Capped (newest :: older) := filtered ▸ capped.sublist List.filter_sublist
  have ofWorld : ∀ tunnel ∈ newest :: older, tunnel.world = worldId := by
    intro tunnel member
    rw [← filtered] at member
    simpa using (List.mem_filter.mp member).2
  have all : tunnelsOf newest.world older = older.length := by
    rw [tunnelsOf, List.countP_eq_length]
    intro tunnel member
    simp [ofWorld tunnel (by simp [member]), ofWorld newest (by simp)]
  have cap := alone.1
  rw [all] at cap
  exact cap

/-! ## One event

The count of a world follows its tunnels through every operation. -/

/-- The count is that of the tunnels, or the world is closed and counts none. -/
def Balanced (world : WorldSession) (count : Nat) : Prop :=
  world.currentPlayers = count ∨ world.status = .closed ∧ world.currentPlayers = 0

theorem admitted_world {before after : Service} {worldId : Uuid} {admitted : Nat}
    (occurs : network.Occurs before (.statement (.relay (.admitPlayer worldId)))
      (.ok admitted) after) :
    (admitted = 0 ∧ ∀ world ∈ before.database.worldSessions.rows, world.id = worldId →
      ¬(world.status = .open ∧ world.currentPlayers < world.maxPlayers)) ∨
    0 < admitted ∧ ∃ world, before.database.worldSessions.find worldId = some world ∧
      world.status = .open ∧ world.currentPlayers < world.maxPlayers := by
  rcases occurs_ok occurs with ⟨database, executed, -⟩
  have count : admitted = before.database.worldSessions.affected fun world =>
      world.id = worldId && world.status = .open &&
        world.currentPlayers < world.maxPlayers := by
    have equal := Except.ok.inj executed
    exact (congrArg Prod.fst equal).symm
  cases Nat.eq_zero_or_pos admitted with
  | inl none =>
      refine .inl ⟨none, fun world member here free => ?_⟩
      have unselected := Table.affected_eq_zero.mp (count.symm.trans none) world member
      simp [here, free] at unselected
  | inr some =>
      rw [count] at some ⊢
      rcases Table.affected_pos.mp some with ⟨world, member, selected⟩
      simp only [Bool.and_eq_true, decide_eq_true_eq] at selected
      exact .inr ⟨some, world, Table.find_eq_some.mpr ⟨member, selected.1.1⟩,
        selected.1.2, selected.2⟩

section Event

variable {before after : Service} {operation : Operation} {result : operation.Result}
  {process : Nat} {tunnels : List Tunnel}

theorem tunnelsAfter_failed
    (failed : ∀ statement reply, operation = .statement statement →
      HEq result (.ok reply : Except DatabaseError statement.Reply) → False) :
    tunnelsAfter tunnels ⟨process, before, operation, result, after⟩ = tunnels := by
  unfold tunnelsAfter
  split
  · rename_i equal
    cases equal
    exact (failed _ _ rfl HEq.rfl).elim
  · rename_i equal
    cases equal
    exact (failed _ _ rfl HEq.rfl).elim
  · rfl

theorem mem_tunnelsAfter {tunnel : Tunnel} (member : tunnel ∈ tunnels)
    (kept : ∀ worldId, operation = .statement (.relay (.releasePlayer worldId)) →
      tunnel.process ≠ process) :
    tunnel ∈ tunnelsAfter tunnels ⟨process, before, operation, result, after⟩ := by
  unfold tunnelsAfter
  split
  · split
    · exact List.mem_cons_of_mem _ member
    · exact member
  · rename_i worldId _ _ equal
    cases equal
    refine (List.mem_eraseP_of_neg ?_).mpr member
    simp [kept worldId rfl]
  · exact member

theorem tunnelsAfter_issued (process : Nat)
    (occurs : network.Occurs before operation result after)
    (issued : ∀ tunnel ∈ tunnels, tunnel.world ∈ before.database.worldSessions.issued) :
    ∀ tunnel ∈ tunnelsAfter tunnels ⟨process, before, operation, result, after⟩,
      tunnel.world ∈ before.database.worldSessions.issued := by
  intro tunnel member
  unfold tunnelsAfter at member
  split at member
  · rename_i worldId admitted _ equal
    cases equal
    split at member
    · rename_i some
      rcases List.mem_cons.mp member with rfl | member
      · rcases admitted_world occurs with ⟨none, -⟩ | ⟨-, world, found, -⟩
        · exact (Nat.ne_of_gt some none).elim
        · exact Table.issued_of_find found
      · exact issued tunnel member
    · exact issued tunnel member
  · exact issued tunnel (List.mem_of_mem_eraseP member)
  · exact issued tunnel member

theorem tunnelsAfter_capped (occurs : network.Occurs before operation result after)
    (balanced : ∀ world ∈ before.database.worldSessions.rows,
      Balanced world (tunnelsOf world.id tunnels))
    (capped : Capped tunnels) :
    Capped (tunnelsAfter tunnels ⟨process, before, operation, result, after⟩) := by
  unfold tunnelsAfter
  split
  · rename_i worldId admitted _ equal
    cases equal
    split
    · rename_i some
      rcases admitted_world occurs with ⟨none, -⟩ | ⟨-, world, found, isOpen, free⟩
      · exact (Nat.ne_of_gt some none).elim
      · refine ⟨?_, capped⟩
        rcases Table.find_eq_some.mp found with ⟨member, rfl⟩
        have counted : world.currentPlayers = tunnelsOf world.id tunnels := by
          rcases balanced world member with counted | ⟨closed, -⟩
          · exact counted
          · exact nomatch isOpen.symm.trans closed
        simp only [capInForce, found, Option.map_some, Option.getD_some]
        omega
    · exact capped
  · exact capped.sublist List.eraseP_sublist
  · exact capped

theorem balanced_admitted {worldId : Uuid} {admitted : Nat}
    (occurs : network.Occurs before (.statement (.relay (.admitPlayer worldId)))
      (.ok admitted) after)
    {world : WorldSession} (member : world ∈ before.database.worldSessions.rows)
    (balanced : Balanced world (tunnelsOf world.id tunnels)) :
    Balanced
      (if world.id = worldId ∧ world.status = .open ∧ world.currentPlayers < world.maxPlayers
        then { world with currentPlayers := world.currentPlayers + 1 } else world)
      (tunnelsOf world.id (if admitted > 0 then
        ⟨worldId, process, capInForce worldId before.database⟩ :: tunnels else tunnels)) := by
  rcases admitted_world occurs with ⟨none, full⟩ | ⟨some, admitting, found, free⟩
  · rw [if_neg fun chosen => full world member chosen.1 chosen.2, if_neg (by omega)]
    exact balanced
  · rcases Table.find_eq_some.mp found with ⟨present, here⟩
    rw [if_pos some, tunnelsOf_cons]
    by_cases same : world.id = worldId
    · have equal : world = admitting :=
        Table.eq_of_key_eq member present (same.trans here.symm)
      subst equal
      rw [if_pos ⟨same, free⟩, if_pos same.symm]
      rcases balanced with counted | ⟨closed, -⟩
      · exact .inl (by simp [counted])
      · exact nomatch free.1.symm.trans closed
    · rw [if_neg fun chosen => same chosen.1, if_neg (Ne.symm same)]
      exact balanced

theorem balanced_released {worldId : Uuid}
    (held : ∃ tunnel ∈ tunnels, tunnel.world = worldId ∧ tunnel.process = process)
    {world : WorldSession} (balanced : Balanced world (tunnelsOf world.id tunnels)) :
    Balanced
      (if world.id = worldId then
        { world with currentPlayers := max (world.currentPlayers - 1) 0 } else world)
      (tunnelsOf world.id (tunnels.eraseP fun tunnel =>
        tunnel.world = worldId && tunnel.process = process)) := by
  have erased := tunnelsOf_erase held world.id
  by_cases same : world.id = worldId
  · rw [if_pos same.symm] at erased
    rw [if_pos same]
    rcases balanced with counted | ⟨closed, none⟩
    · left
      simp only
      omega
    · exact .inr ⟨closed, by simp [none]⟩
  · rw [if_neg (Ne.symm same)] at erased
    rw [if_neg same]
    rw [← erased] at balanced
    exact balanced

theorem balanced_updated {status : WorldStatus} {count : Nat} {world updated : WorldSession}
    (reopens : status = .open → world.status = .closed → world.currentPlayers = count)
    (became : updated.status = status)
    (counts : updated.currentPlayers = world.currentPlayers)
    (balanced : Balanced world count) : Balanced updated count := by
  rcases balanced with counted | ⟨closed, none⟩
  · exact .inl (counts.trans counted)
  · cases status with
    | «open» => exact .inl (counts.trans (reopens rfl closed))
    | closed => exact .inr ⟨became, counts.trans none⟩

/-- Through every operation the count of a world follows its tunnels. -/
theorem balanced_after (occurs : network.Occurs before operation result after)
    (keeps : operation.keepsAccounts before tunnels)
    (running : operation.purpose ≠ .restart)
    (held : ∀ worldId, operation = .statement (.relay (.releasePlayer worldId)) →
      ∃ tunnel ∈ tunnels, tunnel.world = worldId ∧ tunnel.process = process)
    {now : Timestamp} {world : WorldSession}
    (member : world ∈ before.database.worldSessions.rows)
    (balanced : Balanced world (tunnelsOf world.id tunnels)) :
    Balanced (operation.reviseWorld now world result) (tunnelsOf world.id
      (tunnelsAfter tunnels ⟨process, before, operation, result, after⟩)) := by
  unfold Operation.reviseWorld
  split
  · rename_i statement reply
    obtain ⟨database, executed, -⟩ := occurs_ok occurs
    rw [Operation.keepsAccounts, executed] at keeps
    unfold Statement.reviseWorld
    split
    · split
      · rename_i chosen
        exact .inl (by simp [tunnelsAfter, keeps world member chosen.1 chosen.2])
      · exact balanced
    · rename_i id maxPlayers status invitePolicy
      split
      · rename_i here
        subst here
        refine @balanced_updated status _ world _ ?_ rfl rfl balanced
        rintro rfl closed
        exact keeps world member rfl closed
      · exact balanced
    · split
      · exact .inr ⟨rfl, rfl⟩
      · exact balanced
    · rename_i closing id hostId shut
      split
      · rename_i here
        subst here
        cases shut with
        | true => exact .inr ⟨rfl, rfl⟩
        | false =>
            cases status : world.status with
            | closed => exact .inr ⟨rfl, rfl⟩
            | «open» =>
                left
                rw [tunnelsAfter_other (by simp) (by simp)]
                exact congrArg Nat.cast (keeps world member rfl status).symm
      · exact balanced
    · exact balanced_admitted occurs member balanced
    · rename_i worldId
      exact balanced_released (held worldId rfl) balanced
    · exact (running rfl).elim
    · rw [tunnelsAfter_other (by simp_all) (by simp_all)]
      exact balanced
  · rename_i other
    rw [tunnelsAfter_failed other]
    exact balanced

end Event

/-! ## The invariant -/

/-- The accounts, and what keeps them: a connection that tunnels holds one of
the live tunnels, which belong to worlds that exist. -/
structure Accounted (pool : Pool network Request (Except AppError Reply)) : Prop where
  held : ∀ index visit peer,
    pool.phaseOf relayProtocol index = some (.tunnelling visit peer) →
    ∃ tunnel ∈ liveTunnels pool.history,
      tunnel.world = visit.relay.worldSessionId ∧ tunnel.process = index
  issued : ∀ tunnel ∈ liveTunnels pool.history,
    tunnel.world ∈ pool.shared.database.worldSessions.issued
  balanced : ∀ world ∈ pool.shared.database.worldSessions.rows,
    Balanced world (live world.id pool.history)
  capped : Capped (liveTunnels pool.history)

theorem Accounted.accounts {pool : Pool network Request (Except AppError Reply)}
    (accounted : Accounted pool) : Accounts pool where
  exact := by
    intro world member isOpen
    rcases accounted.balanced world member with counted | ⟨closed, -⟩
    · exact counted
    · exact nomatch isOpen.symm.trans closed
  capped := fun _ _ _ filtered => accounted.capped.newest filtered

namespace RelayPhase

theorem tunnelling_of_releases {phase : RelayPhase} {worldId : Uuid}
    (allowed : phase.allows (.statement (.relay (.releasePlayer worldId)))) :
    ∃ visit peer, phase = .tunnelling visit peer ∧
      worldId = visit.relay.worldSessionId := by
  cases phase <;> simp_all [allows, Operation.purpose]

theorem allows_running {phase : RelayPhase} {operation : Operation}
    (allowed : phase.allows operation) : operation.purpose ≠ .restart := by
  intro restart
  cases phase <;> grind [allows, Operation.purpose]

theorem tunnelling_after_cases {phase : RelayPhase} {operation : Operation}
    {result : operation.Result} {visit : RelayVisit} {peer : PendingPeer}
    (allowed : phase.allows operation)
    (tunnelling : phase.after operation result = .tunnelling visit peer) :
    (phase = .tunnelling visit peer ∧
      ∀ worldId, operation ≠ .statement (.relay (.releasePlayer worldId))) ∨
    ∃ count : Nat, 0 < count ∧
      operation = .statement (.relay (.admitPlayer visit.relay.worldSessionId)) ∧
      HEq result (.ok count : Except DatabaseError Nat) := by
  unfold after at tunnelling
  split at tunnelling
  case h_2 _ _ _ _ user =>
    rcases afterUser_cases _ _ user with ⟨-, next⟩ | next <;>
      cases next.symm.trans tunnelling
  case h_6 _ _ _ peer => cases peer <;> cases tunnelling
  case h_9 _ _ paired waiting _ admitted =>
    rcases afterAdmit_cases paired waiting admitted with ⟨count, rfl, some, next⟩ | next
    · cases next.symm.trans tunnelling
      simp only [allows, Operation.statement.injEq, Statement.relay.injEq,
        RelayStatement.admitPlayer.injEq] at allowed
      subst allowed
      exact .inr ⟨count, some, rfl, HEq.rfl⟩
    · cases next.symm.trans tunnelling
  case h_11 notReleased =>
    cases tunnelling
    refine .inl ⟨rfl, fun worldId => ?_⟩
    rintro rfl
    exact notReleased _ _ rfl HEq.rfl
  all_goals contradiction

end RelayPhase

theorem fault_changes_nothing {operation : Operation} {result : operation.Result}
    (fault : operation.fault = some result) (now : Timestamp) (world : WorldSession)
    (tunnels : List Tunnel) (process : Nat) (before after : Service) :
    operation.reviseWorld now world result = world ∧
      tunnelsAfter tunnels ⟨process, before, operation, result, after⟩ = tunnels := by
  cases operation with
  | statement statement =>
      cases fault
      refine ⟨rfl, tunnelsAfter_failed ?_⟩
      rintro _ reply ⟨⟩ same
      exact nomatch eq_of_heq same
  | begin =>
      cases fault
      exact ⟨rfl, rfl⟩
  | _ => cases fault

theorem Accounted.move {state : AppState}
    {pool next : Pool network Request (Except AppError Reply)} {choice : Move Request}
    (accounted : Accounted pool)
    (obeys : pool.Obeys relayProtocol fun _ phase => phase.ending)
    (keeps : KeepsAccounts pool choice)
    (moved : pool.move (handle state) choice = some next) : Accounted next := by
  rcases Pool.move_phases obeys moved with ⟨request, -, shared, history, phases⟩ |
    ⟨index, phase, operation, result, after, made, upcoming, current, allowed, occurs,
      shared, history, phases⟩
  · constructor
    · intro index visit peer tunnelling
      rw [phases] at tunnelling
      rw [history]
      split at tunnelling
      · cases request <;> cases tunnelling
      · exact accounted.held index visit peer tunnelling
    · rw [history, shared]
      exact accounted.issued
    · rw [history, shared]
      exact accounted.balanced
    · rw [history]
      exact accounted.capped
  · have tunnels : liveTunnels next.history = tunnelsAfter (liveTunnels pool.history)
        ⟨index, pool.shared, operation, result, after⟩ := by
      rw [history]
      rfl
    have released : ∀ worldId, operation = .statement (.relay (.releasePlayer worldId)) →
        ∃ tunnel ∈ liveTunnels pool.history,
          tunnel.world = worldId ∧ tunnel.process = index := by
      rintro worldId rfl
      rcases RelayPhase.tunnelling_of_releases allowed with ⟨visit, peer, rfl, rfl⟩
      exact accounted.held index visit peer current
    have issued := tunnelsAfter_issued index occurs accounted.issued
    constructor
    · intro other visit peer tunnelling
      rw [phases] at tunnelling
      rw [tunnels]
      split at tunnelling
      · rename_i own
        subst own
        rcases RelayPhase.tunnelling_after_cases allowed (Option.some.inj tunnelling) with
          ⟨rfl, notReleased⟩ | ⟨count, some, rfl, same⟩
        · rcases accounted.held other visit peer current with ⟨tunnel, member, holds⟩
          exact ⟨tunnel, mem_tunnelsAfter member fun worldId released =>
            (notReleased worldId released).elim, holds⟩
        · cases eq_of_heq same
          have counts : tunnelsAfter (liveTunnels pool.history) ⟨other, pool.shared,
              .statement (.relay (.admitPlayer visit.relay.worldSessionId)),
              (.ok count : Except DatabaseError Nat), after⟩ = _ := if_pos some
          rw [counts]
          exact ⟨_, List.mem_cons_self, rfl, rfl⟩
      · rename_i different
        rcases accounted.held other visit peer tunnelling with ⟨tunnel, member, holds⟩
        exact ⟨tunnel, mem_tunnelsAfter member fun _ _ same =>
          different (holds.2.symm.trans same), holds⟩
    · intro tunnel member
      rw [tunnels] at member
      rw [shared]
      exact (occurs_evolves occurs).worldSessions.issued _ (issued tunnel member)
    · intro world member
      rw [live, tunnels]
      rw [shared] at member
      rcases occurs_worlds occurs world member with ⟨earlier, present, rfl⟩ | ⟨fresh, created⟩
      · have balanced := accounted.balanced earlier present
        simp only [Operation.reviseWorld_id]
        rcases made with rfl | ⟨-, fault⟩
        · exact balanced_after occurs (keeps operation upcoming)
            (RelayPhase.allows_running allowed) released present balanced
        · rcases fault_changes_nothing fault pool.shared.clock earlier
            (liveTunnels pool.history) index pool.shared after with ⟨unrevised, same⟩
          rw [unrevised, same]
          exact balanced
      · left
        have none : tunnelsOf world.id (tunnelsAfter (liveTunnels pool.history)
            ⟨index, pool.shared, operation, result, after⟩) = 0 :=
          tunnelsOf_eq_zero.mpr fun tunnel member same =>
            fresh (show world.id ∈ _ from same ▸ issued tunnel member)
        rw [none, created.currentPlayers]
        rfl
    · rw [tunnels]
      exact tunnelsAfter_capped occurs accounted.balanced accounted.capped


/-- While creates and patches leave live tunnels accounted for, every open world
counts exactly its live tunnels, within the cap of the newest. -/
theorem accounts_kept (state : AppState) (database : Database) (clock : Timestamp)
    (empty : ∀ world ∈ database.worldSessions.rows, world.currentPlayers = 0)
    {moves : List (Move Request)} {final : Pool network Request (Except AppError Reply)}
    (keeps : Along (Pool.move (handle state)) KeepsAccounts
      (.initial (.boot database clock)) moves)
    (reached : run (Pool.move (handle state)) (.initial (.boot database clock)) moves =
      some final) : Accounts final := by
  have start : Accounted (.initial (.boot database clock)) := {
    held := fun _ _ _ tunnelling => nomatch tunnelling
    issued := fun _ member => (List.not_mem_nil member).elim
    balanced := fun world member => .inl (empty world member)
    capped := trivial }
  exact (Pool.invariant_of_protocol (handle_courses state)
    (fun pool choice next accounted obeys keeps moved => accounted.move obeys keeps moved)
    start keeps reached).1.accounts

/-! ## A world created again -/

def hostedDatabase : Database :=
  { ticketDatabase with
    users := {
      rows := [{ id := 5, minecraftUuid := none, username := "host", accountType := none,
                 xuid := none, clientId := none, blocked := false, lastSeenAt := 0,
                 updatedAt := 0 }]
      issued := [5]
      keysUnique := by decide
      slotsUnique := by decide
      keysIssued := by decide }
    sessions := {
      rows := [{ tokenHash := "session", userId := 5, expiresAt := 60, revokedAt := none }]
      issued := ["session"]
      keysUnique := by decide
      slotsUnique := by decide
      keysIssued := by decide }
    worldSessions := invitedDatabase.worldSessions }

/-- The host parks, and the guest takes and is admitted. -/
def hostAndGuest : List (Move Request) :=
  [.start (.relay 4 ⟨some "session", "host"⟩), .advance 0, .advance 0, .advance 0,
   .advance 0, .advance 0,
   .start (.relay 4 ⟨some "ticket", "guest"⟩), .advance 1, .advance 1, .advance 1,
   .advance 1, .advance 1, .advance 1]

theorem accounts_kept_tunnel :
    ∃ final, run (Pool.move (handle plainState)) (.initial (.boot hostedDatabase 0))
      hostAndGuest = some final ∧ live 3 final.history = 1 ∧ Accounts final := by
  have tunnels : ((run (Pool.move (handle plainState)) (.initial (.boot hostedDatabase 0))
      hostAndGuest).map fun final => live 3 final.history) = some 1 := by decide
  rcases Option.map_eq_some_iff.mp tunnels with ⟨final, reached, counted⟩
  exact ⟨final, reached, counted, accounts_kept plainState hostedDatabase 0 (by decide)
    (by decide) reached⟩

/-- The host posts the world again while the guest plays. -/
def createdAgain : List (Move Request) :=
  hostAndGuest ++ [.start (.createWorld 5 ⟨none⟩ 6), .advance 2]

/-- An open world can count no players while a tunnel is alive. -/
theorem accounts_not_kept :
    ¬∀ (state : AppState) (database : Database) (clock : Timestamp),
      (∀ world ∈ database.worldSessions.rows, world.currentPlayers = 0) →
      ∀ (moves : List (Move Request))
        (final : Pool network Request (Except AppError Reply)),
        run (Pool.move (handle state)) (.initial (.boot database clock)) moves = some final →
        Accounts final := by
  intro kept
  have miscounted : ((run (Pool.move (handle plainState)) (.initial (.boot hostedDatabase 0))
      createdAgain).map fun final => decide (∀ world ∈
        final.shared.database.worldSessions.rows, world.status = .open →
          world.currentPlayers = (live world.id final.history : Int))) = some false := by
    decide
  rcases Option.map_eq_some_iff.mp miscounted with ⟨final, reached, wrong⟩
  have accounts := kept plainState hostedDatabase 0 (by decide) createdAgain final reached
  exact (of_decide_eq_false wrong) accounts.exact

end Loontail
