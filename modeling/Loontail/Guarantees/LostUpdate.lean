import Loontail.Concurrency.Trace
import Loontail.Guarantees.PlayerAccounting
import Loontail.Network.WorldProtocol
import Loontail.Network.WorldRevision

/-! # What a PATCH writes back

A PATCH writes every column, those its body does not name with the values it
read before. Another request may have written them in between. -/

namespace Loontail

open Concurrency Relational Network

def patchedWorld (event : Event network) : Option Uuid :=
  match event.operation, event.result with
  | .statement (.world (.update id ..)), .ok _ => some id
  | .statement (.world (.commitUpdate _ id ..)), .ok _ => some id
  | _, _ => none

def lastRead (process : Nat) (id : Uuid) (history : List (Event network)) :
    Option WorldSession :=
  (history.find? fun event =>
    event.process = process && event.operation = .statement (.world (.select id))).bind
      fun event => event.before.database.worldSessions.find id

theorem lastRead_other {process : Nat} {id : Uuid} {event : Event network}
    {history : List (Event network)} (different : event.process ≠ process) :
    lastRead process id (event :: history) = lastRead process id history := by
  simp [lastRead, different]

theorem lastRead_own {id : Uuid} {event : Event network} {history : List (Event network)}
    (reads : event.operation = .statement (.world (.select id))) :
    lastRead event.process id (event :: history) =
      event.before.database.worldSessions.find id := by
  simp [lastRead, reads]

theorem lastRead_transacted {process : Nat} {id : Uuid} {event : Event network}
    {history : List (Event network)} (transacts : event.operation.purpose = .transaction) :
    lastRead process id (event :: history) = lastRead process id history := by
  have other : event.operation ≠ .statement (.world (.select id)) := by
    intro reads
    rw [reads] at transacts
    cases transacts
  simp [lastRead, other]

/-- When the columns that a PATCH writes without naming them are those it read, it
keeps them exactly if they have not changed since. -/
theorem Network.Worlds.UpdateWorldSession.Keeps.iff {body : Worlds.UpdateWorldSession}
    {read row later : WorldSession} (kept : body.Keeps read later) :
    body.Keeps row later ↔ body.Keeps read row := by
  constructor
  · intro keeps
    exact ⟨fun none => (keeps.maxPlayers none).symm.trans (kept.maxPlayers none),
      fun none => (keeps.status none).symm.trans (kept.status none),
      fun none => (keeps.invitePolicy none).symm.trans (kept.invitePolicy none)⟩
  · intro keeps
    exact ⟨fun none => (kept.maxPlayers none).trans (keeps.maxPlayers none).symm,
      fun none => (kept.status none).trans (keeps.status none).symm,
      fun none => (kept.invitePolicy none).trans (keeps.invitePolicy none).symm⟩

namespace PatchPhase

def Serves (request : Request) : PatchPhase → Prop
  | arriving id body => ∃ auth, request = .updateWorld auth id body
  | merged id body _ => ∃ auth, request = .updateWorld auth id body
  | _ => True

theorem Serves.after {request : Request} {phase : PatchPhase} {operation : Operation}
    {result : operation.Result} (serves : phase.Serves request) :
    (phase.after operation result).Serves request := by
  unfold PatchPhase.after
  split
  · trivial
  · exact serves
  · split
    · exact serves
    · trivial
  · trivial

theorem serves_phase (request : Request) (index : Nat) (history : List (Event network)) :
    (patchProtocol.phase request index history : PatchPhase).Serves request := by
  refine @Protocol.phase_induction _ _ patchProtocol (Serves request) request ?_ ?_ index history
  · cases request with
    | updateWorld auth id body => exact ⟨auth, rfl⟩
    | _ => trivial
  · exact fun _ _ _ serves => serves.after

theorem merged_after {phase : PatchPhase} {operation : Operation}
    {result : operation.Result} {id : Uuid} {body : Worlds.UpdateWorldSession}
    {read : WorldSession} (merging : phase.after operation result = merged id body read) :
    (phase = arriving id body ∧
      ∃ selected, operation = .statement (.world (.select selected)) ∧
        HEq result (.ok (some read) : Except DatabaseError (Option WorldSession))) ∨
    phase = merged id body read ∧ operation.purpose = .transaction := by
  unfold PatchPhase.after at merging
  split at merging
  · cases merging
  · cases merging
    exact .inl ⟨rfl, _, rfl, HEq.rfl⟩
  · split at merging
    · rename_i transacts
      exact .inr ⟨merging, transacts⟩
    · cases merging
  · cases merging

/-- A PATCH writes when it has merged, and keeps what it read of the columns that
its body does not name. -/
theorem writes {phase : PatchPhase} {auth named id : Uuid}
    {body : Worlds.UpdateWorldSession} {statement : Statement}
    (serves : phase.Serves (.updateWorld auth named body))
    (allowed : phase.allows (.statement statement)) (now : Timestamp)
    (patches : (∃ maxPlayers status invitePolicy,
        statement = .world (.update id maxPlayers status invitePolicy)) ∨
      ∃ closing maxPlayers invitePolicy hostId,
        statement = .world (.commitUpdate closing id maxPlayers invitePolicy hostId)) :
    ∃ read, phase = merged id body read ∧ ∀ row : WorldSession, row.id = id →
      body.Keeps read (statement.reviseWorld now row) := by
  have updates : (Operation.statement statement).purpose = .updateWorld := by
    rcases patches with ⟨_, _, _, rfl⟩ | ⟨_, _, _, _, rfl⟩ <;> rfl
  cases phase with
  | outside => exact (allowed updates).elim
  | written => exact (allowed updates).elim
  | arriving other kept =>
      cases allowed
      cases updates
  | merged other kept read =>
      rcases serves with ⟨_, same⟩
      cases same
      rcases allowed with transacts | ⟨maxPlayers, status, invitePolicy, keeps, same |
        ⟨rfl, closing, hostId, same⟩⟩
      · cases transacts.symm.trans updates
      · cases same
        rcases patches with ⟨_, _, _, same⟩ | ⟨_, _, _, _, same⟩
        · cases same
          refine ⟨read, rfl, fun row here => ?_⟩
          rw [Statement.reviseWorld, if_pos here]
          exact ⟨keeps.maxPlayers, keeps.status, keeps.invitePolicy⟩
        · cases same
      · cases same
        rcases patches with ⟨_, _, _, same⟩ | ⟨_, _, _, _, same⟩
        · cases same
        · cases same
          refine ⟨read, rfl, fun row here => ?_⟩
          rw [Statement.reviseWorld, if_pos here]
          exact ⟨keeps.maxPlayers, keeps.status, keeps.invitePolicy⟩

end PatchPhase

theorem lastRead_of_merged {start final : Service} {history : List (Event network)}
    (request : Request) {index : Nat} (traced : @Traced network start history final)
    (allowed : ∀ event older, event :: older <:+ history → event.process = index →
      (patchProtocol.phase request index older : PatchPhase).allows event.operation) :
    ∀ id body read, patchProtocol.phase request index history = .merged id body read →
      lastRead index id history = some read := by
  refine @Traced.invariant network _ _ _ (fun history _ => ∀ id body read,
    patchProtocol.phase request index history = .merged id body read →
      lastRead index id history = some read) traced ?_ ?_
  · intro id body read merging
    cases request <;> cases merging
  · intro event older suffix happened holds id body read merging
    by_cases own : event.process = index
    · have permitted := allowed event older suffix own
      subst own
      rw [Protocol.phase_cons_own] at merging
      rcases PatchPhase.merged_after merging with
        ⟨arriving, selected, reads, result⟩ | ⟨merged, transacts⟩
      · rw [arriving] at permitted
        rw [lastRead_own permitted]
        rcases event with ⟨process, before, operation, outcome, after⟩
        cases permitted
        cases result
        rcases occurs_ok happened with ⟨database, executed, -⟩
        exact congrArg Prod.fst (Except.ok.inj executed)
      · rw [lastRead_transacted transacts]
        exact holds id body read merged
    · rw [Protocol.phase_cons_other request event own] at merging
      rw [lastRead_other own]
      exact holds id body read merging

/-- Whatever the interleaving, a PATCH that writes keeps the columns its body does
not name exactly when they are still as it read them. -/
theorem patch_keeps_iff (state : AppState) (database : Database) (clock : Timestamp)
    {moves : List (Move Request)} {final : Pool network Request (Except AppError Reply)}
    (reached : run (Pool.move (handle state)) (.initial (.boot database clock)) moves =
      some final)
    {event : Event network} {older : List (Event network)}
    (suffix : event :: older <:+ final.history) {auth named id : Uuid}
    {body : Worlds.UpdateWorldSession}
    (owned : final.owner event.process = some (.updateWorld auth named body))
    (patched : patchedWorld event = some id) :
    ∃ read row later, lastRead event.process id older = some read ∧
      event.before.database.worldSessions.find id = some row ∧
      event.after.database.worldSessions.find id = some later ∧
      (body.Keeps row later ↔ body.Keeps read row) := by
  have allowed : ∀ past before, past :: before <:+ final.history → ∀ request,
      final.owner past.process = some request →
      (patchProtocol.phase request past.process before : PatchPhase).allows past.operation := by
    intro past before within request owned
    rcases Pool.allowed_in_phase (handle_patches state) reached within with
      ⟨other, same, allowed⟩
    cases owned.symm.trans same
    exact allowed
  rcases (Pool.traced_of_run reached).of_suffix suffix with ⟨traced, happened⟩
  have permitted := allowed event older suffix _ owned
  have serves := PatchPhase.serves_phase (.updateWorld auth named body) event.process older
  have ownAllowed : ∀ past before, past :: before <:+ older → past.process = event.process →
      (patchProtocol.phase (.updateWorld auth named body) event.process before :
        PatchPhase).allows past.operation := by
    intro past before within own
    rw [← own] at owned ⊢
    exact allowed past before (within.trans ((List.suffix_cons _ _).trans suffix)) _ owned
  have carries := lastRead_of_merged (.updateWorld auth named body) traced ownAllowed
  rcases event with ⟨process, before, operation, result, after⟩
  have occurs : network.Occurs before operation result after := happened
  simp only [patchedWorld] at patched
  split at patched
  · cases patched
    obtain ⟨read, merging, kept⟩ := PatchPhase.writes serves permitted before.clock
      (.inl ⟨_, _, _, rfl⟩)
    obtain ⟨database, executed, -⟩ := occurs_ok occurs
    obtain ⟨row, found⟩ := Sql.updateWorld_found executed
    exact ⟨read, row, _, carries _ _ _ merging, found, occurs_world_found occurs found,
      (kept row (Table.find_eq_some.mp found).2).iff⟩
  · cases patched
    obtain ⟨read, merging, kept⟩ := PatchPhase.writes serves permitted before.clock
      (.inr ⟨_, _, _, _, rfl⟩)
    obtain ⟨database, executed, -⟩ := occurs_ok occurs
    obtain ⟨row, found⟩ := Sql.commitUpdate_found executed
    exact ⟨read, row, _, carries _ _ _ merging, found, occurs_world_found occurs found,
      (kept row (Table.find_eq_some.mp found).2).iff⟩
  · cases patched

/-- A PATCH of the capacity that writes while the world is about to be closed. -/
def writtenBeforeClose : List (Move Request) :=
  [.start (.updateWorld 5 3 ⟨some 2, none, none⟩), .start (.closeWorld 5 3), .advance 0,
   .advance 1, .advance 1, .advance 0, .advance 1, .advance 1, .advance 1, .advance 1]

theorem patch_keeps_iff_beside :
    ∃ final, run (Pool.move (handle plainState)) (.initial (.boot hostedDatabase 0))
        writtenBeforeClose = some final ∧
      (final.shared.database.worldSessions.find 3).map
        (fun world => (world.status, world.maxPlayers)) = some (.closed, 2) ∧
      ∃ event older, event :: older <:+ final.history ∧ patchedWorld event = some 3 ∧
        ∃ read row later, lastRead event.process 3 older = some read ∧
          event.before.database.worldSessions.find 3 = some row ∧
          event.after.database.worldSessions.find 3 = some later ∧
          (Worlds.UpdateWorldSession.Keeps ⟨some 2, none, none⟩ row later ↔
            Worlds.UpdateWorldSession.Keeps ⟨some 2, none, none⟩ read row) := by
  have patches : ((run (Pool.move (handle plainState)) (.initial (.boot hostedDatabase 0))
      writtenBeforeClose).map fun final => decide (
        (final.shared.database.worldSessions.find 3).map
          (fun world => (world.status, world.maxPlayers)) = some (.closed, 2) ∧
        ∃ event ∈ final.history, patchedWorld event = some 3 ∧
          final.owner event.process = some (.updateWorld 5 3 ⟨some 2, none, none⟩))) =
      some true := by decide +kernel
  rcases Option.map_eq_some_iff.mp patches with ⟨final, reached, some⟩
  rcases of_decide_eq_true some with ⟨closed, event, member, patched, owned⟩
  rcases suffix_of_mem member with ⟨older, suffix⟩
  exact ⟨final, reached, closed, event, older, suffix, patched,
    patch_keeps_iff plainState hostedDatabase 0 reached suffix owned patched⟩

/-- A PATCH of the capacity that has read the world before it is closed. -/
def closedBeforeWrite : List (Move Request) :=
  [.start (.updateWorld 5 3 ⟨some 2, none, none⟩), .advance 0,
   .start (.closeWorld 5 3), .advance 1, .advance 1, .advance 1, .advance 1, .advance 1,
   .advance 1, .advance 0]

/-- It opens the world again. -/
theorem patch_undoes_close :
    ¬∀ (state : AppState) (database : Database) (clock : Timestamp)
      (moves : List (Move Request)) (final : Pool network Request (Except AppError Reply)),
      run (Pool.move (handle state)) (.initial (.boot database clock)) moves = some final →
      ∀ event ∈ final.history, ∀ auth id body,
        final.owner event.process = some (.updateWorld auth id body) →
        patchedWorld event = some id →
        ∀ row later, event.before.database.worldSessions.find id = some row →
          event.after.database.worldSessions.find id = some later → body.Keeps row later := by
  intro keeps
  have reopened : ((run (Pool.move (handle plainState)) (.initial (.boot hostedDatabase 0))
      closedBeforeWrite).map fun final => decide (∃ event ∈ final.history,
        patchedWorld event = some 3 ∧
        final.owner event.process = some (.updateWorld 5 3 ⟨some 2, none, none⟩) ∧
        (event.before.database.worldSessions.find 3).map (·.status) = some .closed ∧
        (event.after.database.worldSessions.find 3).map (·.status) = some .open)) =
      some true := by decide
  rcases Option.map_eq_some_iff.mp reopened with ⟨final, reached, some⟩
  rcases of_decide_eq_true some with ⟨event, member, patched, owned, closed, isOpen⟩
  rcases Option.map_eq_some_iff.mp closed with ⟨row, found, closed⟩
  rcases Option.map_eq_some_iff.mp isOpen with ⟨later, left, isOpen⟩
  have kept := keeps plainState hostedDatabase 0 closedBeforeWrite final reached event member
    5 3 ⟨_, none, none⟩ owned patched row later found left
  have status := kept.status rfl
  rw [closed, isOpen] at status
  cases status

end Loontail
