import Loontail.Concurrency.Protocol
import Loontail.Network.Requests
import Loontail.Network.WorldRevision

/-! # The courses of requests on a world -/

/-! ## The course of a PATCH of a world

The request reads the row, merges its body into what it read, and writes every
column. What it read is carried in its phase. -/

namespace Loontail

open Concurrency Relational Network

/-- The columns that the body does not name are the same in both rows. -/
structure Network.Worlds.UpdateWorldSession.Keeps (body : Worlds.UpdateWorldSession)
    (old new : WorldSession) : Prop where
  maxPlayers : body.maxPlayers = none → new.maxPlayers = old.maxPlayers
  status : body.status = none → new.status = old.status
  invitePolicy : body.invitePolicy = none → new.invitePolicy = old.invitePolicy

inductive PatchPhase where
  | outside
  | arriving (id : Uuid) (body : Worlds.UpdateWorldSession)
  | merged (id : Uuid) (body : Worlds.UpdateWorldSession) (read : WorldSession)
  | written
  deriving DecidableEq, Repr

namespace PatchPhase

def allows : PatchPhase → Operation → Prop
  | outside, operation => operation.purpose ≠ .updateWorld
  | arriving id _, operation => operation = .statement (.world (.select id))
  | merged id body read, operation =>
      operation.purpose = .transaction ∨
      ∃ maxPlayers status invitePolicy,
        body.Keeps read { read with maxPlayers, status, invitePolicy } ∧
        (operation = .statement (.world (.update id maxPlayers status invitePolicy)) ∨
          status = .closed ∧ ∃ closing hostId, operation = .statement
            (.world (.commitUpdate closing id maxPlayers invitePolicy hostId)))
  | written, operation => operation.purpose ≠ .updateWorld

def after (phase : PatchPhase) (operation : Operation) (result : operation.Result) :
    PatchPhase :=
  match phase, operation, result with
  | outside, _, _ => outside
  | arriving id body, .statement (.world (.select _)), .ok (some read) => merged id body read
  | merged id body read, operation, _ =>
      if operation.purpose = .transaction then merged id body read else written
  | _, _, _ => written

end PatchPhase

@[reducible] def patchProtocol : Protocol network Request where
  Phase := PatchPhase
  initial := fun request => match request with
    | .updateWorld _ id body => .arriving id body
    | _ => .outside
  allows := PatchPhase.allows
  after := PatchPhase.after

theorem merged_ignores {id : Uuid} {body : Worlds.UpdateWorldSession} {read : WorldSession}
    {operation : Operation} (transacts : operation.purpose = .transaction) :
    patchProtocol.logic.Ignores (.merged id body read) operation :=
  Protocol.ignores (.inl transacts) fun _ => if_pos transacts

open Handler Worlds in
theorem update_patches (state : AppState) (auth id : Uuid) (body : UpdateWorldSession) :
    (update state auth id body).Meets patchProtocol.logic (fun _ _ => True)
      (fun _ _ => True) (.arriving id body) := by
  simp only [update, meets_bind, meets_query, meets_okOr, meets_refuse, meets_pure]
  refine ⟨rfl, fun row => ?_⟩
  cases row with
  | error failure => trivial
  | ok row =>
      refine ⟨fun _ => trivial, fun read present => ⟨fun _ => trivial, fun _ => ?_⟩⟩
      subst present
      refine mergedMaxPlayers_meets (fun maxPlayers keepsCap => ?_) (fun _ => trivial)
      refine parseOr_meets (fun status keepsStatus => ?_) (fun _ => trivial)
      refine parseOr_meets (fun invitePolicy keepsPolicy => ?_) (fun _ => trivial)
      have keeps : body.Keeps read { read with maxPlayers, status, invitePolicy } :=
        ⟨keepsCap, keepsStatus, keepsPolicy⟩
      have told : (whenever (invitePolicy ≠ read.invitePolicy)
          (announcePolicy id read.hostUserId invitePolicy)).Meets patchProtocol.logic
            (fun _ _ => True) (fun _ _ => True) .written := by
        rw [meets_whenever]
        refine ⟨fun _ => ?_, fun _ => trivial⟩
        refine Uses.meets (fun operation serving => ?_)
          (announcePolicy_serves id read.hostUserId invitePolicy .ordinary)
          (fun _ => trivial) (fun _ => trivial)
        refine Protocol.ignores ?_ fun _ => rfl
        exact fun updates => by cases serving.ordinary.symm.trans updates
      rw [meets_ite]
      constructor
      · rintro ⟨closes, -⟩
        subst closes
        apply updateClosing_meets (fun _ => merged_ignores) (fun _ => trivial)
        intro closing
        refine ⟨.inr ⟨_, _, _, keeps, .inr ⟨rfl, closing, _, rfl⟩⟩, fun written => ?_⟩
        cases written with
        | error failure => exact ⟨by rintro ⟨⟩, fun _ => trivial⟩
        | ok updated => exact told
      · intro _
        rw [meets_query]
        refine ⟨.inr ⟨_, _, _, keeps, .inl rfl⟩, fun written => ?_⟩
        cases written with
        | error failure => trivial
        | ok updated => exact told

theorem handle_patches (state : AppState) (request : Request) :
    (handle state request).Meets patchProtocol.logic (fun _ _ => True)
      (patchProtocol.initial request) := by
  by_cases patch : request.purpose = .updateWorld
  · cases request with
    | updateWorld auth id body =>
        refine Handler.meets_run.mpr ?_
        rw [Request.handler, Handler.meets_map]
        exact update_patches state auth id body
    | _ => cases patch
  · have start : patchProtocol.initial request = .outside := by
      cases request with
      | updateWorld auth id body => exact (patch rfl).elim
      | _ => rfl
    rw [start]
    refine (handle_avoids state patch (by decide) (by decide)).meets ?_ (fun _ => trivial)
    exact fun operation other => Protocol.ignores other fun _ => rfl

/-! ## The host named when a world is closed

A request that updates or closes a world has read who hosts it. A world keeps
its host, so the name is still right when it is written. -/

inductive HostPhase where
  | asking
  | knowing (id hostId : Uuid)
  deriving DecidableEq, Repr

namespace HostPhase

def allows (phase : HostPhase) : Operation → Prop
  | .statement (.world (.commitUpdate _ id _ _ hostId)) => phase = knowing id hostId
  | .statement (.world (.commitClose _ id hostId _)) => phase = knowing id hostId
  | _ => True

def after (phase : HostPhase) (operation : Operation) (result : operation.Result) : HostPhase :=
  match operation, result with
  | .statement (.world (.select id)), .ok (some world) => knowing id world.hostUserId
  | .statement (.world (.selectHost id)), .ok (some hostId) => knowing id hostId
  | _, _ => phase

theorem allows_other {operation : Operation} (updates : operation.purpose ≠ .updateWorld)
    (closes : operation.purpose ≠ .closeWorld) (phase : HostPhase) :
    phase.allows operation := by
  unfold allows
  split
  · exact (updates rfl).elim
  · exact (closes rfl).elim
  · trivial

end HostPhase

@[reducible] def hostProtocol : Protocol network Request where
  Phase := HostPhase
  initial := fun _ => .asking
  allows := HostPhase.allows
  after := HostPhase.after

section Course

open Handler Worlds

abbrev Names {Reply : Type} (handler : Handler Reply) (phase : HostPhase) : Prop :=
  handler.Meets hostProtocol.logic (fun _ _ => True) (fun _ _ => True) phase

theorem hostProtocol_ignores {phase : HostPhase} (operation : Operation)
    (transacts : operation.purpose = .transaction) :
    hostProtocol.logic.Ignores phase operation := by
  apply Protocol.ignores
  · apply HostPhase.allows_other <;> rw [transacts] <;> rintro ⟨⟩
  · intro result
    change phase.after operation result = phase
    unfold HostPhase.after
    split
    · cases transacts
    · cases transacts
    · rfl

theorem close_names (auth id : Uuid) : Names (close auth id) .asking := by
  simp only [Names, close, meets_bind, meets_query, meets_okOr, meets_refuse]
  refine ⟨trivial, fun read => ?_⟩
  cases read with
  | error failure => trivial
  | ok row =>
      refine ⟨fun _ => trivial, fun hostId found => ⟨fun _ => trivial, fun own => ?_⟩⟩
      subst found
      have same : hostId = auth := by simpa using own
      subst same
      apply shutWorld_meets hostProtocol_ignores (fun _ => trivial)
      intro closing shut
      refine ⟨rfl, fun closed => ?_⟩
      cases closed with
      | error failure => exact ⟨trivial, fun _ => trivial⟩
      | ok world => trivial

theorem update_names (state : AppState) (auth id : Uuid) (body : UpdateWorldSession) :
    Names (update state auth id body) .asking := by
  simp only [Names, update, meets_bind, meets_query, meets_okOr, meets_refuse, meets_pure]
  refine ⟨trivial, fun row => ?_⟩
  cases row with
  | error failure => trivial
  | ok row =>
      refine ⟨fun _ => trivial, fun read present => ⟨fun _ => trivial, fun _ => ?_⟩⟩
      subst present
      refine mergedMaxPlayers_meets (fun maxPlayers _ => ?_) (fun _ => trivial)
      refine parseOr_meets (fun status _ => ?_) (fun _ => trivial)
      refine parseOr_meets (fun invitePolicy _ => ?_) (fun _ => trivial)
      have told : ∀ phase, (whenever (invitePolicy ≠ read.invitePolicy)
          (announcePolicy id read.hostUserId invitePolicy)).Meets hostProtocol.logic
            (fun _ _ => True) (fun _ _ => True) phase := by
        intro phase
        refine (meets_whenever _ _).mpr ⟨fun _ => ?_, fun _ => trivial⟩
        have tells := announcePolicy_serves id read.hostUserId invitePolicy .ordinary
        refine meets_run.mp (Protocol.meets_of_uses (fun phase operation serving => ?_) tells _)
        refine HostPhase.allows_other ?_ ?_ phase <;> rw [serving.ordinary] <;> rintro ⟨⟩
      rw [meets_ite]
      constructor
      · intro _
        apply updateClosing_meets hostProtocol_ignores (fun _ => trivial)
        intro closing
        refine ⟨rfl, fun written => ?_⟩
        cases written with
        | error failure => exact ⟨trivial, fun _ => trivial⟩
        | ok updated => exact told _
      · intro _
        rw [meets_query]
        refine ⟨trivial, fun written => ?_⟩
        cases written with
        | error failure => trivial
        | ok updated => exact told _

theorem handle_names (state : AppState) (request : Request) :
    (handle state request).Meets hostProtocol.logic (fun _ _ => True)
      (hostProtocol.initial request) := by
  by_cases updates : request.purpose = .updateWorld
  · cases request with
    | updateWorld auth id body =>
        refine meets_run.mpr ?_
        rw [Request.handler, meets_map]
        exact update_names state auth id body
    | _ => cases updates
  · by_cases closes : request.purpose = .closeWorld
    · cases request with
      | closeWorld auth id =>
          refine meets_run.mpr ?_
          rw [Request.handler, meets_map]
          exact close_names auth id
      | _ => cases closes
    · have uses : (handle state request).Uses fun operation : Operation =>
          operation.purpose ≠ .updateWorld ∧ operation.purpose ≠ .closeWorld := by
        refine (handle_serves state request).mono fun operation serving => ?_
        rcases serving with ordinary | own | ⟨transaction, -⟩
        · simp [ordinary]
        · exact own ▸ ⟨updates, closes⟩
        · simp [transaction]
      exact Protocol.meets_of_uses (fun phase operation other =>
        HostPhase.allows_other other.1 other.2 phase) uses _

end Course

/-! ## The name stays right -/

abbrev naming (process : Nat) (history : List (Event network)) : HostPhase :=
  hostProtocol.phase (.tick 0) process history

theorem HostPhase.knowing_after {phase : HostPhase} {operation : Operation}
    {result : operation.Result} {id hostId : Uuid}
    (knows : phase.after operation result = knowing id hostId) :
    phase = knowing id hostId ∨
      (∃ world : WorldSession, world.hostUserId = hostId ∧
        operation = .statement (.world (.select id)) ∧
        HEq result (.ok (some world) : Except DatabaseError (Option WorldSession))) ∨
      operation = .statement (.world (.selectHost id)) ∧
        HEq result (.ok (some hostId) : Except DatabaseError (Option Uuid)) := by
  unfold after at knows
  split at knows
  · rename_i read world
    cases knows
    exact .inr (.inl ⟨world, rfl, rfl, HEq.rfl⟩)
  · rename_i read host
    cases knows
    exact .inr (.inr ⟨rfl, HEq.rfl⟩)
  · exact .inl knows

/-- In every state reached, a host that was read is the host. -/
theorem host_of_trace {start final : Service} {history : List (Event network)}
    (traced : @Traced network start history final) (process : Nat) (id hostId : Uuid)
    (knows : naming process history = .knowing id hostId) :
    ∃ world, final.database.worldSessions.find id = some world ∧ world.hostUserId = hostId := by
  refine @Traced.invariant network _ _ _ (fun history service => ∀ process id hostId,
    naming process history = .knowing id hostId → ∃ world,
      service.database.worldSessions.find id = some world ∧ world.hostUserId = hostId)
    traced (by nofun) ?_ process id hostId knows
  intro event older suffix happened earlier process id hostId knows
  have kept : ∀ world, event.before.database.worldSessions.find id = some world →
      world.hostUserId = hostId → ∃ later,
        event.after.database.worldSessions.find id = some later ∧
        later.hostUserId = hostId := by
    rintro world found rfl
    exact ⟨_, occurs_world_found happened found, Operation.reviseWorld_hostUserId _ _ _ _⟩
  by_cases own : event.process = process
  · subst own
    rw [naming, Protocol.phase_cons_own] at knows
    rcases HostPhase.knowing_after knows with was | ⟨world, rfl, reads, result⟩ | ⟨reads, result⟩
    · obtain ⟨world, found, host⟩ := earlier event.process id hostId was
      exact kept world found host
    · refine kept world ?_ rfl
      rcases event with ⟨process, before, operation, outcome, after⟩
      cases reads
      cases result
      obtain ⟨_, executed, -⟩ := occurs_ok happened
      exact congrArg Prod.fst (Except.ok.inj executed)
    · rcases event with ⟨process, before, operation, outcome, after⟩
      cases reads
      cases result
      obtain ⟨_, executed, -⟩ := occurs_ok happened
      have read := congrArg Prod.fst (Except.ok.inj executed)
      obtain ⟨world, found, host⟩ := Option.map_eq_some_iff.mp read
      exact kept world found host
  · rw [naming, Protocol.phase_cons_other _ event own] at knows
    obtain ⟨world, found, host⟩ := earlier process id hostId knows
    exact kept world found host

end Loontail
