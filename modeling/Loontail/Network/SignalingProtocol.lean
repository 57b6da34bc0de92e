import Loontail.Concurrency.Protocol
import Loontail.Network.Requests

/-! # The course of a signaling connection

A connection is registered with the hub, then announced in presence, served, and
torn down: removed from the hub, and its user marked offline when the hub knows
no other. -/

namespace Loontail

open Concurrency Network

inductive SignalingPhase where
  | outside
  | arriving (connId : Uuid)
  | known (userId connId : Uuid)
  | added (userId connId : Uuid)
  | announced (userId connId : Uuid)
  | leaving (userId connId : Uuid)
  | left (userId connId : Uuid)
  | finished
  deriving DecidableEq, Repr

namespace SignalingPhase

def allows : SignalingPhase → Operation → Prop
  | outside, operation => operation.purpose ≠ .signaling
  | arriving _, operation =>
      ∃ tokenHash, operation = .statement (.relay (.userFromToken tokenHash))
  | known userId connId, operation => operation = .signaling (.add userId connId)
  | added userId _, operation => operation = .statement (.presence (.markOnline userId))
  | announced userId connId, operation =>
      operation.purpose = .ordinary ∨ operation = .signaling (.serve userId connId)
  | leaving userId connId, operation => operation = .signaling (.remove userId connId)
  | left userId connId, operation =>
      operation.purpose = .ordinary ∨ operation = .signaling (.isOnline userId) ∨
      operation = .statement (.presence (.markOffline userId)) ∨
      operation = .signaling (.dropReceiver connId)
  | finished, _ => False

/-- A registered connection is not left without its teardown. -/
def ending : SignalingPhase → Prop
  | known .. => False
  | added .. => False
  | announced .. => False
  | leaving .. => False
  | _ => True

def after (phase : SignalingPhase) (operation : Operation)
    (result : operation.Result) : SignalingPhase :=
  match phase, operation, result with
  | arriving connId, .statement (.relay (.userFromToken _)), .ok (some user) =>
      known user.id connId
  | known userId connId, .signaling (.add _ _), _ => added userId connId
  | added userId connId, .statement (.presence (.markOnline _)), _ => announced userId connId
  | announced userId connId, .signaling (.serve _ _), _ => leaving userId connId
  | announced userId connId, _, _ => announced userId connId
  | leaving userId connId, .signaling (.remove _ _), _ => left userId connId
  | left userId connId, _, _ => left userId connId
  | outside, _, _ => outside
  | _, _, _ => finished

theorem announced_after (userId connId : Uuid) {operation : Operation}
    (other : operation.purpose = .ordinary) (result : operation.Result) :
    (announced userId connId).after operation result = announced userId connId := by
  unfold after
  split <;> simp_all [Operation.purpose]

end SignalingPhase

@[reducible] def signalingProtocol : Protocol network Request where
  Phase := SignalingPhase
  initial := fun request => match request with
    | .signaling _ connId => .arriving connId
    | _ => .outside
  allows := SignalingPhase.allows
  after := SignalingPhase.after

/-! ## The handler follows its course -/

section Course

open Handler Signaling

abbrev Signals {Reply : Type} (handler : Handler Reply) (phase : SignalingPhase) : Prop :=
  handler.Meets signalingProtocol.logic (fun _ last => last.ending) (fun _ last => last.ending)
    phase

private theorem meets_broadcast {userId : Uuid} {phase : SignalingPhase}
    {onOk : Unit → SignalingPhase → Prop} {onError : AppError → SignalingPhase → Prop}
    (ignored : ∀ operation, operation.purpose = .ordinary →
      phase.allows operation ∧ ∀ result, phase.after operation result = phase)
    (ok : onOk () phase) :
    (logged (Network.Presence.broadcastPresence userId)).Meets signalingProtocol.logic onOk onError
      phase := by
  rw [meets_logged]
  refine Uses.meets (fun operation serving => ?_)
    (Network.Presence.broadcastPresence_serves userId .ordinary) (fun _ => ok) (fun _ => ok)
  have other := serving.ordinary
  exact Protocol.ignores (ignored operation other).1 (ignored operation other).2

theorem tearDown_signals (userId connId : Uuid) :
    Signals (tearDown userId connId) (.leaving userId connId) := by
  simp only [Signals, tearDown, Network.Presence.markOffline, meets_bind, meets_operate,
    meets_whenever, meets_logged, meets_query, meets_pure]
  have dropped : SignalingPhase.allows (.left userId connId)
      (.signaling (.dropReceiver connId)) := .inr (.inr (.inr rfl))
  refine ⟨rfl, fun _ => ⟨.inr (.inl rfl), fun online => ⟨fun _ => ?_, fun _ => ?_⟩⟩⟩
  · refine ⟨.inr (.inr (.inl rfl)), fun marked => ?_⟩
    have told := @meets_broadcast userId (.left userId connId)
      (fun _ following => signalingProtocol.logic.admits following
        (.signaling (.dropReceiver connId)) fun _ last => last.ending)
      (fun _ last => last.ending) (fun operation other => ⟨.inl other, fun _ => rfl⟩)
      ⟨dropped, fun _ => trivial⟩
    rw [meets_logged] at told
    cases marked <;> exact told
  · exact ⟨dropped, fun _ => trivial⟩

theorem handleSignaling_signals (userId connId : Uuid) :
    Signals (handleSignaling userId connId) (.known userId connId) := by
  simp only [Signals, handleSignaling, Network.Presence.markOnline, meets_bind, meets_operate]
  refine ⟨rfl, fun _ => ?_⟩
  rw [meets_logged, meets_query]
  refine ⟨rfl, fun marked => ?_⟩
  have rest : (logged (Network.Presence.broadcastPresence userId)).Meets
      signalingProtocol.logic (fun _ following => signalingProtocol.logic.admits following
        (.signaling (.serve userId connId)) fun _ later =>
          (tearDown userId connId).Meets signalingProtocol.logic (fun _ last => last.ending)
            (fun _ last => last.ending) later)
      (fun _ last => last.ending) (.announced userId connId) := by
    refine meets_broadcast (fun operation other =>
      ⟨.inl other, SignalingPhase.announced_after userId connId other⟩) ⟨.inr rfl, fun _ => ?_⟩
    exact tearDown_signals userId connId
  cases marked <;> exact rest

theorem signalingWs_signals (state : AppState) (token : Option String) (connId : Uuid) :
    Signals (signalingWs state token connId) (.arriving connId) := by
  simp only [Signals, signalingWs, userFromToken, meets_bind, meets_okOr, meets_query]
  refine ⟨fun _ => trivial, fun token _ => ⟨⟨_, rfl⟩, fun row => ?_⟩⟩
  cases row with
  | error failure => trivial
  | ok row =>
      cases row with
      | none => exact ⟨fun _ => trivial, by rintro _ ⟨⟩⟩
      | some user =>
          refine ⟨by rintro ⟨⟩, fun found same => ?_⟩
          cases same
          exact handleSignaling_signals user.id connId

theorem handle_signals (state : AppState) (request : Request) :
    (handle state request).Meets signalingProtocol.logic (fun _ phase => phase.ending)
      (signalingProtocol.initial request) := by
  by_cases signaling : request.purpose = .signaling
  · cases request with
    | signaling token connId =>
        refine meets_run.mpr ?_
        rw [Request.handler, meets_map]
        exact signalingWs_signals state token connId
    | _ => cases signaling
  · have start : signalingProtocol.initial request = .outside := by
      cases request with
      | signaling token connId => exact (signaling rfl).elim
      | _ => rfl
    rw [start]
    refine (handle_avoids state signaling (by rintro ⟨⟩) (by rintro ⟨⟩)).meets ?_ (fun _ => trivial)
    exact fun operation other => Protocol.ignores other fun _ => rfl

end Course

end Loontail
