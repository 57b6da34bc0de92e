import Loontail.Concurrency.Protocol
import Loontail.Network.Requests

/-! # The course of a transaction

The requests that accept something or close a world begin a transaction, lock rows,
and commit or roll back; every statement names the transaction of its own process.
The row that a friend request's acceptance locks is carried in its phase. -/

namespace Loontail

open Concurrency Network

def Operation.transaction : Operation → Option Nat
  | .statement query => query.transaction.map (·.id)
  | .rollback transaction => some transaction.id
  | _ => none

inductive TransactionPhase where
  | outside
  | begun (transaction : Transaction)
  | locked (transaction : Transaction) (id : Uuid) (request : FriendRequest)
  deriving DecidableEq, Repr

namespace TransactionPhase

def current : TransactionPhase → Option Nat
  | outside => none
  | begun transaction => some transaction.id
  | locked transaction _ _ => some transaction.id

def Within (transaction : Transaction) (operation : Operation) : Prop :=
  (operation.transaction = none ∨ operation.transaction = some transaction.id) ∧
    operation ≠ .begin ∧ operation.purpose ≠ .friendRequest ∧
    ∀ other, operation ≠ .rollback other

def allows : TransactionPhase → Operation → Prop
  | outside, operation => operation.transaction = none
  | begun transaction, operation =>
      Within transaction operation ∨ operation = .rollback transaction ∨
        ∃ id, operation = .statement (.friend (.lockRequest transaction id))
  | locked transaction id request, operation =>
      operation = .rollback transaction ∨ request.status = .pending ∧ ∃ newId,
        operation = .statement (.friend (.commitAccept transaction id
          request.fromUserId request.toUserId newId))

def after (phase : TransactionPhase) (operation : Operation) (result : operation.Result) :
    TransactionPhase :=
  match phase, operation, result with
  | outside, .begin, .ok transaction => begun transaction
  | begun transaction, .statement (.friend (.lockRequest _ id)), .ok (some request) =>
      locked transaction id request
  | begun _, .rollback _, _ => outside
  | locked .., .rollback _, _ => outside
  | locked .., .statement (.friend (.commitAccept ..)), .ok _ => outside
  | phase, _, _ => phase

theorem outside_after {operation : Operation} (stays : operation ≠ .begin)
    (result : operation.Result) : outside.after operation result = outside := by
  unfold after
  split <;> simp_all

theorem begun_after {transaction : Transaction} {operation : Operation}
    (within : Within transaction operation) (result : operation.Result) :
    (begun transaction).after operation result = begun transaction := by
  rcases within with ⟨-, -, other, stays⟩
  unfold after
  split <;> simp_all [Operation.purpose]

end TransactionPhase

@[reducible] def transactionProtocol : Protocol network Request where
  Phase := TransactionPhase
  initial := fun _ => .outside
  allows := TransactionPhase.allows
  after := TransactionPhase.after

theorem Operation.untransacted {operation : Operation}
    (unlocked : operation.purpose.locks = false) (other : operation.purpose ≠ .transaction) :
    operation.transaction = none ∧ operation ≠ .begin := by
  refine ⟨?_, ?_⟩
  · cases operation with
    | statement statement =>
        rcases statement with own | own | own | own | own | own | own <;>
          cases own <;> simp_all [Operation.purpose, Purpose.locks, Operation.transaction,
            Statement.transaction]
    | rollback transaction => exact (other rfl).elim
    | _ => rfl
  · rintro rfl
    exact other rfl

/-! ## The handlers follow their course -/

section Course

open Handler

abbrev Transacts {Reply : Type} (handler : Handler Reply) (phase : TransactionPhase) : Prop :=
  handler.Meets transactionProtocol.logic (fun _ _ => True) (fun _ _ => True) phase

theorem outside_ignores {operation : Operation} (none : operation.transaction = none)
    (stays : operation ≠ .begin) :
    transactionProtocol.logic.Ignores .outside operation :=
  Protocol.ignores none fun _ => TransactionPhase.outside_after stays _

theorem begun_ignores {transaction : Transaction} {operation : Operation}
    (within : TransactionPhase.Within transaction operation) :
    transactionProtocol.logic.Ignores (.begun transaction) operation :=
  Protocol.ignores (.inl within) fun _ => TransactionPhase.begun_after within _

theorem Operation.transaction_of_ordinary {operation : Operation}
    (ordinary : operation.purpose = .ordinary) :
    operation.transaction = none ∧ operation ≠ .begin := by
  apply Operation.untransacted
  · rw [ordinary]
    rfl
  · rw [ordinary]
    exact nofun

theorem ordinary_within {operation : Operation} (ordinary : operation.purpose = .ordinary)
    (transaction : Transaction) : TransactionPhase.Within transaction operation := by
  have plain := Operation.transaction_of_ordinary ordinary
  refine ⟨.inl plain.1, plain.2, ?_, ?_⟩
  · rw [ordinary]
    exact nofun
  · rintro other rfl
    cases ordinary

theorem ordinary_transacts {Reply : Type} {handler : Handler Reply}
    (serves : handler.Serves .ordinary) {phase : TransactionPhase}
    (unlocked : ∀ transaction id request, phase ≠ .locked transaction id request) :
    Transacts handler phase := by
  refine Uses.meets (fun operation serving => ?_) serves (fun _ => trivial) (fun _ => trivial)
  have plain := Operation.transaction_of_ordinary serving.ordinary
  cases phase with
  | outside => exact outside_ignores plain.1 plain.2
  | begun transaction => exact begun_ignores (ordinary_within serving.ordinary transaction)
  | locked transaction id request => exact (unlocked transaction id request rfl).elim

theorem transactionally_begins {Reply : Type} {body : Transaction → Handler Reply}
    (uses : ∀ transaction, (body transaction).Uses (TransactionPhase.Within transaction)) :
    (transactionally body).Meets transactionProtocol.logic
      (fun _ last => ∃ transaction, last = .begun transaction) (fun _ _ => True) .outside := by
  rw [meets_transactionally, meets_begin]
  refine ⟨rfl, fun begun => ?_⟩
  cases begun with
  | error failure => trivial
  | ok transaction =>
      refine Uses.meets (fun operation within => begun_ignores within) (uses transaction)
        (fun _ => ⟨transaction, rfl⟩) (fun _ => ?_)
      exact ⟨.inr (.inl rfl), fun _ => trivial⟩

theorem Handler.Serves.within {Reply : Type} {handler : Handler Reply}
    (serves : handler.Serves .ordinary) (transaction : Transaction) :
    handler.Uses (TransactionPhase.Within transaction) :=
  Process.Uses.mono serves fun _ serving => ordinary_within serving.ordinary transaction

theorem acceptJoinRequest_transacts (state : AppState) (auth id : Uuid) (draw : TicketDraw) :
    Transacts (Join.accept state auth id draw) .outside := by
  have link (transaction : Transaction) (world : WorldSession) (requester hostId : Uuid) :=
    (Join.requireLink_serves state world requester hostId .ordinary).within transaction
  rw [Transacts, Join.accept, meets_bind]
  refine (transactionally_begins fun transaction => uses_iff.mpr ?_).mono ?_
    (fun _ _ _ => trivial)
  · simp [Join.loadJoinRequestForUpdate, Worlds.loadOpenWorldSession, forall_except,
      TransactionPhase.Within, Operation.transaction, Statement.transaction,
      Operation.purpose, (link _ _ _ _).footprint]
  · rintro ⟨row, ticket⟩ _ ⟨transaction, rfl⟩
    refine ordinary_transacts ?_ (by rintro _ _ _ ⟨⟩)
    simp [Serves, uses_iff, Join.fetchUserDto, Join.loadJoinRequest, forall_except, Serving,
      Operation.purpose]

theorem acceptInvite_transacts (state : AppState) (auth id : Uuid) (draw : TicketDraw) :
    Transacts (Invites.accept state auth id draw) .outside := by
  have chain (transaction : Transaction) (world : WorldSession) (invite : WorldInvite) :=
    (Invites.requireChain_serves world invite .ordinary).within transaction
  rw [Transacts, Invites.accept, meets_bind]
  refine (transactionally_begins fun transaction => uses_iff.mpr ?_).mono ?_
    (fun _ _ _ => trivial)
  · simp [Invites.loadInviteForUpdate, Worlds.loadOpenWorldSession, forall_except,
      TransactionPhase.Within, Operation.transaction, Statement.transaction,
      Operation.purpose, (chain _ _ _).footprint]
  · rintro ⟨row, ticket⟩ _ ⟨transaction, rfl⟩
    refine ordinary_transacts ?_ (by rintro _ _ _ ⟨⟩)
    simp [Serves, uses_iff, Join.fetchUserDto, forall_except, Serving, Operation.purpose]

theorem acceptInternal_transacts (me requestId newId : Uuid) :
    Transacts (Friends.acceptInternal me requestId newId) .outside := by
  have told (userId : Uuid) := Presence.broadcastPresence_serves userId .ordinary
  rw [Transacts, Friends.acceptInternal, meets_bind]
  refine @Handler.Meets.mono _ transactionProtocol.logic _ _ _
    (fun _ last => last = TransactionPhase.outside) (fun _ _ => True) _ ?_ ?_
    (fun _ _ _ => trivial)
  · simp only [meets_bind, meets_transactionally, meets_begin, meets_query, meets_okOr,
      meets_refuse, meets_pure]
    refine ⟨rfl, fun begun => ?_⟩
    cases begun with
    | error failure => trivial
    | ok transaction =>
        refine ⟨.inr (.inr ⟨requestId, rfl⟩), fun row => ?_⟩
        cases row with
        | error failure => exact ⟨.inr (.inl rfl), fun _ => trivial⟩
        | ok row =>
            refine ⟨fun missing => ?_, fun request found => ?_⟩
            · subst missing
              exact ⟨.inr (.inl rfl), fun _ => trivial⟩
            · subst found
              refine ⟨fun _ => ⟨.inl rfl, fun _ => trivial⟩, fun _ =>
                ⟨fun _ => ⟨.inl rfl, fun _ => trivial⟩, fun pending => ?_⟩⟩
              refine ⟨.inr ⟨by simpa using pending, newId, rfl⟩, fun committed => ?_⟩
              cases committed with
              | error failure => exact ⟨.inl rfl, fun _ => trivial⟩
              | ok reply => rfl
  · rintro request _ rfl
    refine ordinary_transacts ?_ (by rintro _ _ _ ⟨⟩)
    simp [Serves, uses_iff, Friends.loadRequest, forall_except, Serving, Operation.purpose,
      (told _).meets]

theorem createRequest_transacts (me target newId : Uuid) :
    Transacts (Friends.createRequest me target newId) .outside := by
  simp only [Transacts, Friends.createRequest, Friends.areFriends, meets_bind, meets_refuse,
    meets_query, forall_except]
  refine ⟨fun _ => trivial, fun _ => ⟨rfl, fun _ => ⟨fun _ => trivial, fun _ => ⟨rfl, fun _ =>
    ⟨fun _ => trivial, fun _ => ⟨rfl, fun reverse => ?_, fun _ => trivial⟩⟩,
    fun _ => trivial⟩⟩, fun _ => trivial⟩⟩
  cases reverse with
  | some reverseId => exact acceptInternal_transacts me reverseId newId
  | none =>
      simp only [Friends.insertRequest, Friends.loadRequest, meets_bind, meets_insertUnique,
        meets_map, meets_query, meets_okOr, meets_sendTo, meets_pure, forall_except]
      exact ⟨rfl, fun _ => ⟨rfl, fun _ => ⟨fun _ => trivial, fun _ _ => ⟨rfl, fun _ => trivial⟩⟩,
        fun _ => trivial⟩, fun _ => trivial⟩

theorem decline_transacts (auth id : Uuid) : Transacts (Friends.decline auth id) .outside := by
  have uses : (Friends.decline auth id).Uses fun operation : Operation =>
      operation.transaction = none ∧ operation ≠ .begin := by
    simp [uses_iff, Friends.decline, Friends.loadRequest, forall_except, Operation.transaction,
      Statement.transaction]
  exact Uses.meets (fun operation allowed => outside_ignores allowed.1 allowed.2) uses
    (fun _ => trivial) (fun _ => trivial)

theorem updateWorld_transacts (state : AppState) (auth id : Uuid)
    (body : Worlds.UpdateWorldSession) :
    Transacts (Worlds.update state auth id body) .outside := by
  simp only [Transacts, Worlds.update, meets_bind, meets_query, meets_okOr, meets_refuse,
    meets_ite, meets_whenever, meets_pure, forall_except]
  refine ⟨rfl, fun row => ⟨fun _ => trivial, fun world _ => ⟨fun _ => trivial, fun _ => ?_⟩⟩,
    fun _ => trivial⟩
  refine Worlds.mergedMaxPlayers_meets (fun maxPlayers _ => ?_) (fun _ => trivial)
  refine Worlds.parseOr_meets (fun status _ => ?_) (fun _ => trivial)
  refine Worlds.parseOr_meets (fun invitePolicy _ => ?_) (fun _ => trivial)
  have told : ∀ phase, (∀ transaction id request, phase ≠ .locked transaction id request) →
      Transacts (Worlds.announcePolicy id world.hostUserId invitePolicy) phase :=
    fun _ => ordinary_transacts (Worlds.announcePolicy_serves _ _ _ _)
  constructor
  · intro _
    refine (transactionally_begins fun transaction => uses_iff.mpr ?_).mono ?_
      (fun _ _ _ => trivial)
    · simp [Worlds.closeWorldCleanup, forall_except, TransactionPhase.Within,
        Operation.transaction, Statement.transaction, Operation.purpose]
    · rintro updated _ ⟨transaction, rfl⟩
      exact ⟨fun _ => told _ (by rintro _ _ _ ⟨⟩), fun _ => trivial⟩
  · intro _
    exact ⟨rfl, fun updated => ⟨fun _ => told _ (by rintro _ _ _ ⟨⟩), fun _ => trivial⟩,
      fun _ => trivial⟩

theorem closeWorld_transacts (auth id : Uuid) : Transacts (Worlds.close auth id) .outside := by
  simp only [Transacts, Worlds.close, meets_bind, meets_query, meets_okOr, meets_refuse,
    forall_except]
  refine ⟨rfl, fun row => ⟨fun _ => trivial, fun host _ => ⟨fun _ => trivial, fun _ => ?_⟩⟩,
    fun _ => trivial⟩
  refine (transactionally_begins fun transaction => uses_iff.mpr ?_).mono
    (fun _ _ _ => trivial) (fun _ _ _ => trivial)
  simp [Worlds.closeWorldCleanup, forall_except, TransactionPhase.Within,
    Operation.transaction, Statement.transaction, Operation.purpose]

theorem handle_transacts (state : AppState) (request : Request) :
    (handle state request).Meets transactionProtocol.logic (fun _ _ => True)
      (transactionProtocol.initial request) := by
  cases locks : request.purpose.locks with
  | true =>
      refine meets_run.mpr ?_
      cases request with
      | acceptJoinRequest auth id draw =>
          rw [Request.handler, meets_map]
          exact acceptJoinRequest_transacts state auth id draw
      | acceptInvite auth id draw =>
          rw [Request.handler, meets_map]
          exact acceptInvite_transacts state auth id draw
      | createFriendRequest auth target newId =>
          rw [Request.handler, meets_map]
          exact createRequest_transacts auth target newId
      | acceptFriendRequest auth id newId =>
          rw [Request.handler, meets_map]
          exact acceptInternal_transacts auth id newId
      | declineFriendRequest auth id =>
          rw [Request.handler, meets_map]
          exact decline_transacts auth id
      | updateWorld auth id body =>
          rw [Request.handler, meets_map]
          exact updateWorld_transacts state auth id body
      | closeWorld auth id =>
          rw [Request.handler, meets_map]
          exact closeWorld_transacts auth id
      | _ => cases locks
  | false =>
      refine (handle_serves state request).meets (fun operation serving => ?_)
        (fun _ => trivial)
      have plain : operation.transaction = none ∧ operation ≠ .begin := by
        rcases serving with ordinary | own | ⟨-, holds⟩
        · exact Operation.transaction_of_ordinary ordinary
        · apply Operation.untransacted
          · rw [own]
            exact locks
          · rw [own]
            exact request.purpose_ne_transaction
        · rw [locks] at holds
          cases holds
      exact outside_ignores plain.1 plain.2

end Course

end Loontail
