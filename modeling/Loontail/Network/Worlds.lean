import Loontail.Network.Presence

/-! # Hosted worlds -/

namespace Loontail.Network.Worlds

open Concurrency Handler

def loadOpenWorldSession (id : Uuid) : Handler WorldSession := do
  let world ← query (.world (.selectOpen id))
  okOr world (.notFound "world session not found or closed")

structure CreateWorldSession where
  maxPlayers : Option Int
  deriving DecidableEq, Repr

/-- `POST /world-sessions` — idempotent: one open world per host. -/
def create (state : AppState) (auth : Uuid) (body : CreateWorldSession) (newId : Uuid) :
    Handler WorldSession := do
  let cap := state.config.maxPlayersPerWorld
  let requested ← orPanic (clamp (body.maxPlayers.getD cap) 1 cap)
  query (.world (.upsert auth requested newId))

structure UpdateWorldSession where
  maxPlayers : Option Int
  status : Option String
  invitePolicy : Option String
  deriving DecidableEq, Repr

def mergedMaxPlayers (cap : Int) (requested : Option Int) (world : WorldSession) :
    Handler Int :=
  match requested with
  | some value => orPanic (clamp value 1 cap)
  | none => pure world.maxPlayers

/-- `match body.column.as_deref() { Some(value) => parse(value)?, None => current }`. -/
def parseOr {Value : Type} (parse : String → Except AppError Value)
    (text : Option String) (current : Value) : Handler Value :=
  match text with
  | none => pure current
  | some text =>
      match parse text with
      | .ok value => pure value
      | .error error => throw error

/-- Push a new invite policy to every active guest, and nudge their friends. -/
def notifyGuests (id : Uuid) (invitePolicy : InvitePolicy) : List Uuid → Handler Unit
  | [] => pure ()
  | guest :: rest => do
      sendTo guest (.worldPolicyChanged id invitePolicy)
      logged (Presence.broadcastPresence guest)
      notifyGuests id invitePolicy rest

def announcePolicy (id hostUserId : Uuid) (invitePolicy : InvitePolicy) : Handler Unit := do
  let guests ← attempt (.world (.activeGuests id))
  notifyGuests id invitePolicy (guests.toOption.getD [])
  logged (Presence.broadcastPresence hostUserId)

/-- The statements of `close_world_cleanup` up to the commit. -/
def closeWorldCleanup (tx : Transaction) (worldId hostId : Uuid) : Handler Closing := do
  let relays ← query (.world (.lockRelays tx worldId))
  let present ← query (.world (.lockPresence tx hostId))
  pure { transaction := tx, relays, present }

/-- The transaction of an `update` that closes the world. -/
def updateClosing (id : Uuid) (maxPlayers : Int) (invitePolicy : InvitePolicy)
    (hostId : Uuid) : Handler WorldSession :=
  transactionally fun tx => do
    let updated ← query (.world (.lockWorld tx id))
    refuse (!updated) (.database .rowNotFound)
    let closing ← closeWorldCleanup tx id hostId
    query (.world (.commitUpdate closing id maxPlayers invitePolicy hostId))

/-- `PATCH /world-sessions/:id` — host updates capacity or closes the world. -/
def update (state : AppState) (auth id : Uuid) (body : UpdateWorldSession) :
    Handler WorldSession := do
  let world ← query (.world (.select id))
  let world ← okOr world (.notFound "world session not found")
  refuse (world.hostUserId ≠ auth) .forbidden
  let maxPlayers ← mergedMaxPlayers state.config.maxPlayersPerWorld body.maxPlayers world
  let status ← parseOr WorldStatus.parse body.status world.status
  let invitePolicy ← parseOr InvitePolicy.parse body.invitePolicy world.invitePolicy
  let closing := status = .closed ∧ world.status = .open
  let updated ← (if closing then
      updateClosing id maxPlayers invitePolicy world.hostUserId
    else query (.world (.update id maxPlayers status invitePolicy)) : Handler WorldSession)
  whenever (invitePolicy ≠ world.invitePolicy)
    (announcePolicy id world.hostUserId invitePolicy)
  pure updated

/-- The transaction of `close`. -/
def shutWorld (id hostId : Uuid) : Handler Unit :=
  transactionally fun tx => do
    let shut ← query (.world (.lockOpenWorld tx id))
    let closing ← closeWorldCleanup tx id hostId
    let _ ← query (.world (.commitClose closing id hostId shut))
    pure ()

/-- `DELETE /world-sessions/:id` — host closes the world and leaves it. -/
def close (auth id : Uuid) : Handler Unit := do
  let host ← query (.world (.selectHost id))
  let host ← okOr host (.notFound "world session not found")
  refuse (host ≠ auth) .forbidden
  shutWorld id auth

/-! ## Footprints -/

theorem create_serves (state : AppState) (auth : Uuid) (body : CreateWorldSession)
    (newId : Uuid) : (create state auth body newId).Serves .createWorld := by
  simp [Serves, uses_iff, create, forall_except, Serving, Operation.purpose]

section Merging

variable {logic : Logic network} {onError : AppError → logic.Situation → Prop}
  {situation : logic.Situation}

theorem mergedMaxPlayers_meets {cap : Int} {requested : Option Int} {world : WorldSession}
    {onOk : Int → logic.Situation → Prop}
    (ok : ∀ value, (requested = none → value = world.maxPlayers) → onOk value situation)
    (error : ∀ error, onError error situation) :
    (mergedMaxPlayers cap requested world).Meets logic onOk onError situation := by
  cases requested with
  | none => exact ok _ fun _ => rfl
  | some value =>
      simp only [mergedMaxPlayers, meets_orPanic]
      exact ⟨fun _ => error _, fun clamped _ => ok clamped (by rintro ⟨⟩)⟩

theorem parseOr_meets {Value : Type} {parse : String → Except AppError Value}
    {text : Option String} {current : Value} {onOk : Value → logic.Situation → Prop}
    (ok : ∀ value, (text = none → value = current) → onOk value situation)
    (error : ∀ error, onError error situation) :
    (parseOr parse text current).Meets logic onOk onError situation := by
  cases text with
  | none => exact ok _ fun _ => rfl
  | some text =>
      simp only [parseOr]
      split
      · exact ok _ (by rintro ⟨⟩)
      · exact error _

end Merging

section Transactions

variable {logic : Logic network} {onError : AppError → logic.Situation → Prop}
  {situation : logic.Situation}
  (ignored : ∀ operation : Operation, operation.purpose = .transaction →
    logic.Ignores situation operation)
  (stopped : ∀ error, onError error situation)

include ignored stopped

theorem closeWorldCleanup_meets {tx : Transaction} {worldId hostId : Uuid}
    {onOk : Closing → logic.Situation → Prop}
    (ok : ∀ closing, closing.transaction = tx → onOk closing situation) :
    (closeWorldCleanup tx worldId hostId).Meets logic onOk onError situation := by
  simp only [closeWorldCleanup, meets_bind, meets_query, meets_pure]
  apply ignored _ rfl
  intro relays
  cases relays with
  | error failure => exact stopped _
  | ok relays =>
      apply ignored _ rfl
      intro present
      cases present with
      | error failure => exact stopped _
      | ok present => exact ok _ rfl

theorem updateClosing_meets {id hostId : Uuid} {maxPlayers : Int}
    {invitePolicy : InvitePolicy} {onOk : WorldSession → logic.Situation → Prop}
    (commits : ∀ closing : Closing, logic.admits situation
      (.statement (.world (.commitUpdate closing id maxPlayers invitePolicy hostId)))
      fun result following => match result with
        | .ok updated => onOk updated following
        | .error failure => logic.admits following (.rollback closing.transaction)
            fun _ last => onError (.database failure) last) :
    (updateClosing id maxPlayers invitePolicy hostId).Meets logic onOk onError
      situation := by
  rw [updateClosing, meets_transactionally, meets_begin]
  apply ignored _ rfl
  intro begun
  cases begun with
  | error failure => exact stopped _
  | ok transaction =>
      have undone : ∀ error : AppError, logic.admits situation (.rollback transaction)
          fun _ last => onError error last :=
        fun error => ignored (.rollback transaction) rfl _ fun _ => stopped error
      simp only [meets_bind, meets_query, meets_refuse]
      apply ignored _ rfl
      intro updated
      cases updated with
      | error failure => exact undone _
      | ok updated =>
          refine ⟨fun _ => undone _, fun _ => ?_⟩
          apply closeWorldCleanup_meets ignored undone
          rintro closing rfl
          refine logic.mono (fun result following holds => ?_) (commits closing)
          cases result <;> exact holds

theorem shutWorld_meets {id hostId : Uuid} {onOk : Unit → logic.Situation → Prop}
    (commits : ∀ (closing : Closing) (shut : Bool), logic.admits situation
      (.statement (.world (.commitClose closing id hostId shut)))
      fun result following => match result with
        | .ok _ => onOk () following
        | .error failure => logic.admits following (.rollback closing.transaction)
            fun _ last => onError (.database failure) last) :
    (shutWorld id hostId).Meets logic onOk onError situation := by
  rw [shutWorld, meets_transactionally, meets_begin]
  apply ignored _ rfl
  intro begun
  cases begun with
  | error failure => exact stopped _
  | ok transaction =>
      have undone : ∀ error : AppError, logic.admits situation (.rollback transaction)
          fun _ last => onError error last :=
        fun error => ignored (.rollback transaction) rfl _ fun _ => stopped error
      simp only [meets_bind, meets_query, meets_pure]
      apply ignored _ rfl
      intro shut
      cases shut with
      | error failure => exact undone _
      | ok shut =>
          apply closeWorldCleanup_meets ignored undone
          rintro closing rfl
          refine logic.mono (fun result following holds => ?_) (commits closing shut)
          cases result <;> exact holds

end Transactions

theorem notifyGuests_serves (id : Uuid) (invitePolicy : InvitePolicy)
    (guests : List Uuid) (purpose : Purpose) :
    (notifyGuests id invitePolicy guests).Serves purpose := by
  induction guests with
  | nil => trivial
  | cons guest rest induction =>
      refine uses_iff.mpr ?_
      rw [notifyGuests]
      simp only [meets_bind, meets_sendTo, meets_logged]
      refine ⟨.inl rfl, fun _ => ?_⟩
      exact (Presence.broadcastPresence_serves guest purpose).meets
        (fun _ => uses_iff.mp induction) (fun _ => uses_iff.mp induction)

theorem announcePolicy_serves (id hostUserId : Uuid) (invitePolicy : InvitePolicy)
    (purpose : Purpose) : (announcePolicy id hostUserId invitePolicy).Serves purpose := by
  refine uses_iff.mpr ?_
  simp only [announcePolicy, meets_bind, meets_attempt, meets_logged]
  refine ⟨.inl rfl, fun result => ?_⟩
  refine (notifyGuests_serves id invitePolicy _ purpose).meets (fun _ => ?_)
    (fun _ => trivial)
  exact (Presence.broadcastPresence_serves hostUserId purpose).meets (fun _ => trivial)
    (fun _ => trivial)

theorem updateClosing_serves (id : Uuid) (maxPlayers : Int) (invitePolicy : InvitePolicy)
    (hostId : Uuid) :
    (updateClosing id maxPlayers invitePolicy hostId).Serves .updateWorld := by
  simp [Serves, uses_iff, updateClosing, closeWorldCleanup, forall_except, Serving,
    Operation.purpose, Purpose.locks]

theorem update_serves (state : AppState) (auth id : Uuid) (body : UpdateWorldSession) :
    (update state auth id body).Serves .updateWorld := by
  simp only [Serves, uses_iff, update, meets_bind, meets_query, meets_okOr, meets_refuse,
    meets_whenever, meets_pure, forall_except]
  refine ⟨.inl rfl, fun row => ⟨fun _ => trivial, fun world _ => ⟨fun _ => trivial,
    fun _ => ?_⟩⟩, fun _ => trivial⟩
  refine mergedMaxPlayers_meets (fun maxPlayers _ => ?_) (fun _ => trivial)
  refine parseOr_meets (fun status _ => ?_) (fun _ => trivial)
  refine parseOr_meets (fun invitePolicy _ => ?_) (fun _ => trivial)
  rw [meets_ite]
  constructor
  · intro _
    apply (updateClosing_serves id maxPlayers invitePolicy world.hostUserId).meets
    · intro updated
      refine ⟨fun _ => ?_, fun _ => trivial⟩
      exact (announcePolicy_serves _ _ _ _).meets (fun _ => trivial) (fun _ => trivial)
    · exact fun _ => trivial
  · intro _
    rw [meets_query, footprint_admits, forall_except]
    refine ⟨.inr (.inl rfl), fun updated => ⟨fun _ => ?_, fun _ => trivial⟩, fun _ => trivial⟩
    exact (announcePolicy_serves _ _ _ _).meets (fun _ => trivial) (fun _ => trivial)

theorem close_serves (auth id : Uuid) : (close auth id).Serves .closeWorld := by
  simp [Serves, uses_iff, close, shutWorld, closeWorldCleanup, forall_except, Serving,
    Operation.purpose, Purpose.locks]

end Loontail.Network.Worlds
