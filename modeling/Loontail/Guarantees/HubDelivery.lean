import Loontail.Concurrency.Trace
import Loontail.Network.Requests
import Mathlib.Data.List.Induction
import Mathlib.Data.List.TakeWhile

/-! # Delivery by the signaling hub

What a connection receives is read off the sequence of hub operations: the
events sent to its user while it was registered and its receiver alive. -/

namespace Loontail

open Concurrency Network

/-! ## What a sequence of operations says -/

/-- The hub after an operation; the event loop and the question who is online
leave it alone. -/
def SignalingOperation.apply (hub : SignalingHub) : SignalingOperation → SignalingHub
  | add userId connId => hub.add userId connId
  | remove userId connId => hub.remove userId connId
  | sendTo userId event => hub.sendTo userId event
  | dropReceiver connId => hub.dropReceiver connId
  | _ => hub

def SignalingOperation.added : SignalingOperation → Option Uuid
  | add _ connId => some connId
  | _ => none

def SignalingOperation.sentTo (userId : Uuid) : SignalingOperation → Option ServerEvent
  | sendTo other event => if other = userId then some event else none
  | _ => none

/-- The connection was added for the user, and `later` came after that. -/
def Opened (operations : List SignalingOperation) (userId connId : Uuid)
    (later : List SignalingOperation) : Prop :=
  ∃ earlier, operations = earlier ++ .add userId connId :: later

/-- The events sent to the user before the connection is removed or its receiver
dropped. -/
def eventsDuring (userId connId : Uuid) (later : List SignalingOperation) : List ServerEvent :=
  (later.takeWhile fun operation =>
    operation ≠ .remove userId connId && operation ≠ .dropReceiver connId).filterMap
    (SignalingOperation.sentTo userId)

/-- The connection was not removed, and nothing was sent to its user since its
receiver was dropped. -/
def Stays (userId connId : Uuid) (later : List SignalingOperation) : Prop :=
  .remove userId connId ∉ later ∧
    ∀ alive dropped, later = alive ++ .dropReceiver connId :: dropped →
      ∀ event, .sendTo userId event ∉ dropped

def Registered (operations : List SignalingOperation) (userId connId : Uuid) : Prop :=
  ∃ later, Opened operations userId connId later ∧ Stays userId connId later

/-- Every connection whose receiver is alive has received the events of its own
time in their order, no user has an empty connection list, and the hub knows
exactly the users with a registered connection. -/
structure SignalingHub.Delivers (hub : SignalingHub)
    (operations : List SignalingOperation) : Prop where
  received : ∀ userId connId later, Opened operations userId connId later →
    .dropReceiver connId ∉ later →
      hub.receivers.lookup connId = some (eventsDuring userId connId later)
  nonempty : ∀ userId conns, hub.connections.lookup userId = some conns → conns ≠ []
  registered : ∀ userId connId, connId ∈ (hub.connections.lookup userId).getD [] ↔
    Registered operations userId connId
  online : ∀ userId, hub.isOnline userId = true ↔
    ∃ connId, Registered operations userId connId
  counted : ∃ users : List Uuid, users.Nodup ∧
    (∀ userId, userId ∈ users ↔ ∃ connId, Registered operations userId connId) ∧
    hub.connectedUsers = users.length

/-! ## One operation more -/

section Sequence

variable {operations later : List SignalingOperation} {operation : SignalingOperation}
  {userId connId : Uuid}

theorem opened_snoc : Opened (operations ++ [operation]) userId connId later ↔
    (operation = .add userId connId ∧ later = []) ∨
      ∃ before, later = before ++ [operation] ∧ Opened operations userId connId before := by
  constructor
  · rintro ⟨earlier, split⟩
    rcases List.eq_nil_or_concat later with rfl | ⟨before, last, rfl⟩
    · have ends := List.append_inj' split rfl
      exact .inl ⟨(List.cons.inj ends.2).1, rfl⟩
    · have ends : operations ++ [operation] =
          (earlier ++ .add userId connId :: before) ++ [last] := by
        simpa using split
      have parts := List.append_inj' ends rfl
      refine .inr ⟨before, ?_, earlier, parts.1⟩
      rw [(List.cons.inj parts.2).1, List.concat_eq_append]
  · rintro (⟨rfl, rfl⟩ | ⟨before, rfl, earlier, rfl⟩)
    · exact ⟨operations, rfl⟩
    · exact ⟨earlier, by simp⟩

theorem Opened.mem_added (opened : Opened operations userId connId later) :
    connId ∈ operations.filterMap SignalingOperation.added := by
  rcases opened with ⟨earlier, rfl⟩
  simp [SignalingOperation.added]

theorem Opened.unique (distinct : (operations.filterMap SignalingOperation.added).Nodup)
    {otherUser : Uuid} {otherLater : List SignalingOperation}
    (opened : Opened operations userId connId later)
    (again : Opened operations otherUser connId otherLater) :
    userId = otherUser ∧ later = otherLater := by
  induction operations using List.reverseRecOn generalizing later otherLater with
  | nil =>
      rcases opened with ⟨earlier, split⟩
      simp at split
  | append_singleton operations operation induction =>
      rw [List.filterMap_append] at distinct
      have kept := (List.nodup_append.mp distinct).1
      have fresh (before : List SignalingOperation) (user : Uuid)
          (adds : operation = .add user connId) (other : Uuid)
          (earlier : Opened operations other connId before) : False :=
        (List.nodup_append.mp distinct).2.2 connId earlier.mem_added connId
          (by simp [adds, SignalingOperation.added]) rfl
      rcases opened_snoc.mp opened with ⟨adds, rfl⟩ | ⟨before, rfl, earlier⟩
      · rcases opened_snoc.mp again with ⟨same, rfl⟩ | ⟨before, rfl, earlier⟩
        · rw [adds] at same
          cases same
          exact ⟨rfl, rfl⟩
        · exact (fresh before userId adds otherUser earlier).elim
      · rcases opened_snoc.mp again with ⟨adds, rfl⟩ | ⟨otherBefore, rfl, otherEarlier⟩
        · exact (fresh before otherUser adds userId earlier).elim
        · rcases induction kept earlier otherEarlier with ⟨rfl, rfl⟩
          exact ⟨rfl, rfl⟩

/-- While the receiver is alive, one more operation adds what it sends, unless
the connection was removed. -/
theorem eventsDuring_snoc (alive : .dropReceiver connId ∉ later) :
    eventsDuring userId connId (later ++ [operation]) =
      if .remove userId connId ∈ later then eventsDuring userId connId later
      else eventsDuring userId connId later ++ (operation.sentTo userId).toList := by
  unfold eventsDuring
  split
  · rename_i removed
    rcases List.mem_iff_append.mp removed with ⟨earlier, rest, rfl⟩
    congr 1
    simp [List.takeWhile_append]
  · rename_i kept
    have stays : ∀ other ∈ later, (decide (other ≠ .remove userId connId) &&
        decide (other ≠ .dropReceiver connId)) = true := by
      intro other member
      have notRemoved : other ≠ .remove userId connId := fun same => kept (same ▸ member)
      have notDropped : other ≠ .dropReceiver connId := fun same => alive (same ▸ member)
      simp [notRemoved, notDropped]
    have whole := List.takeWhile_eq_self_iff.mpr stays
    rw [List.takeWhile_append_of_pos stays, List.filterMap_append, whole]
    congr 1
    cases operation with
    | sendTo other event =>
        by_cases same : other = userId <;> simp [SignalingOperation.sentTo, same]
    | _ => simp [SignalingOperation.sentTo, List.takeWhile_cons]

theorem stays_snoc : Stays userId connId (later ++ [operation]) ↔
    Stays userId connId later ∧ operation ≠ .remove userId connId ∧
      (.dropReceiver connId ∈ later → ∀ event, operation ≠ .sendTo userId event) := by
  constructor
  · rintro ⟨kept, unsent⟩
    simp only [List.mem_append, List.mem_singleton, not_or] at kept
    refine ⟨⟨kept.1, fun alive dropped split event sent => ?_⟩, Ne.symm kept.2,
      fun member event sends => ?_⟩
    · exact unsent alive (dropped ++ [operation]) (by simp [split]) event
        (List.mem_append_left _ sent)
    · rcases List.mem_iff_append.mp member with ⟨alive, dropped, rfl⟩
      exact unsent alive (dropped ++ [operation]) (by simp) event (by simp [sends])
  · rintro ⟨⟨kept, unsent⟩, stays, silent⟩
    refine ⟨by simp [kept, Ne.symm stays], fun alive dropped split event sent => ?_⟩
    rcases List.eq_nil_or_concat dropped with rfl | ⟨before, last, rfl⟩
    · cases sent
    · have ends : later ++ [operation] =
          (alive ++ .dropReceiver connId :: before) ++ [last] := by
        simpa using split
      have parts := List.append_inj' ends rfl
      rw [List.concat_eq_append, List.mem_append, List.mem_singleton] at sent
      rcases sent with sent | rfl
      · exact unsent alive before parts.1 event sent
      · exact silent (by simp [parts.1]) event (List.cons.inj parts.2).1

def Received (operations : List SignalingOperation) (connId : Uuid)
    (queue : List ServerEvent) : Prop :=
  ∃ userId later, Opened operations userId connId later ∧ .dropReceiver connId ∉ later ∧
    queue = eventsDuring userId connId later

theorem received_snoc {queue : List ServerEvent} :
    Received (operations ++ [operation]) connId queue ↔
      (∃ userId, operation = .add userId connId ∧ queue = []) ∨
        operation ≠ .dropReceiver connId ∧
          ∃ userId later, Opened operations userId connId later ∧
            .dropReceiver connId ∉ later ∧
            queue = if .remove userId connId ∈ later then eventsDuring userId connId later
              else eventsDuring userId connId later ++ (operation.sentTo userId).toList := by
  constructor
  · rintro ⟨userId, later, opened, alive, rfl⟩
    rcases opened_snoc.mp opened with ⟨adds, rfl⟩ | ⟨before, rfl, earlier⟩
    · exact .inl ⟨userId, adds, rfl⟩
    · simp only [List.mem_append, List.mem_singleton, not_or] at alive
      exact .inr ⟨Ne.symm alive.2, userId, before, earlier, alive.1, eventsDuring_snoc alive.1⟩
  · rintro (⟨userId, adds, rfl⟩ | ⟨undropped, userId, later, opened, alive, rfl⟩)
    · exact ⟨userId, [], opened_snoc.mpr (.inl ⟨adds, rfl⟩), by simp, rfl⟩
    · refine ⟨userId, later ++ [operation], opened_snoc.mpr (.inr ⟨later, rfl, opened⟩), ?_,
        (eventsDuring_snoc alive).symm⟩
      simp [alive, Ne.symm undropped]

theorem received_silent {queue : List ServerEvent}
    (opens : ∀ userId, operation ≠ .add userId connId)
    (undropped : operation ≠ .dropReceiver connId)
    (silent : ∀ userId, operation.sentTo userId = none) :
    Received (operations ++ [operation]) connId queue ↔ Received operations connId queue := by
  rw [received_snoc]
  constructor
  · rintro (⟨userId, adds, -⟩ | ⟨-, userId, later, opened, alive, rfl⟩)
    · exact (opens userId adds).elim
    · exact ⟨userId, later, opened, alive, by simp [silent]⟩
  · rintro ⟨userId, later, opened, alive, rfl⟩
    exact .inr ⟨undropped, userId, later, opened, alive, by simp [silent]⟩

theorem registered_snoc : Registered (operations ++ [operation]) userId connId ↔
    operation = .add userId connId ∨
      ∃ later, Opened operations userId connId later ∧ Stays userId connId later ∧
        operation ≠ .remove userId connId ∧
        (.dropReceiver connId ∈ later → ∀ event, operation ≠ .sendTo userId event) := by
  constructor
  · rintro ⟨later, opened, stays⟩
    rcases opened_snoc.mp opened with ⟨adds, -⟩ | ⟨before, rfl, earlier⟩
    · exact .inl adds
    · exact .inr ⟨before, earlier, stays_snoc.mp stays⟩
  · rintro (adds | ⟨later, opened, stays⟩)
    · refine ⟨[], opened_snoc.mpr (.inl ⟨adds, rfl⟩), by simp, ?_⟩
      intro alive dropped split
      simp at split
    · exact ⟨later ++ [operation], opened_snoc.mpr (.inr ⟨later, rfl, opened⟩),
        stays_snoc.mpr stays⟩

theorem registered_silent (opens : operation ≠ .add userId connId)
    (stays : operation ≠ .remove userId connId)
    (silent : ∀ event, operation ≠ .sendTo userId event) :
    Registered (operations ++ [operation]) userId connId ↔
      Registered operations userId connId := by
  rw [registered_snoc]
  constructor
  · rintro (adds | ⟨later, opened, kept, -⟩)
    · exact (opens adds).elim
    · exact ⟨later, opened, kept⟩
  · rintro ⟨later, opened, kept⟩
    exact .inr ⟨later, opened, kept, stays, fun _ => silent⟩

end Sequence

/-! ## The hub's own lists -/

namespace SignalingHub

variable {hub : SignalingHub} {userId other connId : Uuid}

def registeredTo (hub : SignalingHub) (userId : Uuid) : List Uuid :=
  (hub.connections.lookup userId).getD []

def Pruned (hub : SignalingHub) : Prop :=
  ∀ userId conns, hub.connections.lookup userId = some conns → conns ≠ []

theorem registeredTo_setConnections (conns : List Uuid) :
    (hub.setConnections userId conns).registeredTo other =
      if other = userId then conns else hub.registeredTo other := by
  unfold setConnections registeredTo
  by_cases same : other = userId
  · subst same
    cases conns <;> simp [AList.lookup_erase, AList.lookup_insert]
  · cases conns <;> simp [same, AList.lookup_erase_ne, AList.lookup_insert_ne]

theorem registeredTo_add : (hub.add userId connId).registeredTo other =
    if other = userId then hub.registeredTo other ++ [connId] else hub.registeredTo other := by
  unfold add registeredTo
  by_cases same : other = userId
  · subst same
    simp [AList.lookup_insert]
  · simp [same, AList.lookup_insert_ne]

theorem registeredTo_remove : (hub.remove userId connId).registeredTo other =
    if other = userId then (hub.registeredTo other).filter (· ≠ connId)
    else hub.registeredTo other := by
  unfold remove
  split
  · rename_i absent
    split
    · rename_i same
      subst same
      simp [registeredTo, absent]
    · rfl
  · rename_i conns found
    rw [registeredTo_setConnections]
    split
    · rename_i same
      subst same
      simp [registeredTo, found]
    · rfl

theorem registeredTo_sendTo (event : ServerEvent) :
    (hub.sendTo userId event).registeredTo other =
      if other = userId then
        (hub.registeredTo other).filter fun connId => (hub.receivers.lookup connId).isSome
      else hub.registeredTo other := by
  unfold sendTo
  split
  · rename_i absent
    split
    · rename_i same
      subst same
      simp [registeredTo, absent]
    · rfl
  · rename_i conns found
    have listed := @registeredTo_setConnections hub userId other
      (conns.filter fun connId => (hub.receivers.lookup connId).isSome)
    unfold registeredTo at listed ⊢
    rw [listed]
    split
    · rename_i same
      subst same
      simp [found]
    · rfl

theorem Pruned.setConnections (pruned : hub.Pruned) (conns : List Uuid) :
    (hub.setConnections userId conns).Pruned := by
  intro other found lookup
  unfold SignalingHub.setConnections at lookup
  by_cases same : other = userId
  · subst same
    cases conns with
    | nil => simp [AList.lookup_erase] at lookup
    | cons head tail =>
        simp [AList.lookup_insert] at lookup
        simp [← lookup]
  · cases conns with
    | nil =>
        simp [AList.lookup_erase_ne, same] at lookup
        exact pruned other found lookup
    | cons head tail =>
        simp [AList.lookup_insert_ne, same] at lookup
        exact pruned other found lookup

theorem lookup_deliver (receivers : AList (fun _ : Uuid => List ServerEvent))
    (event : ServerEvent) (connId other : Uuid) :
    (deliver receivers event connId).lookup other =
      if other = connId then (receivers.lookup other).map (· ++ [event])
      else receivers.lookup other := by
  unfold deliver
  by_cases same : other = connId
  · subst same
    cases found : receivers.lookup other <;> simp [found, AList.lookup_insert]
  · cases found : receivers.lookup connId <;> simp [same, AList.lookup_insert_ne]

theorem lookup_foldl_deliver (event : ServerEvent) (other : Uuid) (conns : List Uuid)
    (distinct : conns.Nodup) (receivers : AList (fun _ : Uuid => List ServerEvent)) :
    (conns.foldl (fun receivers connId => deliver receivers event connId) receivers).lookup
        other =
      if other ∈ conns then (receivers.lookup other).map (· ++ [event])
      else receivers.lookup other := by
  induction conns generalizing receivers with
  | nil => rfl
  | cons connId conns induction =>
      have parts := List.nodup_cons.mp distinct
      rw [List.foldl_cons, induction parts.2, lookup_deliver]
      by_cases same : other = connId
      · subst same
        simp [parts.1]
      · simp [same]

theorem receivers_sendTo (event : ServerEvent) (distinct : (hub.registeredTo userId).Nodup) :
    (hub.sendTo userId event).receivers.lookup connId =
      if connId ∈ hub.registeredTo userId then
        (hub.receivers.lookup connId).map (· ++ [event])
      else hub.receivers.lookup connId := by
  unfold sendTo
  split
  · rename_i absent
    simp [registeredTo, absent]
  · rename_i conns found
    rw [show hub.registeredTo userId = conns by simp [registeredTo, found]] at distinct ⊢
    exact lookup_foldl_deliver event connId conns distinct hub.receivers

@[simp] theorem receivers_remove : (hub.remove userId connId).receivers = hub.receivers := by
  unfold remove
  split <;> rfl

/-! ## What the hub holds follows the operations -/

structure Follows (hub : SignalingHub) (operations : List SignalingOperation) : Prop where
  pruned : hub.Pruned
  distinct : ∀ userId, (hub.registeredTo userId).Nodup
  registered : ∀ userId connId,
    connId ∈ hub.registeredTo userId ↔ Registered operations userId connId
  received : ∀ connId queue,
    hub.receivers.lookup connId = some queue ↔ Received operations connId queue

section Step

variable {operations : List SignalingOperation} {operation : SignalingOperation}

theorem follows_new : Follows .new [] where
  pruned := by
    intro userId conns found
    cases found
  distinct := by
    intro userId
    exact List.nodup_nil
  registered := by
    intro userId connId
    constructor
    · intro member
      cases member
    · rintro ⟨later, ⟨earlier, split⟩, -⟩
      simp at split
  received := by
    intro connId queue
    constructor
    · intro found
      cases found
    · rintro ⟨userId, later, ⟨earlier, split⟩, -⟩
      simp at split

theorem Follows.add (follows : hub.Follows operations)
    (fresh : connId ∉ operations.filterMap SignalingOperation.added) :
    (hub.add userId connId).Follows (operations ++ [.add userId connId]) where
  pruned := by
    intro other conns found
    by_cases same : other = userId
    · subst same
      rw [SignalingHub.add, AList.lookup_insert] at found
      cases found
      simp
    · rw [SignalingHub.add, AList.lookup_insert_ne same] at found
      exact follows.pruned other conns found
  distinct := by
    intro other
    rw [registeredTo_add]
    split
    · rename_i same
      subst same
      apply List.Nodup.append (follows.distinct other) (List.nodup_singleton connId)
      rw [List.disjoint_singleton]
      intro member
      obtain ⟨later, opened, -⟩ := (follows.registered other connId).mp member
      exact fresh opened.mem_added
    · exact follows.distinct other
  registered := by
    intro other conn
    have before := follows.registered other conn
    rw [registeredTo_add]
    by_cases opens : SignalingOperation.add userId connId = .add other conn
    · cases opens
      simp [registered_snoc]
    · rw [registered_silent opens (by simp) (by simp), ← before]
      split
      · rename_i same
        subst same
        have different : conn ≠ connId := fun equal => opens (equal ▸ rfl)
        simp [different]
      · rfl
  received := by
    intro conn queue
    by_cases same : conn = connId
    · subst same
      rw [SignalingHub.add, AList.lookup_insert, received_snoc]
      constructor
      · intro found
        cases found
        exact .inl ⟨userId, rfl, rfl⟩
      · rintro (⟨-, -, rfl⟩ | ⟨-, user, later, opened, -⟩)
        · rfl
        · exact (fresh opened.mem_added).elim
    · rw [SignalingHub.add, AList.lookup_insert_ne same, received_silent, follows.received]
      · intro user opens
        cases opens
        exact same rfl
      · simp
      · intro user
        rfl

theorem Follows.remove (follows : hub.Follows operations) :
    (hub.remove userId connId).Follows (operations ++ [.remove userId connId]) where
  pruned := by
    unfold SignalingHub.remove
    split
    · exact follows.pruned
    · exact follows.pruned.setConnections _
  distinct := by
    intro other
    rw [registeredTo_remove]
    split
    · exact (follows.distinct other).filter _
    · exact follows.distinct other
  registered := by
    intro other conn
    have before := follows.registered other conn
    rw [registeredTo_remove]
    by_cases removes : SignalingOperation.remove userId connId = .remove other conn
    · cases removes
      simp [registered_snoc]
    · rw [registered_silent (by simp) removes (by simp), ← before]
      split
      · rename_i same
        subst same
        have different : conn ≠ connId := fun equal => removes (equal ▸ rfl)
        simp [different]
      · rfl
  received := by
    intro conn queue
    rw [receivers_remove, received_silent (by simp) (by simp) (fun _ => rfl)]
    exact follows.received conn queue

theorem Follows.dropReceiver (follows : hub.Follows operations) :
    (hub.dropReceiver connId).Follows (operations ++ [.dropReceiver connId]) where
  pruned := follows.pruned
  distinct := follows.distinct
  registered := by
    intro other conn
    rw [registered_silent (by simp) (by simp) (by simp)]
    exact follows.registered other conn
  received := by
    intro conn queue
    by_cases same : conn = connId
    · subst same
      rw [SignalingHub.dropReceiver, AList.lookup_erase, received_snoc]
      simp
    · rw [SignalingHub.dropReceiver, AList.lookup_erase_ne same, received_silent,
        follows.received]
      · simp
      · intro drops
        cases drops
        exact same rfl
      · intro user
        rfl

theorem Follows.living (follows : hub.Follows operations)
    (named : (operations.filterMap SignalingOperation.added).Nodup) {later : List SignalingOperation}
    (opened : Opened operations userId connId later) :
    (hub.receivers.lookup connId).isSome ↔ .dropReceiver connId ∉ later := by
  rw [Option.isSome_iff_exists]
  constructor
  · rintro ⟨queue, found⟩
    obtain ⟨user, since, again, alive, -⟩ := (follows.received connId queue).mp found
    obtain ⟨-, rfl⟩ := opened.unique named again
    exact alive
  · intro alive
    exact ⟨_, (follows.received connId _).mpr ⟨userId, later, opened, alive, rfl⟩⟩

/-- A send reaches the living connections of its user and no other connection. -/
theorem Follows.sent (follows : hub.Follows operations)
    (named : (operations.filterMap SignalingOperation.added).Nodup) (event : ServerEvent)
    {later : List SignalingOperation} (opened : Opened operations other connId later)
    (alive : .dropReceiver connId ∉ later) :
    (hub.sendTo userId event).receivers.lookup connId =
      some (if .remove other connId ∈ later then eventsDuring other connId later
        else eventsDuring other connId later ++
          ((SignalingOperation.sendTo userId event).sentTo other).toList) := by
  have found := (follows.received connId _).mpr ⟨other, later, opened, alive, rfl⟩
  have member : connId ∈ hub.registeredTo userId ↔
      userId = other ∧ .remove other connId ∉ later := by
    rw [follows.registered]
    constructor
    · rintro ⟨since, again, stays⟩
      obtain ⟨rfl, rfl⟩ := opened.unique named again
      exact ⟨rfl, stays.1⟩
    · rintro ⟨rfl, kept⟩
      refine ⟨later, opened, kept, ?_⟩
      rintro before dropped rfl
      simp at alive
  rw [receivers_sendTo event (follows.distinct userId), found]
  simp only [member]
  by_cases same : userId = other
  · by_cases removed : .remove other connId ∈ later
    · simp [removed]
    · simp [same, removed, SignalingOperation.sentTo]
  · simp [same, SignalingOperation.sentTo]

theorem Follows.sendTo (follows : hub.Follows operations)
    (named : (operations.filterMap SignalingOperation.added).Nodup) (event : ServerEvent) :
    (hub.sendTo userId event).Follows (operations ++ [.sendTo userId event]) where
  pruned := by
    unfold SignalingHub.sendTo
    split
    · exact follows.pruned
    · exact follows.pruned.setConnections _
  distinct := by
    intro other
    rw [registeredTo_sendTo]
    split
    · exact (follows.distinct other).filter _
    · exact follows.distinct other
  registered := by
    intro other conn
    have before := follows.registered other conn
    rw [registeredTo_sendTo]
    split
    · rename_i same
      subst same
      rw [List.mem_filter, before, registered_snoc]
      constructor
      · rintro ⟨⟨later, opened, stays⟩, alive⟩
        have undropped := (follows.living named opened).mp alive
        exact .inr ⟨later, opened, stays, by simp, fun dropped => (undropped dropped).elim⟩
      · rintro (adds | ⟨later, opened, stays, -, unsent⟩)
        · cases adds
        · have undropped : .dropReceiver conn ∉ later := fun dropped =>
            unsent dropped event rfl
          exact ⟨⟨later, opened, stays⟩, (follows.living named opened).mpr undropped⟩
    · rename_i different
      rw [registered_silent (by simp) (by simp), before]
      intro sent sends
      cases sends
      exact different rfl
  received := by
    intro conn queue
    rw [received_snoc]
    constructor
    · intro found
      have before : (hub.receivers.lookup conn).isSome := by
        rw [receivers_sendTo event (follows.distinct userId)] at found
        split at found
        · rw [← Option.isSome_map, found]
          rfl
        · rw [found]
          rfl
      obtain ⟨earlier, received⟩ := Option.isSome_iff_exists.mp before
      obtain ⟨user, later, opened, alive, -⟩ := (follows.received conn earlier).mp received
      rw [follows.sent named event opened alive, Option.some.injEq] at found
      exact .inr ⟨by simp, user, later, opened, alive, found.symm⟩
    · rintro (⟨user, adds, -⟩ | ⟨-, user, later, opened, alive, rfl⟩)
      · cases adds
      · exact follows.sent named event opened alive

theorem Follows.idle (follows : hub.Follows operations)
    (silent : ∀ userId, operation.sentTo userId = none)
    (other : (∀ userId connId, operation ≠ .add userId connId) ∧
      (∀ userId connId, operation ≠ .remove userId connId) ∧
      (∀ connId, operation ≠ .dropReceiver connId)) :
    hub.Follows (operations ++ [operation]) where
  pruned := follows.pruned
  distinct := follows.distinct
  registered := by
    intro userId connId
    rw [registered_silent (other.1 _ _) (other.2.1 _ _), follows.registered]
    rintro event rfl
    simpa [SignalingOperation.sentTo] using silent userId
  received := by
    intro connId queue
    rw [received_silent (fun _ => other.1 _ _) (other.2.2 _) silent, follows.received]

theorem Follows.step (follows : hub.Follows operations)
    (named : ((operations ++ [operation]).filterMap SignalingOperation.added).Nodup) :
    (operation.apply hub).Follows (operations ++ [operation]) := by
  rw [List.filterMap_append, List.nodup_append] at named
  cases operation with
  | add userId connId =>
      apply follows.add
      intro member
      exact named.2.2 connId member connId (by simp [SignalingOperation.added]) rfl
  | remove userId connId => exact follows.remove
  | sendTo userId event => exact follows.sendTo named.1 event
  | dropReceiver connId => exact follows.dropReceiver
  | isOnline userId => exact follows.idle (fun _ => rfl) (by simp)
  | serve userId connId => exact follows.idle (fun _ => rfl) (by simp)

end Step

theorem follows_of_operations (operations : List SignalingOperation)
    (named : (operations.filterMap SignalingOperation.added).Nodup) :
    (operations.foldl SignalingOperation.apply .new).Follows operations := by
  induction operations using List.reverseRecOn with
  | nil => exact follows_new
  | append_singleton operations operation induction =>
      rw [List.foldl_append]
      apply Follows.step _ named
      apply induction
      rw [List.filterMap_append] at named
      exact (List.nodup_append.mp named).1

theorem Pruned.isOnline_iff (pruned : hub.Pruned) :
    hub.isOnline userId = true ↔ ∃ connId, connId ∈ hub.registeredTo userId := by
  unfold isOnline registeredTo
  cases found : hub.connections.lookup userId with
  | none => simp
  | some conns =>
      obtain ⟨connId, member⟩ := List.exists_mem_of_ne_nil conns (pruned userId conns found)
      simpa using ⟨connId, member⟩

theorem Follows.delivers {operations : List SignalingOperation}
    (follows : hub.Follows operations) : hub.Delivers operations where
  received := by
    intro userId connId later opened alive
    exact (follows.received connId _).mpr ⟨userId, later, opened, alive, rfl⟩
  nonempty := follows.pruned
  registered := follows.registered
  online := by
    intro userId
    simp only [follows.pruned.isOnline_iff, follows.registered]
  counted := by
    refine ⟨hub.connections.keys, hub.connections.keys_nodup, ?_, rfl⟩
    intro userId
    rw [← AList.mem_keys, ← AList.lookup_isSome]
    simp only [← follows.registered]
    exact follows.pruned.isOnline_iff

end SignalingHub

/-! ## The delivery guarantee -/

/-- Whatever is added, removed, sent and dropped, each living connection has
received the events of its own time, and the hub reports the registered users. -/
theorem hub_delivers (operations : List SignalingOperation)
    (named : (operations.filterMap SignalingOperation.added).Nodup) :
    (operations.foldl SignalingOperation.apply .new).Delivers operations :=
  (SignalingHub.follows_of_operations operations named).delivers

/-- Two connections of one user and one of another; a receiver is dropped and
pruned by the next event, and a sibling connection removed. -/
def hubTraffic : List SignalingOperation :=
  [.add 5 1, .add 6 2, .sendTo 5 (.friendRemoved 6), .add 5 3, .sendTo 6 (.friendRemoved 5),
    .sendTo 5 (.presenceUpdate 6), .dropReceiver 1, .sendTo 5 (.presenceUpdate 7), .remove 6 2]

theorem hub_delivers_traffic :
    (hubTraffic.filterMap SignalingOperation.added).Nodup ∧
      (hubTraffic.foldl SignalingOperation.apply .new).receivers.lookup 3 =
        some [.presenceUpdate 6, .presenceUpdate 7] ∧
      ∃ users : List Uuid, users.Nodup ∧
        (∀ userId, userId ∈ users ↔ ∃ connId, Registered hubTraffic userId connId) ∧
        (hubTraffic.foldl SignalingOperation.apply .new).connectedUsers = users.length := by
  have named : (hubTraffic.filterMap SignalingOperation.added).Nodup := by decide
  have delivers := hub_delivers hubTraffic named
  refine ⟨named, ?_, delivers.counted⟩
  exact delivers.received 5 3
    [.sendTo 6 (.friendRemoved 5), .sendTo 5 (.presenceUpdate 6), .dropReceiver 1,
      .sendTo 5 (.presenceUpdate 7), .remove 6 2]
    ⟨[.add 5 1, .add 6 2, .sendTo 5 (.friendRemoved 6)], rfl⟩ (by decide)

/-! ## The hub of a running service -/

def signalingTaken (event : Event network) : Option SignalingOperation :=
  match event.operation with
  | .signaling operation => some operation
  | _ => none

theorem performSignaling_hub (service : Service) (operation : SignalingOperation) :
    (service.performSignaling operation).2.realtime.signaling =
      operation.apply service.realtime.signaling := by
  cases operation <;> rfl

theorem occurs_hub {before after : Service} {operation : Operation} {result : operation.Result}
    (occurs : network.Occurs before operation result after)
    (other : ∀ own, operation ≠ .signaling own) :
    after.realtime.signaling = before.realtime.signaling := by
  cases operation with
  | signaling own => exact (other own rfl).elim
  | statement statement =>
      rcases occurs_statement occurs with ⟨-, -, rfl⟩ | ⟨_, _, -, -, rfl⟩
      · rfl
      · rfl
  | relay own =>
      have left := congrArg Prod.snd (occurs_relay occurs)
      subst left
      cases own <;> rfl
  | _ =>
      rcases occurs with ⟨-, performed⟩ | ⟨-, rfl⟩
      · cases performed
        rfl
      · rfl

/-- However requests are interleaved, the hub is what its operations make of an
empty one in the order they were taken. -/
theorem hub_of_run (state : AppState) (database : Database) (clock : Timestamp)
    {moves : List (Move Request)} {final : Pool network Request (Except AppError Reply)}
    (reached : run (Pool.move (handle state)) (.initial (.boot database clock)) moves =
      some final) :
    final.shared.realtime.signaling =
      (final.history.reverse.filterMap signalingTaken).foldl SignalingOperation.apply .new := by
  have traced := Pool.traced_of_run reached
  refine @Traced.invariant network _ _ _ (fun history service =>
    service.realtime.signaling =
      (history.reverse.filterMap signalingTaken).foldl SignalingOperation.apply .new)
    traced rfl ?_
  intro event older _ happened follows
  rw [List.reverse_cons, List.filterMap_append, List.foldl_append, ← follows]
  rcases event with ⟨index, before, operation, result, after⟩
  have occurs : network.Occurs before operation result after := happened
  cases operation with
  | signaling own =>
      have left := congrArg Prod.snd (occurs_signaling occurs)
      subst left
      exact performSignaling_hub before own
  | _ => exact occurs_hub occurs (by simp)

/-- In every run whose connections have distinct names, the hub delivers what
the requests sent. -/
theorem service_hub_delivers (state : AppState) (database : Database) (clock : Timestamp)
    {moves : List (Move Request)} {final : Pool network Request (Except AppError Reply)}
    (reached : run (Pool.move (handle state)) (.initial (.boot database clock)) moves =
      some final)
    (named : ((final.history.reverse.filterMap signalingTaken).filterMap
      SignalingOperation.added).Nodup) :
    final.shared.realtime.signaling.Delivers
      (final.history.reverse.filterMap signalingTaken) := by
  rw [hub_of_run state database clock reached]
  exact (SignalingHub.follows_of_operations _ named).delivers

end Loontail
