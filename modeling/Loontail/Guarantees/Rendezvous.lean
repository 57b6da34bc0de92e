import Loontail.Guarantees.RelayPairing

/-! # The rendezvous of a host and a guest

Each of the two connections first tries to take the other's socket and parks its
own when it found none. The order of the two tries and the two parks decides
whether they meet. -/

namespace Loontail

open Concurrency

def RelayRole.opposite : RelayRole → RelayRole
  | host => guest
  | guest => host

def OneOfEach (id : Uuid) (connection : RelayRole → Nat) (history : List (Event network)) :
    Prop :=
  ∀ event ∈ history, match event.operation with
    | .relay (.take other role) => other = id → event.process = connection role
    | _ => True

def NoneTimedOut (connection : RelayRole → Nat) (history : List (Event network)) : Prop :=
  ∀ event ∈ history, match event with
    | ⟨process, _, .relay (.awaitPeer _), false, _⟩ =>
        process ≠ connection .host ∧ process ≠ connection .guest
    | _ => True

def tried (id : Uuid) (role : RelayRole) (process : Nat) (history : List (Event network)) :
    Bool :=
  took history process (.relay (.take id role))

def hasParked (id : Uuid) (role : RelayRole) (process : Nat)
    (history : List (Event network)) : Bool :=
  history.any fun event => event.process = process && match event.operation with
    | .relay (.park other parkedRole _) => other = id && parkedRole = role
    | _ => false

/-- No connection tries to take while the other one has tried and not yet parked. -/
def TakesApart (id : Uuid) (connection : RelayRole → Nat) : List (Event network) → Prop
  | [] => True
  | event :: older => (match event.operation with
      | .relay (.take other role) => other = id →
          tried id role.opposite (connection role.opposite) older = true →
          hasParked id role.opposite (connection role.opposite) older = true
      | _ => True) ∧ TakesApart id connection older

/-- The connection has taken a socket, or has passed its own to `park`. -/
def Settled (id : Uuid) (role : RelayRole) (process : Nat) (history : List (Event network)) :
    Prop :=
  (∃ peer, Answered history process (.relay (.take id role)) (some peer)) ∨
    ∃ peer refused, Answered history process (.relay (.park id role peer)) refused

/-- Once both connections are settled, one has taken the other's socket, and a
socket is only refused where one of its own role waits. -/
structure Rendezvous (id : Uuid) (connection : RelayRole → Nat)
    (history : List (Event network)) : Prop where
  met : (∀ role, Settled id role (connection role) history) → ∃ role peer,
    Answered history (connection role) (.relay (.take id role)) (some peer) ∧
      Answered history (connection role.opposite) (.relay .upgrade) peer.socket
  refused : ∀ process before role peer back after,
    ⟨process, before, .relay (.park id role peer), some back, after⟩ ∈ history →
      ∃ waiter, before.realtime.relay.waiting.lookup id = some (role, waiter)

instance (id : Uuid) (connection : RelayRole → Nat) (history : List (Event network)) :
    Decidable (OneOfEach id connection history) := by
  refine @List.decidableBAll _ _ (fun event => ?_) history
  split <;> infer_instance

instance (connection : RelayRole → Nat) (history : List (Event network)) :
    Decidable (NoneTimedOut connection history) := by
  refine @List.decidableBAll _ _ (fun event => ?_) history
  split <;> infer_instance

instance TakesApart.decidable (id : Uuid) (connection : RelayRole → Nat) :
    (history : List (Event network)) → Decidable (TakesApart id connection history)
  | [] => .isTrue trivial
  | event :: older => by
      have := TakesApart.decidable id connection older
      unfold TakesApart
      refine @instDecidableAnd _ _ ?_ this
      split <;> infer_instance

/-! ## What a connection has done

The phase of a connection says whether it has tried to take, and what came of it. -/

/-- The connection tried to take, found none, and carries its own socket. -/
def Missed (history : List (Event network)) (process : Nat) (visit : RelayVisit) : Prop :=
  Answered history process (.relay (.take visit.id visit.role)) none ∧
    Answered history process (.relay .upgrade) visit.socket

def Handed (history : List (Event network)) (process : Nat) (visit : RelayVisit)
    (peer : PendingPeer) : Prop :=
  Answered history process (.relay (.take visit.id visit.role)) (some peer) ∧
    peer.done = peer.socket ∧ ∃ holder,
      Answered history holder (.relay (.take visit.id visit.role.opposite)) none ∧
        Answered history holder (.relay .upgrade) peer.socket

def NotTried (history : List (Event network)) (process : Nat) : Prop :=
  ∀ id role result, ¬Answered history process (.relay (.take id role)) result

namespace RelayPhase

def Done (history : List (Event network)) (signalled : List SocketId) (process : Nat) :
    RelayPhase → Prop
  | outside => NotTried history process
  | arriving _ => NotTried history process
  | loaded .. => NotTried history process
  | validated .. => NotTried history process
  | authenticated .. => NotTried history process
  | connected visit => NotTried history process ∧
      Answered history process (.relay .upgrade) visit.socket
  | missed visit => Missed history process visit
  | parked visit => Missed history process visit
  | awaited visit => Missed history process visit ∧
      (visit.socket ∈ signalled ∨
        Answered history process (.relay (.awaitPeer visit.socket)) false)
  | paired visit peer => Handed history process visit peer
  | tunnelling visit peer => Handed history process visit peer
  | refusing visit peer => Handed history process visit peer
  | _ => True

end RelayPhase

section Done

variable {history : List (Event network)} {event : Event network} {process : Nat}

theorem Missed.later {visit : RelayVisit} (missed : Missed history process visit) :
    Missed (event :: history) process visit :=
  ⟨missed.1.later, missed.2.later⟩

theorem Handed.later {visit : RelayVisit} {peer : PendingPeer}
    (handed : Handed history process visit peer) :
    Handed (event :: history) process visit peer := by
  rcases handed with ⟨took, done, holder, missed, upgraded⟩
  exact ⟨took.later, done, holder, missed.later, upgraded.later⟩

theorem NotTried.later (notTried : NotTried history process)
    (other : ∀ id role, event.process = process →
      event.operation ≠ .relay (.take id role)) : NotTried (event :: history) process := by
  intro id role result answered
  rcases answered_cons answered with ⟨_, _, rfl⟩ | earlier
  · exact other id role rfl rfl
  · exact notTried id role result earlier

namespace RelayPhase

theorem Done.later {phase : RelayPhase} {signalled more : List SocketId}
    (done : phase.Done history signalled process) (different : event.process ≠ process)
    (within : ∀ socket ∈ signalled, socket ∈ more) :
    phase.Done (event :: history) more process := by
  have untried (notTried : NotTried history process) : NotTried (event :: history) process :=
    notTried.later fun _ _ same => (different same).elim
  cases phase with
  | outside => exact untried done
  | arriving id => exact untried done
  | loaded id relay => exact untried done
  | validated id relay ticketId => exact untried done
  | authenticated id relay role => exact untried done
  | connected visit => exact ⟨untried done.1, done.2.later⟩
  | missed visit => exact Missed.later done
  | parked visit => exact Missed.later done
  | awaited visit =>
      refine ⟨Missed.later done.1, ?_⟩
      rcases done.2 with reported | passed
      · exact .inl (within _ reported)
      · exact .inr passed.later
  | paired visit peer => exact Handed.later done
  | tunnelling visit peer => exact Handed.later done
  | refusing visit peer => exact Handed.later done
  | _ => trivial

variable {before after : Service} {operation : Operation} {result : operation.Result}

theorem connected_of_takes {phase : RelayPhase} {id : Uuid} {role : RelayRole}
    (allowed : phase.allows (.relay (.take id role))) :
    ∃ visit, phase = .connected visit ∧ id = visit.id ∧ role = visit.role := by
  cases phase with
  | connected visit =>
      cases allowed
      exact ⟨visit, rfl, rfl, rfl⟩
  | outside => exact (allowed.1 rfl).elim
  | tunnelling visit other => simp [allows, Operation.purpose] at allowed
  | released visit => simp [allows, Operation.purpose] at allowed
  | refusing visit other => simp [allows] at allowed
  | loaded id relay => simp [allows] at allowed
  | _ => cases allowed

theorem awaited_of_removes {phase : RelayPhase} {id : Uuid}
    (allowed : phase.allows (.relay (.removeWaiting id))) :
    ∃ visit, phase = .awaited visit ∧ id = visit.id := by
  cases phase with
  | awaited visit =>
      cases allowed
      exact ⟨visit, rfl, rfl⟩
  | outside => exact (allowed.1 rfl).elim
  | tunnelling visit other => simp [allows, Operation.purpose] at allowed
  | released visit => simp [allows, Operation.purpose] at allowed
  | refusing visit other => simp [allows] at allowed
  | loaded id relay => simp [allows] at allowed
  | _ => cases allowed

def Attended (history : List (Event network)) (hub : RelayHub) : Prop :=
  ∀ id role peer, hub.waiting.lookup id = some (role, peer) →
    peer.done = peer.socket ∧ ∃ holder,
      Answered history holder (.relay (.take id role)) none ∧
        Answered history holder (.relay .upgrade) peer.socket

theorem done_after {phase : RelayPhase}
    (done : phase.Done history before.signalled process) (allowed : phase.allows operation)
    (occurs : network.Occurs before operation result after)
    (attended : Attended history before.realtime.relay) :
    (phase.after operation result).Done
      (⟨process, before, operation, result, after⟩ :: history) after.signalled process := by
  have now : @Answered network (⟨process, before, operation, result, after⟩ :: history)
      process operation result := ⟨before, after, List.mem_cons_self⟩
  have untried (notTried : NotTried history process)
      (other : ∀ id role, operation ≠ .relay (.take id role)) :
      NotTried (⟨process, before, operation, result, after⟩ :: history) process :=
    notTried.later fun id role _ => other id role
  cases phase with
  | outside =>
      refine untried done fun id role same => allowed.1 ?_
      rw [same]
      rfl
  | arriving id =>
      cases allowed
      have kept := untried done (by simp)
      cases result with
      | error failure => trivial
      | ok row =>
          cases row with
          | none => trivial
          | some relay => exact kept
  | loaded id relay =>
      rcases allowed with ⟨tokenHash, rfl⟩ | ⟨ticketId, tokenHash, named, rfl⟩
      · have kept := untried done (by simp)
        cases result with
        | error failure => trivial
        | ok row =>
            cases row with
            | none => trivial
            | some user =>
                change (afterUser id relay user).Done _ _ _
                rcases afterUser_cases id relay user with ⟨-, next⟩ | next
                · rw [next]
                  exact kept
                · rw [next]
                  trivial
      · have kept := untried done (by simp)
        cases result with
        | error failure => trivial
        | ok valid =>
            cases valid with
            | false => trivial
            | true => exact kept
  | validated id relay ticketId =>
      cases allowed
      have kept := untried done (by simp)
      cases result with
      | error failure => trivial
      | ok count => exact kept
  | authenticated id relay role =>
      cases allowed
      exact ⟨untried done (by simp), now⟩
  | connected visit =>
      cases allowed
      have taken := occurs_take occurs
      cases result with
      | none => exact ⟨now, done.2.later⟩
      | some peer =>
          rcases RelayHub.take_some taken with ⟨role, found, opposite, -⟩
          have turned : role = visit.role.opposite := by
            cases role <;> cases own : visit.role <;> simp_all [RelayRole.opposite]
          subst turned
          rcases attended _ _ _ found with ⟨same, holder, missed, upgraded⟩
          exact ⟨now, same, holder, missed.later, upgraded.later⟩
  | missed visit =>
      cases allowed
      cases result with
      | none => exact Missed.later done
      | some back => trivial
  | parked visit =>
      cases allowed
      refine ⟨Missed.later done, ?_⟩
      have performed := occurs_relay occurs
      cases performed
      cases reported : before.signalled.contains visit.socket with
      | true => exact .inl (by simpa using reported)
      | false =>
          rw [reported] at now
          exact .inr now
  | awaited visit =>
      cases allowed
      trivial
  | paired visit peer =>
      cases allowed
      change (afterAdmit visit peer result).Done _ _ _
      rcases afterAdmit_cases visit peer result with ⟨-, -, -, next⟩ | next
      · rw [next]
        exact Handed.later done
      · rw [next]
        exact Handed.later done
  | tunnelling visit peer =>
      rcases after_tunnelling visit peer operation result with next | next
      · rw [next]
        exact Handed.later done
      · rw [next]
        trivial
  | refusing visit peer => exact Handed.later done
  | released visit => trivial
  | finished => cases allowed

end RelayPhase

end Done

/-! ## What the connections of a run have done -/

def Waits (owner : Nat → Option Request) (history : List (Event network)) (id : Uuid)
    (role : RelayRole) (peer : PendingPeer) : Prop :=
  ∃ index request visit, owner index = some request ∧
    (relayProtocol.phase request index history = .parked visit ∨
      relayProtocol.phase request index history = .awaited visit) ∧
    id = visit.id ∧ role = visit.role ∧ peer = ⟨visit.socket, visit.socket⟩

structure Course (owner : Nat → Option Request) (history : List (Event network))
    (service : Service) : Prop where
  done : ∀ index request, owner index = some request →
    (relayProtocol.phase request index history).Done history service.signalled index
  once : ∀ process id role result other otherRole otherResult,
    Answered history process (.relay (.take id role)) result →
    Answered history process (.relay (.take other otherRole)) otherResult →
      id = other ∧ role = otherRole ∧ result = otherResult
  slots : ∀ id role peer, service.realtime.relay.waiting.lookup id = some (role, peer) →
    Waits owner history id role peer
  signalled : ∀ socket ∈ service.signalled, ∃ taker holder id role peer,
    Answered history taker (.relay (.take id role)) (some peer) ∧
      Answered history holder (.relay (.take id role.opposite)) none ∧
      Answered history holder (.relay .upgrade) socket

section Course

variable {owner : Nat → Option Request} {history : List (Event network)}
  {process : Nat} {request : Request} {before after : Service} {operation : Operation}
  {result : operation.Result}

theorem Course.missed_of_waits (course : Course owner history before) {index : Nat}
    {request : Request} {visit : RelayVisit} (owned : owner index = some request)
    (phase : relayProtocol.phase request index history = .parked visit ∨
      relayProtocol.phase request index history = .awaited visit) :
    Missed history index visit := by
  have done := course.done index request owned
  rcases phase with phase | phase
  · rw [phase] at done
    exact done
  · rw [phase] at done
    exact done.1

theorem Course.attended (course : Course owner history before) :
    RelayPhase.Attended history before.realtime.relay := by
  intro id role peer found
  rcases course.slots id role peer found with ⟨index, request, visit, owned, phase, rfl, rfl, rfl⟩
  have missed := course.missed_of_waits owned phase
  exact ⟨rfl, index, missed.1, missed.2⟩

theorem signalled_after {phase : RelayPhase}
    (done : phase.Done history before.signalled process) (allowed : phase.allows operation)
    (occurs : network.Occurs before operation result after) :
    ∀ socket ∈ after.signalled, socket ∈ before.signalled ∨
      ∃ visit peer, Handed history process visit peer ∧ socket = peer.done := by
  intro socket member
  by_cases relay : ∃ own, operation = .relay own
  · rcases relay with ⟨own, rfl⟩
    have performed := occurs_relay occurs
    cases own with
    | signalDone reported =>
        cases performed
        rcases List.mem_cons.mp member with rfl | earlier
        · right
          cases phase with
          | tunnelling visit peer =>
              have same : socket = peer.done := by
                simpa [RelayPhase.allows, Operation.purpose] using allowed
              exact ⟨visit, peer, done, same⟩
          | refusing visit peer =>
              have same : socket = peer.done := by
                simpa [RelayPhase.allows] using allowed
              exact ⟨visit, peer, done, same⟩
          | outside => exact (allowed.1 rfl).elim
          | released visit => simp [RelayPhase.allows, Operation.purpose] at allowed
          | loaded id relay => simp [RelayPhase.allows] at allowed
          | _ => cases allowed
        · exact .inl earlier
    | _ =>
        cases performed
        exact .inl member
  · have untouched := (occurs_relay_untouched (fun own same => relay ⟨own, same⟩) occurs).2.2
    exact .inl (untouched ▸ member)

theorem phase_now (request : Request) :
    relayProtocol.phase request process
        (⟨process, before, operation, result, after⟩ :: history) =
      (relayProtocol.phase request process history).after operation result :=
  Protocol.phase_cons_own request ⟨process, before, operation, result, after⟩ history

theorem phase_elsewhere (request : Request) {index : Nat} (different : index ≠ process) :
    relayProtocol.phase request index
        (⟨process, before, operation, result, after⟩ :: history) =
      relayProtocol.phase request index history :=
  Protocol.phase_cons_other request ⟨process, before, operation, result, after⟩
    (Ne.symm different) history

/-- A waiting connection waits on, until it removes what waits in its slot. -/
theorem Course.waits_after (course : Course owner history before)
    (occurs : network.Occurs before operation result after)
    (owned : owner process = some request)
    (allowed : (relayProtocol.phase request process history).allows operation)
    {id : Uuid} {role : RelayRole} {peer : PendingPeer}
    (found : after.realtime.relay.waiting.lookup id = some (role, peer)) :
    Waits owner (⟨process, before, operation, result, after⟩ :: history) id role peer := by
  rcases waiting_after occurs found with earlier | ⟨rfl, none⟩
  · rcases course.slots id role peer earlier with
      ⟨index, other, visit, ownedOther, phase, rfl, rfl, rfl⟩
    by_cases own : index = process
    · subst own
      cases Option.some.inj (owned.symm.trans ownedOther)
      rcases phase with phase | phase
      · rw [phase] at allowed
        cases allowed
        exact ⟨index, request, visit, owned, .inr (by rw [phase_now, phase]; rfl), rfl, rfl, rfl⟩
      · rw [phase] at allowed
        cases allowed
        have performed := occurs_relay occurs
        cases performed
        have vacant : (before.realtime.relay.waiting.erase visit.id).lookup visit.id = none :=
          AList.lookup_erase _ _
        exact nomatch vacant.symm.trans found
    · refine ⟨index, other, visit, ownedOther, ?_, rfl, rfl, rfl⟩
      rw [phase_elsewhere other own]
      exact phase
  · rcases RelayPhase.missed_of_parks allowed with ⟨visit, phase, rfl, rfl, rfl⟩
    cases eq_of_heq none
    exact ⟨process, request, visit, owned, .inl (by rw [phase_now, phase]; rfl), rfl, rfl, rfl⟩

theorem Course.event (course : Course owner history before)
    (occurs : network.Occurs before operation result after)
    (owned : owner process = some request)
    (allowed : (relayProtocol.phase request process history).allows operation) :
    Course owner (⟨process, before, operation, result, after⟩ :: history) after := by
  have reports := signalled_after (course.done process request owned) allowed occurs
  have within : ∀ socket ∈ before.signalled, socket ∈ after.signalled := by
    intro socket member
    by_cases relay : ∃ own, operation = .relay own
    · rcases relay with ⟨own, rfl⟩
      have performed := occurs_relay occurs
      cases own <;> cases performed <;> simp [member, Service.withRelay]
    · have untouched := (occurs_relay_untouched (fun own same => relay ⟨own, same⟩) occurs).2.2
      exact untouched ▸ member
  refine ⟨?_, ?_, fun id role peer found => course.waits_after occurs owned allowed found, ?_⟩
  · intro index other ownedOther
    by_cases own : index = process
    · subst own
      rw [Option.some.inj (ownedOther.symm.trans owned), phase_now]
      exact RelayPhase.done_after (course.done index request owned) allowed occurs
        course.attended
    · rw [phase_elsewhere other own]
      exact (course.done index other ownedOther).later (Ne.symm own) within
  · -- a connection tries to take once, from the phase in which it has not tried
    have untried (id : Uuid) (role : RelayRole) (same : operation = .relay (.take id role)) :
        NotTried history process := by
      subst same
      rcases RelayPhase.connected_of_takes allowed with ⟨visit, phase, -, -⟩
      have done := course.done process request owned
      rw [phase] at done
      exact done.1
    intro index id role first other otherRole second answered again
    rcases answered_cons answered with ⟨_, _, now⟩ | earlier
    · cases now
      rcases answered_cons again with ⟨_, _, now⟩ | earlier
      · cases now
        exact ⟨rfl, rfl, rfl⟩
      · exact (untried id role rfl other otherRole second earlier).elim
    · rcases answered_cons again with ⟨_, _, now⟩ | also
      · cases now
        exact (untried other otherRole rfl id role first earlier).elim
      · exact course.once index id role first other otherRole second earlier also
  · intro socket member
    rcases reports socket member with earlier | ⟨visit, peer, handed, rfl⟩
    · rcases course.signalled socket earlier with
        ⟨taker, holder, id, role, peer, took, missed, upgraded⟩
      exact ⟨taker, holder, id, role, peer, took.later, missed.later, upgraded.later⟩
    · rcases handed with ⟨took, same, holder, missed, upgraded⟩
      exact ⟨process, holder, visit.id, visit.role, peer, took.later, missed.later,
        same ▸ upgraded.later⟩

theorem Course.of_trace {start final : Service} (traced : Traced start history final)
    (vacant : start.realtime.relay = .new) (silent : start.signalled = [])
    (obeyed : ∀ event older, event :: older <:+ history → ∃ request,
      owner event.process = some request ∧
        (relayProtocol.phase request event.process older).allows event.operation) :
    Course owner history final := by
  refine @Traced.invariant network _ _ _ (Course owner) traced ?_ ?_
  · have untried (index : Nat) : NotTried [] index := by
      intro id role result answered
      simp [Answered] at answered
    refine ⟨fun index request _ => ?_, ?_, ?_, ?_⟩
    · cases request with
      | relay id params => exact untried index
      | _ => exact untried index
    · intro process id role result other otherRole otherResult answered
      exact (untried process id role result answered).elim
    · intro id role peer found
      rw [vacant] at found
      cases found
    · intro socket member
      rw [silent] at member
      cases member
  · intro event older suffix happened course
    rcases obeyed event older suffix with ⟨request, owned, allowed⟩
    exact course.event happened owned allowed

end Course

/-! ## The two connections -/

@[simp] theorem RelayRole.opposite_opposite (role : RelayRole) :
    role.opposite.opposite = role := by
  cases role <;> rfl

theorem RelayRole.opposite_of_ne {role other : RelayRole} (different : other ≠ role) :
    other = role.opposite := by
  cases role <;> cases other <;> simp_all [opposite]

theorem tried_iff {id : Uuid} {role : RelayRole} {process : Nat}
    {history : List (Event network)} : tried id role process history = true ↔
      ∃ result, Answered history process (.relay (.take id role)) result := took_iff

theorem hasParked_iff {id : Uuid} {role : RelayRole} {process : Nat}
    {history : List (Event network)} : hasParked id role process history = true ↔
      ∃ peer refused, Answered history process (.relay (.park id role peer)) refused := by
  simp only [hasParked, List.any_eq_true, Bool.and_eq_true, decide_eq_true_eq]
  constructor
  · rintro ⟨⟨_, before, operation, result, after⟩, member, rfl, parked⟩
    simp only at parked
    split at parked
    · simp only [Bool.and_eq_true, decide_eq_true_eq] at parked
      rcases parked with ⟨rfl, rfl⟩
      exact ⟨_, result, before, after, member⟩
    · cases parked
  · rintro ⟨peer, refused, before, after, member⟩
    exact ⟨_, member, rfl, by simp⟩

theorem TakesApart.of_suffix {id : Uuid} {connection : RelayRole → Nat}
    {shorter history : List (Event network)} (suffix : shorter <:+ history)
    (apart : TakesApart id connection history) : TakesApart id connection shorter := by
  induction history with
  | nil => exact List.suffix_nil.mp suffix ▸ apart
  | cons event older induction =>
      rcases List.suffix_cons_iff.mp suffix with rfl | within
      · exact apart
      · exact induction within apart.2

def Met (id : Uuid) (connection : RelayRole → Nat) (history : List (Event network)) : Prop :=
  ∃ role peer, Answered history (connection role) (.relay (.take id role)) (some peer) ∧
    Answered history (connection role.opposite) (.relay .upgrade) peer.socket

/-- Two connections that tried have met, and one that parked before the other
tried is still waiting for it. -/
structure Meeting (id : Uuid) (connection : RelayRole → Nat) (history : List (Event network))
    (service : Service) : Prop where
  met : (∀ role, ∃ result,
      Answered history (connection role) (.relay (.take id role)) result) →
    Met id connection history
  waits : ∀ role, hasParked id role.opposite (connection role.opposite) history = true →
    tried id role (connection role) history = false →
      ∃ peer, service.realtime.relay.waiting.lookup id = some (role.opposite, peer)

section Meeting

variable {id : Uuid} {connection : RelayRole → Nat} {owner : Nat → Option Request}
  {history : List (Event network)} {process : Nat} {request : Request}
  {start before after : Service} {operation : Operation} {result : operation.Result}

theorem OneOfEach.process_eq (each : OneOfEach id connection history) {role : RelayRole}
    {peer : Option PendingPeer}
    (answered : Answered history process (.relay (.take id role)) peer) :
    process = connection role := by
  rcases answered with ⟨before, after, member⟩
  exact each _ member rfl

theorem OneOfEach.mono {longer : List (Event network)} (within : history ⊆ longer)
    (each : OneOfEach id connection longer) : OneOfEach id connection history :=
  fun event member => each event (within member)

theorem NoneTimedOut.mono {longer : List (Event network)} (within : history ⊆ longer)
    (patient : NoneTimedOut connection longer) : NoneTimedOut connection history :=
  fun event member => patient event (within member)

theorem Course.holder (course : Course owner history before)
    (each : OneOfEach id connection history) {role : RelayRole} {peer : PendingPeer}
    (found : before.realtime.relay.waiting.lookup id = some (role, peer)) :
    Answered history (connection role) (.relay (.take id role)) none ∧
      Answered history (connection role) (.relay .upgrade) peer.socket ∧
      ∃ request visit, owner (connection role) = some request ∧
        (relayProtocol.phase request (connection role) history = .parked visit ∨
          relayProtocol.phase request (connection role) history = .awaited visit) := by
  rcases course.slots id role peer found with ⟨index, request, visit, owned, phase, rfl, rfl, rfl⟩
  have missed := course.missed_of_waits owned phase
  have own := each.process_eq missed.1
  subst own
  exact ⟨missed.1, missed.2, request, visit, owned, phase⟩

theorem waiting_kept (occurs : network.Occurs before operation result after)
    {slot : RelayRole × PendingPeer}
    (found : before.realtime.relay.waiting.lookup id = some slot) :
    after.realtime.relay.waiting.lookup id = some slot ∨
      (∃ role, operation = .relay (.take id role) ∧ role ≠ slot.1) ∨
      operation = .relay (.removeWaiting id) := by
  by_cases relay : ∃ own, operation = .relay own
  · rcases relay with ⟨own, rfl⟩
    have performed := occurs_relay occurs
    cases own with
    | take other role =>
        have taken := occurs_take occurs
        cases result with
        | none => exact .inl ((RelayHub.take_none taken).1 ▸ found)
        | some peer =>
            rcases RelayHub.take_some taken with ⟨parkedRole, there, opposite, left⟩
            by_cases same : id = other
            · subst same
              cases there.symm.trans found
              exact .inr (.inl ⟨role, rfl, Ne.symm opposite⟩)
            · rw [left]
              exact .inl ((AList.lookup_erase_ne same).trans found)
    | removeWaiting other =>
        cases performed
        by_cases same : id = other
        · subst same
          exact .inr (.inr rfl)
        · exact .inl ((AList.lookup_erase_ne same).trans found)
    | park other role peer =>
        have parked := occurs_park occurs
        cases result with
        | some back => exact .inl ((RelayHub.park_refused parked).2.1 ▸ found)
        | none =>
            rcases RelayHub.park_accepted parked with ⟨vacant, left⟩
            have different : id ≠ other := by
              rintro rfl
              exact nomatch vacant.symm.trans found
            rw [left]
            exact .inl ((AList.lookup_insert_ne different).trans found)
    | _ =>
        cases performed
        exact .inl found
  · have untouched : after.realtime.relay = before.realtime.relay :=
      (occurs_relay_untouched (fun own same => relay ⟨own, same⟩) occurs).1
    exact .inl (untouched ▸ found)

theorem Course.taken_of_awaited (course : Course owner history before)
    (traced : Traced start history before) (each : OneOfEach id connection history)
    (patient : NoneTimedOut connection history) {role : RelayRole} {visit : RelayVisit}
    (owned : owner (connection role) = some request)
    (phase : relayProtocol.phase request (connection role) history = .awaited visit)
    (here : visit.id = id) (own : visit.role = role) :
    ∃ peer, Answered history (connection role.opposite) (.relay (.take id role.opposite))
      (some peer) := by
  have done := course.done _ request owned
  rw [phase] at done
  rcases done with ⟨missed, reported | ⟨_, _, passed⟩⟩
  · rcases course.signalled _ reported with
      ⟨taker, holder, there, takerRole, peer, took, tried, upgraded⟩
    cases (sockets_of_trace traced).2 _ _ _ upgraded missed.2
    rcases course.once _ _ _ _ _ _ _ tried missed.1 with ⟨rfl, turned, -⟩
    have opposite : takerRole = role.opposite := by
      rw [← own, ← turned, RelayRole.opposite_opposite]
    subst here
    subst opposite
    have taker := each.process_eq took
    exact ⟨peer, taker ▸ took⟩
  · have inTime := patient _ passed
    cases role with
    | host => exact (inTime.1 rfl).elim
    | guest => exact (inTime.2 rfl).elim

theorem Met.later {event : Event network} (met : Met id connection history) :
    Met id connection (event :: history) := by
  rcases met with ⟨role, peer, took, upgraded⟩
  exact ⟨role, peer, took.later, upgraded.later⟩

/-- The second of the two to try finds the socket of the first. -/
theorem Meeting.met_after (meeting : Meeting id connection history before)
    (course : Course owner history before)
    (occurs : network.Occurs before operation result after)
    (owned : owner process = some request)
    (allowed : (relayProtocol.phase request process history).allows operation)
    (each : OneOfEach id connection (⟨process, before, operation, result, after⟩ :: history))
    (apart : TakesApart id connection
      (⟨process, before, operation, result, after⟩ :: history))
    (both : ∀ role, ∃ taken, Answered (⟨process, before, operation, result, after⟩ :: history)
      (connection role) (.relay (.take id role)) taken) :
    Met id connection (⟨process, before, operation, result, after⟩ :: history) := by
  have earlierEach : OneOfEach id connection history := each.mono (List.subset_cons_self _ _)
  by_cases takes : ∃ role, operation = .relay (.take id role)
  · have now : @Answered network (⟨process, before, operation, result, after⟩ :: history)
        process operation result := ⟨before, after, List.mem_cons_self⟩
    rcases takes with ⟨role, rfl⟩
    have own := each.process_eq now
    subst own
    have other : tried id role.opposite (connection role.opposite) history = true := by
      rcases both role.opposite with ⟨taken, answered⟩
      rcases answered_cons answered with ⟨_, _, same⟩ | earlier
      · have turned := congrArg Event.operation same
        cases role <;> cases turned
      · exact tried_iff.mpr ⟨taken, earlier⟩
    have fresh : tried id role (connection role) history = false := by
      rcases RelayPhase.connected_of_takes allowed with ⟨visit, phase, -, -⟩
      have done := course.done (connection role) request owned
      rw [phase] at done
      refine Bool.eq_false_iff.mpr fun before => ?_
      rcases tried_iff.mp before with ⟨taken, answered⟩
      exact done.1 _ _ _ answered
    rcases meeting.waits role (apart.1 rfl other) fresh with ⟨peer, found⟩
    have upgraded := (course.holder earlierEach found).2.1
    have taken := occurs_take occurs
    cases result with
    | none =>
        have same := (RelayHub.take_none taken).2 _ _ found
        cases role <;> cases same
    | some peerTaken =>
        rcases RelayHub.take_some taken with ⟨_, there, -, -⟩
        cases found.symm.trans there
        exact ⟨role, peer, now, upgraded.later⟩
  · refine (meeting.met fun role => ?_).later
    rcases both role with ⟨taken, answered⟩
    rcases answered_cons answered with ⟨_, _, same⟩ | earlier
    · cases same
      exact (takes ⟨role, rfl⟩).elim
    · exact ⟨taken, earlier⟩

theorem Meeting.waits_after (meeting : Meeting id connection history before)
    (course : Course owner history before) (traced : Traced start history before)
    (occurs : network.Occurs before operation result after)
    (owned : owner process = some request)
    (allowed : (relayProtocol.phase request process history).allows operation)
    (each : OneOfEach id connection (⟨process, before, operation, result, after⟩ :: history))
    (patient : NoneTimedOut connection history) {role : RelayRole}
    (parked : hasParked id role.opposite (connection role.opposite)
      (⟨process, before, operation, result, after⟩ :: history) = true)
    (fresh : tried id role (connection role)
      (⟨process, before, operation, result, after⟩ :: history) = false) :
    ∃ peer, after.realtime.relay.waiting.lookup id = some (role.opposite, peer) := by
  have earlierEach : OneOfEach id connection history := each.mono (List.subset_cons_self _ _)
  have untried (taken : Option PendingPeer)
      (answered : Answered (⟨process, before, operation, result, after⟩ :: history)
        (connection role) (.relay (.take id role)) taken) : False :=
    Bool.false_ne_true (fresh.symm.trans (tried_iff.mpr ⟨taken, answered⟩))
  have now : @Answered network (⟨process, before, operation, result, after⟩ :: history)
      process operation result := ⟨before, after, List.mem_cons_self⟩
  rcases hasParked_iff.mp parked with ⟨peer, refused, answered⟩
  rcases answered_cons answered with ⟨_, _, same⟩ | earlier
  · cases same
    have performed := occurs_park occurs
    cases refused with
    | none =>
        refine ⟨peer, ?_⟩
        rw [(RelayHub.park_accepted performed).2]
        exact AList.lookup_insert _
    | some back =>
        rcases (RelayHub.park_refused performed).2.2 with ⟨⟨parkedRole, waiter⟩, found⟩
        rcases course.holder earlierEach found with ⟨missed, -, other, visit, ownedOther, phase⟩
        by_cases same : parkedRole = role
        · subst same
          exact (untried none missed.later).elim
        · rcases RelayPhase.missed_of_parks allowed with ⟨_, current, -, -, -⟩
          rw [RelayRole.opposite_of_ne same] at ownedOther phase
          cases Option.some.inj (owned.symm.trans ownedOther)
          rw [current] at phase
          exact nomatch phase
  · have before_fresh : tried id role (connection role) history = false := by
      refine Bool.eq_false_iff.mpr fun before => ?_
      rcases tried_iff.mp before with ⟨taken, answered⟩
      exact untried taken answered.later
    rcases meeting.waits role (hasParked_iff.mpr ⟨peer, refused, earlier⟩) before_fresh with
      ⟨waiter, found⟩
    rcases waiting_kept occurs found with kept | ⟨taking, rfl, different⟩ | rfl
    · exact ⟨waiter, kept⟩
    · have turned : taking = role := by
        rw [RelayRole.opposite_of_ne different, RelayRole.opposite_opposite]
      subst turned
      exact (untried result (each.process_eq now ▸ now)).elim
    · rcases RelayPhase.awaited_of_removes allowed with ⟨visit, phase, rfl⟩
      have missed := course.missed_of_waits owned (.inr phase)
      have own := earlierEach.process_eq missed.1
      by_cases same : visit.role = role
      · subst same
        exact (untried none (own ▸ missed.1.later)).elim
      · rw [RelayRole.opposite_of_ne same] at own
        subst own
        rcases course.taken_of_awaited traced earlierEach patient owned phase rfl
          (RelayRole.opposite_of_ne same) with ⟨taken, answered⟩
        rw [RelayRole.opposite_opposite] at answered
        exact (untried _ answered.later).elim

theorem Meeting.of_trace {final : Service} (traced : Traced start history final)
    (vacant : start.realtime.relay = .new) (silent : start.signalled = [])
    (obeyed : ∀ event older, event :: older <:+ history → ∃ request,
      owner event.process = some request ∧
        (relayProtocol.phase request event.process older).allows event.operation)
    (each : OneOfEach id connection history) (patient : NoneTimedOut connection history)
    (apart : TakesApart id connection history) : Meeting id connection history final := by
  refine @Traced.invariant network _ _ _ (Meeting id connection) traced ?_ ?_
  · refine ⟨fun both => ?_, fun role parked => ?_⟩
    · rcases both .host with ⟨_, answered⟩
      simp [Answered] at answered
    · simp [hasParked] at parked
  · intro event older suffix happened meeting
    rcases obeyed event older suffix with ⟨request, owned, allowed⟩
    have earlier := (traced.of_suffix suffix).1
    have course := Course.of_trace earlier vacant silent fun event rest within =>
      obeyed event rest (within.trans ((List.suffix_cons _ _).trans suffix))
    have within : event :: older ⊆ history := suffix.subset
    have eachNow := each.mono within
    constructor
    · exact meeting.met_after course happened owned allowed eachNow (apart.of_suffix suffix)
    · intro role parked fresh
      refine meeting.waits_after course earlier happened owned allowed eachNow ?_ parked fresh
      exact patient.mono fun other member => within (List.mem_cons_of_mem _ member)

end Meeting

/-! ## Every run -/

/-- A host and a guest that try to take one after the other's park meet, and
neither is refused by the other. -/
theorem rendezvous_when_apart (state : AppState) (database : Database) (clock : Timestamp)
    {moves : List (Move Request)} {final : Pool network Request (Except AppError Reply)}
    (reached : run (Pool.move (handle state)) (.initial (.boot database clock)) moves =
      some final) {id : Uuid} {connection : RelayRole → Nat}
    (each : OneOfEach id connection final.history)
    (patient : NoneTimedOut connection final.history)
    (apart : TakesApart id connection final.history) :
    Rendezvous id connection final.history := by
  have traced := Pool.traced_of_run reached
  have obeyed (event : Event network) (older : List (Event network))
      (suffix : event :: older <:+ final.history) :=
    Pool.allowed_in_phase (handle_courses state) reached suffix
  have course (event : Event network) (older : List (Event network))
      (suffix : event :: older <:+ final.history) :
      Course final.owner older event.before :=
    Course.of_trace (traced.of_suffix suffix).1 rfl rfl fun event rest within =>
      obeyed event rest (within.trans ((List.suffix_cons _ _).trans suffix))
  -- whoever parks has tried before, and found none
  have parks (process : Nat) (role : RelayRole) (peer : PendingPeer)
      (event : Event network) (older : List (Event network))
      (suffix : event :: older <:+ final.history) (own : event.process = process)
      (parking : event.operation = .relay (.park id role peer)) :
      Answered older process (.relay (.take id role)) none ∧
        ∃ request visit, final.owner process = some request ∧
          relayProtocol.phase request process older = .missed visit := by
    rcases obeyed event older suffix with ⟨request, owned, allowed⟩
    rw [parking] at allowed
    subst own
    rcases RelayPhase.missed_of_parks allowed with ⟨visit, phase, rfl, rfl, rfl⟩
    have done := (course event older suffix).done event.process request owned
    rw [phase] at done
    exact ⟨done.1, request, visit, owned, phase⟩
  have meeting := Meeting.of_trace traced rfl rfl obeyed each patient apart
  constructor
  · intro settled
    refine meeting.met fun role => ?_
    rcases settled role with ⟨peer, took⟩ | ⟨peer, refused, before, after, member⟩
    · exact ⟨some peer, took⟩
    · rcases suffix_of_mem member with ⟨older, suffix⟩
      have tried := (parks _ role peer _ older suffix rfl rfl).1
      exact ⟨none, tried.mono fun event member =>
        suffix.subset (List.mem_cons_of_mem _ member)⟩
  · intro process before role peer back after member
    rcases suffix_of_mem member with ⟨older, suffix⟩
    have occurs : network.Occurs before (.relay (.park id role peer)) (some back) after :=
      (traced.of_suffix suffix).2
    have parked := occurs_park occurs
    rcases (RelayHub.park_refused parked).2.2 with ⟨⟨parkedRole, waiter⟩, found⟩
    by_cases same : parkedRole = role
    · exact ⟨waiter, same ▸ found⟩
    · have within : older ⊆ final.history := fun event member =>
        suffix.subset (List.mem_cons_of_mem _ member)
      have here := course _ older suffix
      have missed := (parks process role peer _ older suffix rfl rfl).1
      have waiting := (here.holder (each.mono within) found).1
      rw [RelayRole.opposite_of_ne same] at waiting
      rw [(each.mono within).process_eq missed] at missed
      -- both have missed, so they have not met, though both have tried
      have earlier := Meeting.of_trace (traced.of_suffix suffix).1 rfl rfl
        (fun event rest inner => obeyed event rest
          (inner.trans ((List.suffix_cons _ _).trans suffix)))
        (each.mono within) (patient.mono within)
        (apart.of_suffix ((List.suffix_cons _ _).trans suffix))
      rcases earlier.met (fun party => by
        by_cases own : party = role
        · exact ⟨none, own ▸ missed⟩
        · exact ⟨none, RelayRole.opposite_of_ne own ▸ waiting⟩) with ⟨party, taken, took, -⟩
      by_cases own : party = role
      · subst own
        exact nomatch (here.once _ _ _ _ _ _ _ took missed).2.2
      · rw [RelayRole.opposite_of_ne own] at took
        exact nomatch (here.once _ _ _ _ _ _ _ took waiting).2.2

/-- The host is the first process of a run, the guest the second. -/
def inOrder : RelayRole → Nat
  | .host => 0
  | .guest => 1

/-- The host has parked before the guest tries. -/
theorem rendezvous_when_apart_tunnel :
    ∃ final, run (Pool.move (handle plainState)) (.initial (.boot hostedDatabase 0))
        hostAndGuest = some final ∧
      (hasParked 4 .host 0 final.history ∧ tried 4 .guest 1 final.history) ∧
      Rendezvous 4 inOrder final.history := by
  have fair : ((run (Pool.move (handle plainState)) (.initial (.boot hostedDatabase 0))
      hostAndGuest).map fun final => decide (
        (hasParked 4 .host 0 final.history ∧ tried 4 .guest 1 final.history) ∧
        OneOfEach 4 inOrder final.history ∧ NoneTimedOut inOrder final.history ∧
        TakesApart 4 inOrder final.history)) = some true := by decide +kernel
  rcases Option.map_eq_some_iff.mp fair with ⟨final, reached, holds⟩
  rcases of_decide_eq_true holds with ⟨order, each, patient, apart⟩
  exact ⟨final, reached, order, rendezvous_when_apart plainState hostedDatabase 0 reached each
    patient apart⟩

/-- Host and guest both try before either parks. -/
def crossed : List (Move Request) :=
  [.start (.relay 4 ⟨some "session", "host"⟩), .advance 0, .advance 0, .advance 0,
   .advance 0,
   .start (.relay 4 ⟨some "ticket", "guest"⟩), .advance 1, .advance 1, .advance 1,
   .advance 1, .advance 1, .advance 0, .advance 1]

def tookNone (history : List (Event network)) : Bool :=
  history.all fun event => match event with
    | ⟨_, _, .relay (.take _ _), some _, _⟩ => false
    | _ => true

/-- The host waits alone, and the guest, its ticket consumed, is refused. -/
theorem rendezvous_missed :
    ¬∀ (state : AppState) (database : Database) (clock : Timestamp)
      (moves : List (Move Request)) (final : Pool network Request (Except AppError Reply)),
      run (Pool.move (handle state)) (.initial (.boot database clock)) moves = some final →
      ∀ (id : Uuid) (connection : RelayRole → Nat), OneOfEach id connection final.history →
        NoneTimedOut connection final.history → Rendezvous id connection final.history := by
  intro meets
  have missed : ((run (Pool.move (handle plainState)) (.initial (.boot hostedDatabase 0))
      crossed).map fun final => decide (
        OneOfEach 4 inOrder final.history ∧ NoneTimedOut inOrder final.history ∧
        hasParked 4 .host 0 final.history ∧ hasParked 4 .guest 1 final.history ∧
        tookNone final.history)) = some true := by decide +kernel
  rcases Option.map_eq_some_iff.mp missed with ⟨final, reached, holds⟩
  rcases of_decide_eq_true holds with ⟨each, patient, host, guest, none⟩
  have rendezvous := meets plainState hostedDatabase 0 crossed final reached 4 inOrder each
    patient
  rcases rendezvous.met (fun role => .inr (by
    cases role with
    | host => exact hasParked_iff.mp host
    | guest => exact hasParked_iff.mp guest)) with ⟨role, peer, ⟨before, after, member⟩, -⟩
  exact nomatch List.all_eq_true.mp none _ member

end Loontail
