import Loontail.Guarantees.Rendezvous

/-! # The cleanup after a wait

A connection whose wait has ended removes whatever is parked for its relay session, be it
its own socket or that of a connection that came later. -/

namespace Loontail

open Concurrency

def connects (process : Nat) (socket : SocketId) : Event network → Bool
  | ⟨own, _, .relay .upgrade, given, _⟩ => own = process && given = socket
  | _ => false

def wasTaken (process : Nat) (history : List (Event network)) : Bool :=
  history.any fun event => match event with
    | ⟨_, _, .relay (.take _ _), some peer, _⟩ => history.any (connects process peer.socket)
    | _ => false

/-- No connection whose socket was taken cleans up while one waits in its slot. -/
def CleansInTime : List (Event network) → Prop
  | [] => True
  | event :: older => (match event.operation with
      | .relay (.removeWaiting id) => wasTaken event.process older = true →
          event.before.realtime.relay.isWaiting id = false
      | _ => True) ∧ CleansInTime older

/-- No cleanup removes a socket that another connection parked. -/
def OwnCleanups (history : List (Event network)) : Prop :=
  ∀ process before id peer after,
    ⟨process, before, .relay (.removeWaiting id), some peer, after⟩ ∈ history →
    ∀ other role, Answered history other (.relay (.park id role peer)) none → other = process

instance CleansInTime.decidable : (history : List (Event network)) → Decidable (CleansInTime history)
  | [] => .isTrue trivial
  | event :: older => by
      have := CleansInTime.decidable older
      unfold CleansInTime
      refine @instDecidableAnd _ _ ?_ this
      split <;> infer_instance

theorem connects_iff {process : Nat} {socket : SocketId} {history : List (Event network)} :
    history.any (connects process socket) = true ↔
      Answered history process (.relay .upgrade) socket := by
  rw [List.any_eq_true]
  constructor
  · rintro ⟨⟨own, before, operation, result, after⟩, member, given⟩
    unfold connects at given
    split at given
    · rename_i same
      cases same
      simp only [Bool.and_eq_true, decide_eq_true_eq] at given
      obtain ⟨rfl, rfl⟩ := given
      exact ⟨before, after, member⟩
    · cases given
  · rintro ⟨before, after, member⟩
    exact ⟨_, member, by simp [connects]⟩

theorem wasTaken_iff {process : Nat} {history : List (Event network)} :
    wasTaken process history = true ↔ ∃ taker id role peer,
      Answered history taker (.relay (.take id role)) (some peer) ∧
        Answered history process (.relay .upgrade) peer.socket := by
  unfold wasTaken
  rw [List.any_eq_true]
  constructor
  · rintro ⟨⟨taker, before, operation, result, after⟩, member, taken⟩
    split at taken
    · rename_i same
      cases same
      exact ⟨taker, _, _, _, ⟨before, after, member⟩, connects_iff.mp taken⟩
    · cases taken
  · rintro ⟨taker, id, role, peer, ⟨before, after, member⟩, upgraded⟩
    exact ⟨_, member, connects_iff.mpr upgraded⟩

theorem CleansInTime.iff_forall {history : List (Event network)} :
    CleansInTime history ↔ ∀ process before id result after older,
      ⟨process, before, .relay (.removeWaiting id), result, after⟩ :: older <:+ history →
        wasTaken process older = true → before.realtime.relay.isWaiting id = false := by
  induction history with
  | nil => simp [CleansInTime]
  | cons event rest induction =>
      constructor
      · intro cleans process before id result after older suffix
        rcases List.suffix_cons_iff.mp suffix with same | within
        · cases same
          exact cleans.1
        · exact induction.mp cleans.2 process before id result after older within
      · intro all
        refine ⟨?_, induction.mpr fun process before id result after older within =>
          all process before id result after older (within.trans (List.suffix_cons _ _))⟩
        rcases event with ⟨process, before, operation, result, after⟩
        split
        · rename_i id same
          cases same
          exact all process before id result after rest List.suffix_rfl
        · trivial

theorem CleansInTime.of_suffix {shorter history : List (Event network)}
    (suffix : shorter <:+ history) (cleans : CleansInTime history) : CleansInTime shorter := by
  rw [iff_forall] at cleans ⊢
  intro process before id result after older within
  exact cleans process before id result after older (within.trans suffix)

/-! ## The phases around a wait -/

namespace RelayPhase

def waiting : RelayPhase → Option RelayVisit
  | parked visit => some visit
  | awaited visit => some visit
  | _ => none

def unconnected : RelayPhase → Bool
  | outside => true
  | arriving _ => true
  | loaded .. => true
  | validated .. => true
  | authenticated .. => true
  | _ => false

variable {phase : RelayPhase} {operation : Operation} {result : operation.Result}

theorem waiting_eq_some {visit : RelayVisit} :
    phase.waiting = some visit ↔ phase = .parked visit ∨ phase = .awaited visit := by
  cases phase <;> simp [waiting]

theorem waiting_after {visit : RelayVisit} (allowed : phase.allows operation)
    (waits : (phase.after operation result).waiting = some visit) :
    (phase = .missed visit ∧
      operation = .relay (.park visit.id visit.role ⟨visit.socket, visit.socket⟩) ∧
      HEq result (none : Option PendingPeer)) ∨
    phase.waiting = some visit ∧ operation = .relay (.awaitPeer visit.socket) := by
  cases phase with
  | missed own =>
      cases allowed
      cases result with
      | none =>
          cases waits
          exact .inl ⟨rfl, rfl, HEq.rfl⟩
      | some back => cases waits
  | parked own =>
      cases allowed
      cases waits
      exact .inr ⟨rfl, rfl⟩
  | arriving id =>
      cases allowed
      cases result with
      | error failure => cases waits
      | ok row => cases row <;> cases waits
  | loaded id relay =>
      rcases allowed with ⟨tokenHash, rfl⟩ | ⟨ticketId, tokenHash, named, rfl⟩
      · cases result with
        | error failure => cases waits
        | ok row =>
            cases row with
            | none => cases waits
            | some user =>
                change (afterUser id relay user).waiting = some visit at waits
                rcases afterUser_cases id relay user with ⟨-, next⟩ | next
                · rw [next] at waits
                  cases waits
                · rw [next] at waits
                  cases waits
      · cases result with
        | error failure => cases waits
        | ok valid => cases valid <;> cases waits
  | validated id relay ticketId =>
      cases allowed
      cases result <;> cases waits
  | authenticated id relay role =>
      cases allowed
      cases waits
  | connected own =>
      cases allowed
      cases result <;> cases waits
  | awaited own =>
      cases allowed
      cases waits
  | paired own peer =>
      cases allowed
      change (afterAdmit own peer result).waiting = some visit at waits
      rcases afterAdmit_cases own peer result with ⟨-, -, -, next⟩ | next
      · rw [next] at waits
        cases waits
      · rw [next] at waits
        cases waits
  | tunnelling own peer =>
      rcases after_tunnelling own peer operation result with next | next
      · rw [next] at waits
        cases waits
      · rw [next] at waits
        cases waits
  | _ => cases waits

theorem unconnected_after (allowed : phase.allows operation)
    (without : (phase.after operation result).unconnected = true) :
    phase.unconnected = true ∧ operation ≠ .relay .upgrade := by
  cases phase with
  | outside =>
      refine ⟨rfl, fun upgrades => ?_⟩
      rw [upgrades] at allowed
      exact allowed.1 rfl
  | arriving id =>
      cases allowed
      exact ⟨rfl, by simp⟩
  | loaded id relay =>
      rcases allowed with ⟨tokenHash, rfl⟩ | ⟨ticketId, tokenHash, -, rfl⟩
      · exact ⟨rfl, by simp⟩
      · exact ⟨rfl, by simp⟩
  | validated id relay ticketId =>
      cases allowed
      exact ⟨rfl, by simp⟩
  | authenticated id relay role =>
      cases allowed
      cases without
  | connected own =>
      cases allowed
      cases result <;> cases without
  | missed own =>
      cases allowed
      cases result <;> cases without
  | parked own =>
      cases allowed
      cases without
  | awaited own =>
      cases allowed
      cases without
  | paired own peer =>
      cases allowed
      change (afterAdmit own peer result).unconnected = true at without
      rcases afterAdmit_cases own peer result with ⟨-, -, -, next⟩ | next
      · rw [next] at without
        cases without
      · rw [next] at without
        cases without
  | tunnelling own peer =>
      rcases after_tunnelling own peer operation result with next | next
      · rw [next] at without
        cases without
      · rw [next] at without
        cases without
  | _ => cases without

theorem unconnected_of_upgrades (allowed : phase.allows (.relay .upgrade)) :
    phase.unconnected = true := by
  cases phase with
  | outside => exact (allowed.1 rfl).elim
  | authenticated id relay role => rfl
  | tunnelling visit other => simp [allows, Operation.purpose] at allowed
  | released visit => simp [allows, Operation.purpose] at allowed
  | refusing visit other => simp [allows] at allowed
  | loaded id relay => simp [allows] at allowed
  | _ => cases allowed

end RelayPhase

/-! ## What a connection has parked -/

section Trace

variable {owner : Nat → Option Request} {start final : Service} {history : List (Event network)}

theorem upgraded_once (traced : Traced start history final)
    (obeyed : ∀ event older, event :: older <:+ history → ∃ request,
      owner event.process = some request ∧
        (relayProtocol.phase request event.process older).allows event.operation)
    {process : Nat} {socket other : SocketId}
    (upgraded : Answered history process (.relay .upgrade) socket)
    (again : Answered history process (.relay .upgrade) other) : socket = other := by
  have unique := @Traced.invariant network _ _ _ (fun history _ =>
    (∀ index request, owner index = some request →
      (relayProtocol.phase request index history).unconnected = true →
      ∀ socket, ¬Answered history index (.relay .upgrade) socket) ∧
    ∀ process socket other, Answered history process (.relay .upgrade) socket →
      Answered history process (.relay .upgrade) other → socket = other) traced ?_ ?_
  · exact unique.2 process socket other upgraded again
  · constructor
    · intro index request _ _ socket answered
      simp [Answered] at answered
    · intro process socket other answered
      simp [Answered] at answered
  · rintro ⟨process, before, operation, result, after⟩ older suffix - ⟨without, once⟩
    obtain ⟨request, owned, allowed⟩ := obeyed _ older suffix
    constructor
    · intro index other ownedOther unconnected socket answered
      by_cases own : index = process
      · subst own
        obtain rfl := Option.some.inj (owned.symm.trans ownedOther)
        rw [phase_now] at unconnected
        obtain ⟨earlier, different⟩ := RelayPhase.unconnected_after allowed unconnected
        rcases answered_cons answered with ⟨_, _, now⟩ | before
        · cases now
          exact different rfl
        · exact without index request owned earlier socket before
      · rw [phase_elsewhere other own] at unconnected
        rcases answered_cons answered with ⟨_, _, now⟩ | before
        · cases now
          exact own rfl
        · exact without index other ownedOther unconnected socket before
    · intro index socket other answered again
      rcases answered_cons answered with ⟨_, _, now⟩ | earlier
      · cases now
        rcases answered_cons again with ⟨_, _, now⟩ | earlier
        · cases now
          rfl
        · exact (without _ request owned (RelayPhase.unconnected_of_upgrades allowed) other
            earlier).elim
      · rcases answered_cons again with ⟨_, _, now⟩ | also
        · cases now
          exact (without _ request owned (RelayPhase.unconnected_of_upgrades allowed) socket
            earlier).elim
        · exact once index socket other earlier also

theorem upgraded_of_parks (traced : Traced start history final)
    (vacant : start.realtime.relay = .new) (silent : start.signalled = [])
    (obeyed : ∀ event older, event :: older <:+ history → ∃ request,
      owner event.process = some request ∧
        (relayProtocol.phase request event.process older).allows event.operation)
    {process : Nat} {id : Uuid} {role : RelayRole} {peer : PendingPeer}
    {refused : Option PendingPeer}
    (parks : Answered history process (.relay (.park id role peer)) refused) :
    Answered history process (.relay .upgrade) peer.socket := by
  obtain ⟨before, after, member⟩ := parks
  obtain ⟨older, suffix⟩ := suffix_of_mem member
  obtain ⟨request, owned, allowed⟩ := obeyed _ older suffix
  have course := @Course.of_trace owner _ _ _ (traced.of_suffix suffix).1 vacant silent
    fun event rest within => obeyed event rest (within.trans ((List.suffix_cons _ _).trans suffix))
  obtain ⟨visit, phase, rfl, rfl, rfl⟩ := RelayPhase.missed_of_parks allowed
  have done := course.done process request owned
  rw [phase] at done
  exact done.2.mono fun event within => suffix.subset (List.mem_cons_of_mem _ within)

theorem parked_of_waits (traced : Traced start history final)
    (vacant : start.realtime.relay = .new) {id : Uuid} {role : RelayRole} {peer : PendingPeer}
    (found : final.realtime.relay.waiting.lookup id = some (role, peer)) :
    ∃ process, Answered history process (.relay (.park id role peer)) none := by
  refine @Traced.invariant network _ _ _ (fun history service => ∀ id role peer,
    service.realtime.relay.waiting.lookup id = some (role, peer) →
      ∃ process, Answered history process (.relay (.park id role peer)) none) traced ?_ ?_
    id role peer found
  · intro id role peer found
    rw [vacant] at found
    cases found
  · rintro ⟨process, before, operation, result, after⟩ older - happened parked id role peer found
    rcases waiting_after happened found with earlier | ⟨same, accepted⟩
    · obtain ⟨holder, answered⟩ := parked id role peer earlier
      exact ⟨holder, answered.later⟩
    · change operation = _ at same
      subst same
      obtain rfl := eq_of_heq accepted
      exact ⟨process, before, after, List.mem_cons_self⟩

theorem not_removed_twice (traced : Traced start history final)
    (vacant : start.realtime.relay = .new)
    (obeyed : ∀ event older, event :: older <:+ history → ∃ request,
      owner event.process = some request ∧
        (relayProtocol.phase request event.process older).allows event.operation)
    {process taker : Nat} {before after : Service} {id other : Uuid} {role : RelayRole}
    {peer taken : PendingPeer} {older : List (Event network)}
    (suffix : ⟨process, before, .relay (.removeWaiting id), some peer, after⟩ :: older <:+ history)
    (took : Answered older taker (.relay (.take other role)) (some taken))
    (same : taken.socket = peer.socket) : False := by
  have once := (Pairing.of_trace traced vacant obeyed).once peer.socket
  have placed := places_of_trace traced vacant peer.socket
  have many : List.countP (handsOut peer.socket) (_ :: older) ≤ _ := suffix.sublist.countP_le
  obtain ⟨first, last, member⟩ := took
  have earlier : 0 < older.countP (handsOut peer.socket) :=
    List.countP_pos_iff.mpr ⟨_, member, by simp [handsOut, same]⟩
  rw [List.countP_cons, if_pos (by simp [handsOut])] at many
  unfold places at placed
  omega

end Trace

/-! ## What waits in the slot -/

/-- The socket of a connection that waits is in its slot unless it was taken. -/
def Kept (owner : Nat → Option Request) (history : List (Event network)) (service : Service) :
    Prop :=
  ∀ index request visit, owner index = some request →
    (relayProtocol.phase request index history).waiting = some visit →
    wasTaken index history = true ∨
      service.realtime.relay.waiting.lookup visit.id =
        some (visit.role, ⟨visit.socket, visit.socket⟩)

theorem wasTaken_later {process : Nat} {event : Event network} {history : List (Event network)}
    (taken : wasTaken process history = true) : wasTaken process (event :: history) = true := by
  obtain ⟨taker, id, role, peer, took, upgraded⟩ := wasTaken_iff.mp taken
  exact wasTaken_iff.mpr ⟨taker, id, role, peer, took.later, upgraded.later⟩

section Step

variable {owner : Nat → Option Request} {history : List (Event network)} {process : Nat}
  {request : Request} {start before after : Service} {operation : Operation}
  {result : operation.Result}

theorem RelayHub.isWaiting_of_lookup {hub : RelayHub} {id : Uuid} {slot : RelayRole × PendingPeer}
    (found : hub.waiting.lookup id = some slot) : hub.isWaiting id = true := by
  rw [isWaiting, found]
  rfl

theorem Kept.event (kept : Kept owner history before) (course : Course owner history before)
    (traced : Traced start history before)
    (occurs : network.Occurs before operation result after)
    (owned : owner process = some request)
    (allowed : (relayProtocol.phase request process history).allows operation)
    (inTime : ∀ id, operation = .relay (.removeWaiting id) → wasTaken process history = true →
      before.realtime.relay.isWaiting id = false) :
    Kept owner (⟨process, before, operation, result, after⟩ :: history) after := by
  intro index other visit ownedOther waits
  by_cases own : index = process
  · subst own
    obtain rfl := Option.some.inj (owned.symm.trans ownedOther)
    rw [phase_now] at waits
    rcases RelayPhase.waiting_after allowed waits with ⟨-, rfl, accepted⟩ | ⟨waited, rfl⟩
    · cases eq_of_heq accepted
      right
      rw [(RelayHub.park_accepted (occurs_park occurs)).2]
      exact AList.lookup_insert _
    · have performed := occurs_relay occurs
      cases performed
      rcases kept index request visit owned waited with taken | found
      · exact .inl (wasTaken_later taken)
      · exact .inr found
  rw [phase_elsewhere other own] at waits
  rcases kept index other visit ownedOther waits with taken | found
  · exact .inl (wasTaken_later taken)
  have upgraded := (course.missed_of_waits ownedOther (RelayPhase.waiting_eq_some.mp waits)).2
  rcases waiting_kept occurs found with still | ⟨role, rfl, opposite⟩ | rfl
  · exact .inr still
  · -- a party of the other role takes it
    left
    have taken := occurs_take occurs
    cases result with
    | none => exact (opposite ((RelayHub.take_none taken).2 _ _ found).symm).elim
    | some peer =>
        obtain ⟨_, there, -, -⟩ := RelayHub.take_some taken
        cases there.symm.trans found
        exact wasTaken_iff.mpr ⟨process, visit.id, role, _, ⟨before, after, List.mem_cons_self⟩,
          upgraded.later⟩
  · -- a cleanup in time removes the socket of its own connection
    obtain ⟨ending, phase, same⟩ := RelayPhase.awaited_of_removes allowed
    have own_waits : (relayProtocol.phase request process history).waiting = some ending :=
      RelayPhase.waiting_eq_some.mpr (.inr phase)
    rcases kept process request ending owned own_waits with taken | held
    · cases (inTime _ rfl taken).symm.trans (RelayHub.isWaiting_of_lookup found)
    · rw [← same] at held
      have slots := Prod.mk.inj (Option.some.inj (found.symm.trans held))
      have shared : visit.socket = ending.socket := congrArg PendingPeer.socket slots.2
      rw [shared] at upgraded
      exact (own ((sockets_of_trace traced).2 _ _ _ upgraded
        (course.missed_of_waits owned (.inr phase)).2)).elim

theorem Kept.of_trace {final : Service} (traced : Traced start history final)
    (vacant : start.realtime.relay = .new) (silent : start.signalled = [])
    (obeyed : ∀ event older, event :: older <:+ history → ∃ request,
      owner event.process = some request ∧
        (relayProtocol.phase request event.process older).allows event.operation)
    (cleans : CleansInTime history) : Kept owner history final := by
  refine @Traced.invariant network _ _ _ (Kept owner) traced ?_ ?_
  · intro index request visit _ waits
    cases request <;> cases waits
  · rintro ⟨process, before, operation, result, after⟩ older suffix happened kept
    obtain ⟨request, owned, allowed⟩ := obeyed _ older suffix
    have earlier := (traced.of_suffix suffix).1
    have course := Course.of_trace earlier vacant silent fun event rest within =>
      obeyed event rest (within.trans ((List.suffix_cons _ _).trans suffix))
    refine kept.event course earlier happened owned allowed fun id removes => ?_
    change operation = _ at removes
    subst removes
    exact CleansInTime.iff_forall.mp cleans process before id result after older suffix

end Step

/-! ## Every run -/

/-- In every interleaving the cleanups remove only their own sockets exactly if no connection
whose socket was taken cleans up while one waits in its slot. -/
theorem cleanups_own_iff (state : AppState) (database : Database) (clock : Timestamp)
    {moves : List (Move Request)} {final : Pool network Request (Except AppError Reply)}
    (reached : run (Pool.move (handle state)) (.initial (.boot database clock)) moves =
      some final) : OwnCleanups final.history ↔ CleansInTime final.history := by
  have traced := Pool.traced_of_run reached
  have obeyed (event : Event network) (older : List (Event network))
      (suffix : event :: older <:+ final.history) :=
    Pool.allowed_in_phase (handle_courses state) reached suffix
  have within {event : Event network} {older : List (Event network)}
      (suffix : event :: older <:+ final.history) (other : Event network)
      (rest : List (Event network)) (inner : other :: rest <:+ older) :=
    obeyed other rest (inner.trans ((List.suffix_cons _ _).trans suffix))
  constructor
  · intro owns
    refine CleansInTime.iff_forall.mpr ?_
    intro process before id result after older suffix taken
    obtain ⟨earlier, occurs⟩ := traced.of_suffix suffix
    cases waits : before.realtime.relay.waiting.lookup id with
    | none => rw [RelayHub.isWaiting, waits, Option.isSome_none]
    | some slot =>
        obtain ⟨role, peer⟩ := slot
        have removed := occurs_removeWaiting occurs
        rw [RelayHub.removeWaiting, waits] at removed
        obtain rfl := (Prod.mk.inj removed).1
        obtain ⟨holder, parks⟩ := parked_of_waits earlier rfl waits
        have older_within : older ⊆ final.history := fun event member =>
          suffix.subset (List.mem_cons_of_mem _ member)
        obtain rfl := owns process before id peer after (suffix.subset List.mem_cons_self) holder
          role (parks.mono older_within)
        have upgraded := upgraded_of_parks earlier rfl rfl (within suffix) parks
        obtain ⟨taker, _, _, other, took, again⟩ := wasTaken_iff.mp taken
        have same := upgraded_once earlier (within suffix) again upgraded
        exact (not_removed_twice traced rfl obeyed suffix took same).elim
  · intro cleans process before id peer after member other role parks
    obtain ⟨older, suffix⟩ := suffix_of_mem member
    obtain ⟨earlier, occurs⟩ := traced.of_suffix suffix
    obtain ⟨request, owned, allowed⟩ := obeyed _ older suffix
    obtain ⟨visit, phase, rfl⟩ := RelayPhase.awaited_of_removes allowed
    have course := Course.of_trace earlier rfl rfl (within suffix)
    have kept := Kept.of_trace earlier rfl rfl (within suffix)
      (CleansInTime.of_suffix ((List.suffix_cons _ _).trans suffix) cleans)
    have removed := occurs_removeWaiting occurs
    obtain ⟨slot, waits, handed⟩ := Option.map_eq_some_iff.mp (Prod.mk.inj removed).1
    rcases kept process request visit owned (RelayPhase.waiting_eq_some.mpr (.inr phase)) with
      taken | held
    · have vacant := CleansInTime.iff_forall.mp cleans _ _ _ _ _ older suffix taken
      cases vacant.symm.trans (RelayHub.isWaiting_of_lookup waits)
    · cases waits.symm.trans held
      subst handed
      have own := (course.missed_of_waits owned (.inr phase)).2
      have theirs := upgraded_of_parks traced rfl rfl obeyed parks
      exact (sockets_of_trace traced).2 _ _ _ theirs (own.mono fun event member =>
        suffix.subset (List.mem_cons_of_mem _ member))

/-- The wait of the host's first connection, which the guest took, ends before the host connects
again; nobody comes to its second connection, and that wait ends too. -/
def hostReturns : List (Move Request) :=
  hostAndGuest ++ [.advance 0, .advance 0] ++
  [.start (.relay 4 ⟨some "session", "host"⟩), .advance 2, .advance 2, .advance 2,
   .advance 2, .advance 2, .advance 2, .advance 2]

def cleanup? : Event network → Option (Nat × Bool)
  | ⟨process, _, .relay (.removeWaiting _), removed, _⟩ => some (process, removed.isSome)
  | _ => none

/-- The first connection finds nothing to remove, the last one its own socket. -/
theorem cleanups_own_in_turn :
    ∃ final, run (Pool.move (handle plainState)) (.initial (.boot hostedDatabase 0))
        hostReturns = some final ∧
      final.history.filterMap cleanup? = [(2, true), (0, false)] ∧
      OwnCleanups final.history := by
  have cleaned : ((run (Pool.move (handle plainState)) (.initial (.boot hostedDatabase 0))
      hostReturns).map fun final => decide (
        final.history.filterMap cleanup? = [(2, true), (0, false)] ∧
        CleansInTime final.history)) = some true := by decide +kernel
  obtain ⟨final, reached, holds⟩ := Option.map_eq_some_iff.mp cleaned
  obtain ⟨removals, cleans⟩ := of_decide_eq_true holds
  exact ⟨final, reached, removals,
    (cleanups_own_iff plainState hostedDatabase 0 reached).mpr cleans⟩

/-- The host connects again while its tunnel runs, and the wait of its first connection
times out. -/
def hostAgain : List (Move Request) :=
  hostAndGuest ++
  [.start (.relay 4 ⟨some "session", "host"⟩), .advance 2, .advance 2, .advance 2,
   .advance 2, .advance 2, .advance 0, .advance 0]

def removesThird : Event network → Bool
  | ⟨0, _, .relay (.removeWaiting 4), some peer, _⟩ => peer = ⟨2, 2⟩
  | _ => false

def parksThird : Event network → Bool
  | ⟨2, _, .relay (.park 4 .host peer), none, _⟩ => peer = ⟨2, 2⟩
  | _ => false

/-- The first connection of the host takes the socket of its second one away. -/
theorem cleanups_not_own :
    ¬∀ (state : AppState) (database : Database) (clock : Timestamp)
      (moves : List (Move Request)) (final : Pool network Request (Except AppError Reply)),
      run (Pool.move (handle state)) (.initial (.boot database clock)) moves = some final →
      OwnCleanups final.history := by
  intro always
  have again : ((run (Pool.move (handle plainState)) (.initial (.boot hostedDatabase 0))
      hostAgain).map fun final =>
        final.history.any removesThird && final.history.any parksThird) = some true := by
    decide +kernel
  obtain ⟨final, reached, seen⟩ := Option.map_eq_some_iff.mp again
  obtain ⟨removes, parks⟩ := Bool.and_eq_true_iff.mp seen
  obtain ⟨removal, removed, first⟩ := List.any_eq_true.mp removes
  obtain ⟨parking, parked, third⟩ := List.any_eq_true.mp parks
  unfold removesThird at first
  unfold parksThird at third
  split at first
  · split at third
    · obtain rfl := of_decide_eq_true first
      obtain rfl := of_decide_eq_true third
      have same := always plainState hostedDatabase 0 hostAgain final reached _ _ _ _ _ removed
        2 .host ⟨_, _, parked⟩
      cases same
    · cases third
  · cases first

end Loontail
