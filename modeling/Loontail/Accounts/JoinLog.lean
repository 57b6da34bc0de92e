import Loontail.Accounts.Service
import Loontail.Concurrency.Trace

/-! # The join sessions beside their log

The log of the store is the history itself: for a server the latest join counts that
nobody has asked about since. The store is swept by every operation on it, and holds
at any later time the joins of the log that have not expired. -/

namespace Loontail.Accounts

open Concurrency

def Operation.server : Operation → Option String
  | .recordJoin _ serverId _ => some serverId
  | .takeJoin _ serverId => some serverId
  | _ => none

def Operation.reading : Operation → Option Timestamp
  | .recordJoin time _ _ => some time
  | .takeJoin time _ => some time
  | _ => none

def Operation.pendingAfter (serverId : String) (pending : Option JoinSession) :
    Operation → Option JoinSession
  | .recordJoin _ recorded session => if recorded = serverId then some session else pending
  | .takeJoin _ asked => if asked = serverId then none else pending
  | _ => pending

/-- The latest join for the server, unless somebody has asked about the server since. -/
def pendingJoin (serverId : String) (history : List (Event accounts)) : Option JoinSession :=
  history.foldr (fun event pending => event.operation.pendingAfter serverId pending) none

def readings (history : List (Event accounts)) : List Timestamp :=
  history.filterMap fun event => event.operation.reading

def ReadingsOrdered (history : List (Event accounts)) : Prop :=
  (readings history).Pairwise fun later earlier => earlier ≤ later

instance (history : List (Event accounts)) : Decidable (ReadingsOrdered history) :=
  inferInstanceAs (Decidable (List.Pairwise _ _))

theorem ReadingsOrdered.tail {event : Event accounts} {history : List (Event accounts)}
    (ordered : ReadingsOrdered (event :: history)) : ReadingsOrdered history := by
  rw [ReadingsOrdered, readings, List.filterMap_cons] at ordered
  split at ordered
  · exact ordered
  · exact (List.pairwise_cons.mp ordered).2

theorem ReadingsOrdered.before {event : Event accounts} {history : List (Event accounts)}
    {now : Timestamp} (ordered : ReadingsOrdered (event :: history))
    (reading : event.operation.reading = some now) : ∀ time ∈ readings history, time ≤ now := by
  have last : readings (event :: history) = now :: readings history :=
    List.filterMap_cons_some reading
  rw [ReadingsOrdered, last] at ordered
  exact (List.pairwise_cons.mp ordered).1

theorem ReadingsOrdered.of_suffix {older history : List (Event accounts)}
    (ordered : ReadingsOrdered history) (suffix : older <:+ history) : ReadingsOrdered older :=
  List.Pairwise.sublist (suffix.sublist.filterMap _) ordered

theorem Operation.pendingAfter_other {operation : Operation} {serverId : String}
    {pending : Option JoinSession} (other : operation.server ≠ some serverId) :
    operation.pendingAfter serverId pending = pending := by
  cases operation with
  | recordJoin time recorded session => exact if_neg fun same => other (congrArg some same)
  | takeJoin time asked => exact if_neg fun same => other (congrArg some same)
  | _ => rfl

theorem pendingJoin_eq_some {serverId : String} {history : List (Event accounts)}
    {session : JoinSession} (pending : pendingJoin serverId history = some session) :
    ∃ newer joined older joinedAt, history = newer ++ joined :: older ∧
      joined.operation = .recordJoin joinedAt serverId session ∧
      ∀ event ∈ newer, event.operation.server ≠ some serverId := by
  induction history with
  | nil => cases pending
  | cons event rest induction =>
      by_cases here : event.operation.server = some serverId
      · rcases event with ⟨process, before, operation, result, after⟩
        cases operation with
        | recordJoin joinedAt recorded joined =>
            cases Option.some.inj here
            have same : joined = session := Option.some.inj ((if_pos rfl).symm.trans pending)
            subst same
            exact ⟨[], _, rest, joinedAt, rfl, rfl, by simp⟩
        | takeJoin askedAt asked =>
            cases Option.some.inj here
            cases (if_pos rfl).symm.trans pending
        | _ => cases here
      · have earlier : pendingJoin serverId rest = some session :=
          (Operation.pendingAfter_other here).symm.trans pending
        obtain ⟨newer, joined, older, joinedAt, rfl, recorded, apart⟩ := induction earlier
        refine ⟨event :: newer, joined, older, joinedAt, rfl, recorded, ?_⟩
        intro other among
        rcases List.mem_cons.mp among with rfl | later
        · exact here
        · exact apart other later

/-! ## The store -/

namespace JoinSessions

variable {sessions : JoinSessions} {now : Timestamp} {serverId other : String}

def Keyed (sessions : JoinSessions) : Prop := (sessions.map (·.1)).Nodup

theorem Keyed.filter {kept : String × JoinSession → Bool} (keyed : sessions.Keyed) :
    Keyed (sessions.filter kept) :=
  (List.filter_sublist.map _).nodup keyed

theorem find_sweep (keyed : sessions.Keyed) (now : Timestamp) (serverId : String) :
    (sessions.sweep now).find serverId =
      (sessions.find serverId).filter fun session => !session.isExpired now := by
  induction sessions with
  | nil => rfl
  | cons entry rest induction =>
      have split := List.nodup_cons.mp keyed
      have continued := induction split.2
      have swept : sweep (entry :: rest) now =
          if entry.2.isExpired now then sweep rest now else entry :: sweep rest now := by
        cases expired : entry.2.isExpired now <;> simp [sweep, expired]
      rw [swept]
      by_cases here : entry.1 = serverId
      · have absent : find rest serverId = none := by
          rw [find, Option.map_eq_none_iff, List.find?_eq_none]
          intro later among same
          have equal : later.1 = serverId := of_decide_eq_true same
          exact split.1 (List.mem_map.mpr ⟨later, among, equal.trans here.symm⟩)
        rw [absent] at continued
        have found : find (entry :: rest) serverId = some entry.2 := by simp [find, here]
        rw [found]
        cases expired : entry.2.isExpired now with
        | true => simpa [expired, Option.filter] using continued
        | false => simp [expired, Option.filter, find, here]
      · have passed : ∀ others : JoinSessions, find (entry :: others) serverId =
            find others serverId := fun others => by simp [find, here]
        rw [passed rest, ← continued]
        split
        · rfl
        · exact passed _

theorem find_without (sessions : JoinSessions) (removed serverId : String) :
    (sessions.without removed).find serverId =
      if removed = serverId then none else sessions.find serverId := by
  simp only [without, find, List.find?_filter]
  split
  · rename_i same
    subst same
    simp
  · rename_i different
    congr 2
    funext entry
    by_cases here : entry.1 = serverId
    · simp [here, Ne.symm different]
    · simp [here]

theorem keyed_record {session : JoinSession} (keyed : sessions.Keyed) :
    (sessions.record now serverId session).Keyed := by
  refine List.nodup_cons.mpr ⟨?_, keyed.filter.filter⟩
  simp [without]

end JoinSessions

/-! ## What the store holds -/

/-- At every time from the last reading on, the store holds the joins of the log that
have not expired by then. -/
structure HoldsPending (service : Service) (history : List (Event accounts)) : Prop where
  keyed : service.joinSessions.Keyed
  holds : ∀ serverId time, (∀ reading ∈ readings history, reading ≤ time) →
    (service.joinSessions.find serverId).filter (fun session => !session.isExpired time) =
      (pendingJoin serverId history).filter fun session => !session.isExpired time

section Occurs

variable {before after : Service} {time : Timestamp} {serverId : String}

theorem occurs_recordJoin {session : JoinSession} {result : Unit}
    (occurs : accounts.Occurs before (.recordJoin time serverId session) result after) :
    after.joinSessions = before.joinSessions.record time serverId session := by
  rcases occurs with ⟨-, performed⟩ | ⟨fault, -⟩
  · cases performed
    rfl
  · cases fault

theorem occurs_takeJoin {result : Option JoinSession}
    (occurs : accounts.Occurs before (.takeJoin time serverId) result after) :
    before.joinSessions.take time serverId = (result, after.joinSessions) := by
  rcases occurs with ⟨-, performed⟩ | ⟨fault, -⟩
  · cases performed
    rfl
  · cases fault

theorem occurs_joinSessions {operation : Operation} {result : operation.Result}
    (other : operation.server = none) (occurs : accounts.Occurs before operation result after) :
    after.joinSessions = before.joinSessions := by
  cases operation with
  | statement statement =>
      rcases occurs_statement occurs with ⟨-, -, rfl⟩ | ⟨_, _, -, -, rfl⟩ <;> rfl
  | recordJoin => cases other
  | takeJoin => cases other
  | _ =>
      rcases occurs with ⟨-, performed⟩ | ⟨fault, -⟩
      · cases performed
        rfl
      · cases fault

end Occurs

theorem filter_later {pending : Option JoinSession} {now time : Timestamp} (later : now ≤ time) :
    (pending.filter fun session => !session.isExpired now).filter
        (fun session => !session.isExpired time) =
      pending.filter fun session => !session.isExpired time := by
  cases pending with
  | none => rfl
  | some session =>
      have expires : session.isExpired now = true → session.isExpired time = true :=
        fun expired => decide_eq_true ((of_decide_eq_true expired).trans later)
      cases expired : session.isExpired now with
      | true => simp [Option.filter, expired, expires expired]
      | false => simp [Option.filter, expired]

theorem HoldsPending.start (database : Database) (clock : Timestamp) :
    HoldsPending (.boot database clock) [] where
  keyed := .nil
  holds := fun _ _ _ => rfl

theorem HoldsPending.event {event : Event accounts} {history : List (Event accounts)}
    (happened : event.Happened) (was : HoldsPending event.before history)
    (ordered : ReadingsOrdered (event :: history)) :
    HoldsPending event.after (event :: history) := by
  rcases event with ⟨process, before, operation, result, after⟩
  have occurs : accounts.Occurs before operation result after := happened
  -- what the operation swept before a later time had expired by then
  have earlier : ∀ now time, operation.reading = some now →
      (∀ reading ∈ readings (⟨process, before, operation, result, after⟩ :: history),
        reading ≤ time) →
      now ≤ time ∧ ∀ serverId, (before.joinSessions.find serverId).filter
          (fun session => !session.isExpired time) =
        (pendingJoin serverId history).filter fun session => !session.isExpired time := by
    intro now time reading bound
    have last : readings (⟨process, before, operation, result, after⟩ :: history) =
        now :: readings history := List.filterMap_cons_some reading
    rw [last] at bound
    exact ⟨bound now (by simp), fun serverId => was.holds serverId time fun reading among =>
      bound reading (by simp [among])⟩
  cases operation with
  | recordJoin now recorded session =>
      have left := occurs_recordJoin occurs
      constructor
      · change after.joinSessions.Keyed
        rw [left]
        exact JoinSessions.keyed_record was.keyed
      · intro serverId time bound
        obtain ⟨later, held⟩ := earlier now time rfl bound
        change (after.joinSessions.find serverId).filter _ =
          (if recorded = serverId then some session else pendingJoin serverId history).filter _
        rw [left]
        by_cases same : recorded = serverId
        · simp [JoinSessions.record, JoinSessions.find, same]
        · have passed : (before.joinSessions.record now recorded session).find serverId =
              ((before.joinSessions.sweep now).without recorded).find serverId := by
            simp [JoinSessions.record, JoinSessions.find, same]
          rw [passed, JoinSessions.find_without, if_neg same, if_neg same,
            JoinSessions.find_sweep was.keyed, filter_later later]
          exact held serverId
  | takeJoin now asked =>
      have taken := occurs_takeJoin occurs
      have left : after.joinSessions = (before.joinSessions.sweep now).without asked :=
        (congrArg Prod.snd taken).symm
      constructor
      · change after.joinSessions.Keyed
        rw [left]
        exact was.keyed.filter.filter
      · intro serverId time bound
        obtain ⟨later, held⟩ := earlier now time rfl bound
        change (after.joinSessions.find serverId).filter _ =
          (if asked = serverId then none else pendingJoin serverId history).filter _
        rw [left, JoinSessions.find_without]
        by_cases same : asked = serverId
        · simp [same]
        · rw [if_neg same, if_neg same, JoinSessions.find_sweep was.keyed, filter_later later]
          exact held serverId
  | _ =>
      have left := occurs_joinSessions rfl occurs
      constructor
      · change after.joinSessions.Keyed
        rw [left]
        exact was.keyed
      · intro serverId time bound
        change (after.joinSessions.find serverId).filter _ = _
        rw [left]
        exact was.holds serverId time bound

/-- While the store is used at one time after another, it holds what its log has. -/
theorem holdsPending_of_trace {database : Database} {clock : Timestamp} {final : Service}
    {history : List (Event accounts)}
    (traced : @Traced accounts (.boot database clock) history final)
    (ordered : ReadingsOrdered history) : HoldsPending final history := by
  refine @Traced.invariant accounts _ _ _
    (fun older service => ReadingsOrdered older → HoldsPending service older)
    traced (fun _ => .start database clock) ?_ ordered
  intro event older suffix happened was ordered
  exact (was ordered.tail).event happened ordered

theorem HoldsPending.taken {before after : Service} {history : List (Event accounts)}
    {process : Nat} {now : Timestamp} {serverId : String} {result : Option JoinSession}
    (holds : HoldsPending before history)
    (ordered : ReadingsOrdered (⟨process, before, .takeJoin now serverId, result, after⟩ :: history))
    (occurs : accounts.Occurs before (.takeJoin now serverId) result after) :
    result = (pendingJoin serverId history).filter fun session => !session.isExpired now := by
  have taken := congrArg Prod.fst (occurs_takeJoin occurs)
  change ((before.joinSessions.sweep now).find serverId).filter _ = result at taken
  rw [← taken, JoinSessions.find_sweep holds.keyed, filter_later (le_refl now)]
  exact holds.holds serverId now (ordered.before rfl)

end Loontail.Accounts
