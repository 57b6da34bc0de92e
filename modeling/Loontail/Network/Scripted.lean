import Loontail.Concurrency.Sequence
import Loontail.Network.Alone

/-! # Requests of the service whose failures are given

The rules follow a request operation by operation, each at its position in the script. -/

namespace Loontail

open Concurrency Network Handler

/-! ## Positions in a script -/

section Steps

variable {all : List Bool} {count steps : Nat}

theorem mem_take_mono (failed : true ∈ all.take count) (within : count ≤ steps) :
    true ∈ all.take steps :=
  List.take_subset_take_left all within failed

theorem mem_take_next (failed : (all.drop count).headD false = true) :
    true ∈ all.take (count + 1) := by
  rw [List.take_add_one, List.mem_append]
  refine .inr ?_
  rw [List.headD_eq_head?_getD, List.head?_drop] at failed
  cases here : all[count]? with
  | none => simp [here] at failed
  | some step => simpa [here] using failed.symm

theorem not_mem_take_next (clean : true ∉ all.take count)
    (runs : (all.drop count).headD false = false) : true ∉ all.take (count + 1) := by
  rw [List.take_add_one, List.mem_append]
  rintro (earlier | here)
  · exact clean earlier
  · rw [List.headD_eq_head?_getD, List.head?_drop] at runs
    rw [Option.mem_toList.mp here] at runs
    cases runs

variable {index : Nat} {before service : Service}

abbrev scripted (index : Nat) : Logic network := .scripted network index fun _ => false

theorem query_scripted {statement : Statement} (clean : true ∉ all.take count)
    {onOk : statement.Reply → Service × List Bool × Bool → Prop}
    {onError : AppError → Service × List Bool × Bool → Prop}
    (error : true ∈ all.take (count + 1) ∨
        (∃ failure, statement.execute service.clock service.database = .error failure) →
      ∀ error, onError error (service, all.drop (count + 1), false))
    (ok : true ∉ all.take (count + 1) → ∀ reply after,
      statement.execute service.clock service.database = .ok (reply, after.database) →
      after.clock = service.clock → onOk reply (after, all.drop (count + 1), false)) :
    (query statement).Meets (scripted index) onOk onError (service, all.drop count, false) := by
  refine (meets_query statement).mpr ⟨fun fails result fault => ?_, fun runs result after _ done => ?_⟩
  · cases fault
    rw [List.tail_drop]
    exact error (.inl (mem_take_next fails)) _
  · rw [List.tail_drop]
    change service.perform (.statement statement) = (result, after) at done
    rw [Service.perform] at done
    split at done
    · rename_i reply database executed
      cases done
      exact ok (not_mem_take_next clean runs) reply _ executed rfl
    · rename_i failure executed
      cases done
      exact error (.inr ⟨failure, executed⟩) _

/-- A statement that the database grants as it is. -/
theorem granted_scripted {statement : Statement} {value : statement.Reply} {left : Database}
    (granted : statement.execute before.clock before.database = .ok (value, left))
    (clean : true ∉ all.take count) (same : service.moment = before.moment)
    {onOk : statement.Reply → Service × List Bool × Bool → Prop}
    {onError : AppError → Service × List Bool × Bool → Prop}
    (error : true ∈ all.take (count + 1) →
      ∀ error, onError error (service, all.drop (count + 1), false))
    (ok : true ∉ all.take (count + 1) → ∀ after, after.moment = ⟨left, before.clock⟩ →
      onOk value (after, all.drop (count + 1), false)) :
    (query statement).Meets (scripted index) onOk onError (service, all.drop count, false) := by
  obtain ⟨database, clock⟩ := Moment.mk.inj same
  apply query_scripted clean
  · rintro (failed | ⟨failure, refused⟩)
    · exact error failed
    · rw [clock, database, granted] at refused
      cases refused
  · intro still reply after executed kept
    rw [clock, database, granted] at executed
    obtain ⟨rfl, rfl⟩ := Prod.mk.inj (Except.ok.inj executed)
    apply ok still after
    rw [Service.moment, kept, clock]

theorem read_scripted {statement : Statement} {value : statement.Reply}
    (reads : statement.execute before.clock before.database = .ok (value, before.database))
    (clean : true ∉ all.take count) (same : service.moment = before.moment)
    {onOk : statement.Reply → Service × List Bool × Bool → Prop}
    {onError : AppError → Service × List Bool × Bool → Prop}
    (error : true ∈ all.take (count + 1) →
      ∀ error, onError error (service, all.drop (count + 1), false))
    (ok : true ∉ all.take (count + 1) → ∀ after, after.moment = before.moment →
      onOk value (after, all.drop (count + 1), false)) :
    (query statement).Meets (scripted index) onOk onError (service, all.drop count, false) :=
  granted_scripted reads clean same error ok

theorem now_scripted (clean : true ∉ all.take count) {onOk : Timestamp → Service × List Bool × Bool → Prop}
    {onError : AppError → Service × List Bool × Bool → Prop}
    (ok : true ∉ all.take (count + 1) →
      onOk service.clock (service, all.drop (count + 1), false)) :
    now.Meets (scripted index) onOk onError (service, all.drop count, false) := by
  refine meets_now.mpr ⟨fun _ result fault => ?_, fun runs result after _ performed => ?_⟩
  · cases fault
  · cases performed
    rw [List.tail_drop]
    exact ok (not_mem_take_next clean runs)

theorem sendTo_scripted {userId : Uuid} {event : ServerEvent} (clean : true ∉ all.take count)
    {onOk : Unit → Service × List Bool × Bool → Prop}
    {onError : AppError → Service × List Bool × Bool → Prop}
    (ok : true ∉ all.take (count + 1) → ∀ after, after.moment = service.moment →
      onOk () (after, all.drop (count + 1), false)) :
    (sendTo userId event).Meets (scripted index) onOk onError
      (service, all.drop count, false) := by
  refine (meets_sendTo userId event).mpr
    ⟨fun _ result fault => ?_, fun runs result after _ performed => ?_⟩
  · cases fault
  · cases performed
    rw [List.tail_drop]
    exact ok (not_mem_take_next clean runs) _ rfl

/-- A transaction that stops before its commit is undone. -/
theorem transactionally_scripted {Reply : Type} {body : Transaction → Handler Reply}
    {unharmed : Prop} (clean : true ∉ all.take count) (same : service.moment = before.moment)
    {onOk : Reply → Service × List Bool × Bool → Prop}
    {onError : AppError → Service × List Bool × Bool → Prop}
    (undone : ∀ error following, following.1.database = before.database → unharmed →
      onError error following)
    (refused : true ∈ all.take (count + 1) → unharmed)
    (begun : true ∉ all.take (count + 1) → ∀ transaction after, after.moment = before.moment →
      (body transaction).Meets (scripted index) onOk
        (fun _ following => following.1.moment = before.moment ∧ unharmed)
        (after, all.drop (count + 1), false)) :
    (transactionally body).Meets (scripted index) onOk onError
      (service, all.drop count, false) := by
  refine (meets_transactionally body).mpr (meets_begin.mpr ⟨fun fails result fault => ?_,
    fun runs result after _ performed => ?_⟩)
  · cases fault
    exact undone _ _ (congrArg Moment.database same) (refused (mem_take_next fails))
  · cases performed
    rw [List.tail_drop]
    have started := begun (not_mem_take_next clean runs) ⟨service.transactions, service.clock⟩
      { service with transactions := service.transactions + 1 } same
    refine started.mono (fun _ _ => id) ?_
    rintro error ⟨later, rest, marked⟩ ⟨kept, holds⟩
    refine ⟨fun _ result fault => ?_, fun _ result last _ ended => ?_⟩
    · cases fault
    · cases ended
      exact undone _ _ (congrArg Moment.database kept) holds

end Steps

/-! ## Operations that change nothing -/

def Operation.Still (operation : Operation) : Prop :=
  ∀ before result after, network.Occurs before operation result after →
    after.moment = before.moment

theorem Statement.still_of_reads {statement : Statement}
    (reads : ∀ now database reply after, statement.execute now database = .ok (reply, after) →
      after = database) : (Operation.statement statement).Still := by
  intro before result after occurs
  rcases occurs_statement occurs with ⟨error, -, rfl⟩ | ⟨reply, database, -, executed, rfl⟩
  · rfl
  · rw [Service.moment, reads _ _ _ _ executed, Service.moment]

theorem sendTo_still (userId : Uuid) (event : ServerEvent) :
    (Operation.signaling (.sendTo userId event)).Still := by
  intro before result after occurs
  cases occurs_signaling occurs
  rfl

theorem Handler.Meets.keeping {Value : Type} {logic : Logic network} {allowed : Operation → Prop}
    {Inv : logic.Situation → Prop} {situation : logic.Situation} {ok : Value → Prop}
    {failed : AppError → Prop} {handler : Handler Value}
    (keeps : ∀ operation, allowed operation → logic.Keeps Inv operation)
    (meets : handler.Meets (.footprint allowed) (fun value _ => ok value)
      (fun error _ => failed error) ())
    (holds : Inv situation) :
    handler.Meets logic (fun value following => ok value ∧ Inv following)
      (fun error following => failed error ∧ Inv following) situation := by
  have whole : Process.Meets (.footprint allowed)
      (fun outcome _ => Except.casesOn (motive := fun _ => Prop) outcome failed ok)
      handler.run () :=
    Process.Meets.mono (fun outcome following holds => by cases outcome <;> exact holds) meets
  refine whole.keeping keeps holds fun outcome following ended kept => ?_
  cases outcome with
  | ok value => exact ⟨ended, kept⟩
  | error error => exact ⟨ended, kept⟩

theorem Operation.Still.keeps_scripted {operation : Operation} (still : operation.Still)
    {index : Nat} {mark : Event network → Bool} {moment : Moment} {marked : Bool}
    (quiet : ∀ before result after, mark ⟨index, before, operation, result, after⟩ = false) :
    (Logic.scripted network index mark).Keeps
      (fun following => following.1.moment = moment ∧ following.2.2 = marked) operation := by
  rintro ⟨service, rest, before⟩ ⟨same, rfl⟩ post holds
  refine ⟨fun _ result fault => holds result _ ⟨same, ?_⟩,
    fun _ result after ready performed => holds result _ ⟨?_, ?_⟩⟩
  · rw [quiet, Bool.false_or]
  · exact (still service result after (.inl ⟨ready, performed⟩)).trans same
  · rw [quiet, Bool.false_or]

theorem uses_scripted {Value : Type} {handler : Handler Value}
    (uses : handler.Uses Operation.Still) {index : Nat} {before service : Service}
    {rest : List Bool} (same : service.moment = before.moment) :
    handler.Meets (scripted index) (fun _ following => following.1.moment = before.moment)
      (fun _ following => following.1.moment = before.moment) (service, rest, false) :=
  (Handler.Meets.keeping (fun _ still => still.keeps_scripted fun _ _ _ => rfl)
    (uses_iff.mp uses) ⟨same, rfl⟩).mono (fun _ _ both => both.2.1) fun _ _ both => both.2.1

theorem Handler.execute_scripted {Value Last : Type} {handler : Handler Value}
    {apply : Value → Last} {index : Nat} {script : List Bool} {before after : Service}
    {outcome : Except AppError Last} {history events : List (Event network)}
    (post : Service → Prop)
    (meets : handler.Meets (scripted index) (fun _ following => post following.1)
      (fun _ following => post following.1) (before, script, false))
    (executed : (apply <$> handler).run.execute index script before history =
      some (outcome, after, events)) : post after := by
  have mapped : (apply <$> handler).Meets (scripted index) (fun _ following => post following.1)
      (fun _ following => post following.1) (before, script, false) :=
    (meets_map apply handler).mpr meets
  have unmarked : history.any (fun _ => false) = false := by simp
  rw [← unmarked] at mapped
  exact @Process.execute_scripted network _ _ index script before after history events outcome
    (fun _ => false) (fun _ after _ => post after) (meets_run.mpr mapped) executed

end Loontail
